import Pmdapi.Library.Trace
import Pmdapi.MemoryEffects

/-! Calls that a mouse routine makes while another call is still in real mode. -/

namespace Pmdapi
open Bytes Effect

variable {σ : Type} (h : DpmiHost σ)

/-! ## The frame around one call -/

theorem silent_pre {intr : Nat} {s : State σ} (unlisted : needXbuf intr (s.scp.lword .eax) = false) :
    Silent s (final (msdosPreExtender h intr) s) := by
  have enter := steady_preEnter h intr s
  have sameAx : (final (preEnter h intr) s).scp.lword .eax = s.scp.lword .eax := congrArg loWord enter.2
  rw [final, msdosPreExtender_run]
  generalize final (preEnter h intr) s = t at enter sameAx
  rw [← sameAx] at unlisted
  obtain ⟨quiet, keeps⟩ := unmapped_preSwitch h intr false unlisted t
  rw [preMap_unlisted h unlisted]
  refine IsTrans.trans _ _ _ enter.1 (moved_bind quiet ?_)
  cases outcome : result (preSwitch h intr (t.scp.lword .eax) false) t with
  | ret r => exact refl _
  | go altEnt =>
    refine moved_bind (silent_preFinish h altEnt ?_) (refl _)
    rw [Sigcontext.lword, keeps altEnt outcome]
    exact unlisted

theorem silent_post {intr : Nat} {s : State σ} (unlisted : needXbuf intr (s.scp.lword .eax) = false) :
    Silent s (final (msdosPostExtender h intr) s) := by
  rw [msdosPostExtender, final_reads_bind]
  refine moved_bind (silent_postCopies h unlisted s) (moved_bind (silent_postSwitch h intr _ _) ?_)
  rw [unlisted]
  exact silent_postRegs _

theorem mapped_prepare (s : State σ) : (final (prepareEmsFrame h) s).emsFrameMapped = true := by
  cases mapped : s.emsFrameMapped <;> simp [prepareEmsFrame, mapped, logEvent]

theorem unmapped_restore (s : State σ) : (final (restoreEmsFrame h) s).emsFrameMapped = false := by
  cases mapped : s.emsFrameMapped <;> simp [restoreEmsFrame, mapped, logEvent]

/-- A call with the transfer buffer goes to real mode with the frame mapped, whatever it was before. -/
theorem mapped_pre {intr : Nat} {s : State σ} (listed : needXbuf intr (s.scp.lword .eax) = true) :
    (final (msdosPreExtender h intr) s).emsFrameMapped = true := by
  have sameAx : (final (preEnter h intr) s).scp.lword .eax = s.scp.lword .eax :=
    congrArg loWord (steady_preEnter h intr s).2
  rw [final, msdosPreExtender_run]
  generalize final (preEnter h intr) s = t at sameAx
  rw [← sameAx] at listed
  have mapped := mapped_prepare h t
  rw [preMap_listed h listed]
  rw [← prepareEmsFrame_scp h t] at listed
  obtain ⟨altEnt, goes⟩ := preSwitch_goes h listed (final (prepareEmsFrame h) t)
  have switch := uses_preSwitch h intr _ true (final (prepareEmsFrame h) t) altEnt goes
  show (final (preSwitch h intr _ true >>= preLeave h intr) _).emsFrameMapped = true
  rw [final_bind, goes]
  exact (uses_preFinish h intr altEnt _).1.trans (switch.1.trans mapped)

theorem unmapped_post {intr : Nat} {s : State σ} (listed : needXbuf intr (s.scp.lword .eax) = true) :
    (final (msdosPostExtender h intr) s).emsFrameMapped = false := by
  rw [msdosPostExtender, final_reads_bind, final_bind, final_bind, final_bind, listed]
  exact (silent_postRegs _).1.trans (unmapped_restore h _)

/-! ## The callbacks -/

def stackBlock (s : State σ) : Block := ⟨selAdr h s s.scp.ss s.scp.esp s.clntIs32 - 24, 24⟩

section Callbacks

variable {h} {p : Places} {P : Dword → Prop}

theorem spares_pushItem {sp : Dword} (clear : ∀ a, P a → ¬ (Block.mk (sp - 24) 24).Covers a)
    (is32 : Bool) (depth : Nat) (positive : 1 ≤ depth) (few : depth ≤ 6) (v : Dword) :
    Moves (Spares h p P) (pushItem is32 sp depth v : M σ Unit) := by
  intro s
  apply spares_setMem
  cases is32 with
  | true =>
    refine store_agree _ fun a inside covered => clear a inside ?_
    have start : sp - BitVec.ofNat 32 (4 * depth) = sp - 24 + BitVec.ofNat 32 (24 - 4 * depth) := by
      bv_omega
    rw [start] at covered
    exact Block.covers_of_inner (k := 24 - 4 * depth) (n := 4) (by omega) (by omega) covered
  | false =>
    refine store_agree _ fun a inside covered => clear a inside ?_
    have start : sp - BitVec.ofNat 32 (2 * depth) = sp - 24 + BitVec.ofNat 32 (24 - 2 * depth) := by
      bv_omega
    rw [start] at covered
    exact Block.covers_of_inner (k := 24 - 2 * depth) (n := 2) (by omega) (by omega) covered

theorem spares_mouseCallback (host : SteadyHost h) (target : Pmaddr) {s : State σ}
    (clear : Clear P [stackBlock h s]) :
    Spares h p P s (final (mouseCallback h s.clntIs32 target) s) := by
  have push := spares_pushItem (h := h) (p := p) (clear_cons.mp clear).1 s.clntIs32
  rw [mouseCallback, final_reads_bind, final_reads_bind, final_reads_bind]
  refine Moves.onlyIf (fun _ => ?_) s
  refine Moves.bind (push _ (by omega) (by omega) _) fun _ => Moves.bind (push _ (by omega) (by omega) _) fun _ => ?_
  refine Moves.bind (spares_setScp _) fun _ => Moves.bind (fun _ here => ⟨here, rfl, rfl, .refl _⟩) fun _ => ?_
  refine Moves.bind (moves_reads _) fun rmds => ?_
  exact Moves.bind (spares_hostCall host (.segmentToDescriptor _)) fun sel => spares_setScp _

theorem spares_ps2MouseCallback (target : Pmaddr) {s : State σ} (clear : Clear P [stackBlock h s]) :
    Spares h p P s (final (ps2MouseCallback h s.clntIs32 target) s) := by
  have push := spares_pushItem (h := h) (p := p) (clear_cons.mp clear).1 s.clntIs32
  rw [ps2MouseCallback, final_reads_bind, final_reads_bind, final_reads_bind]
  refine Moves.onlyIf (fun _ => Moves.bind (Moves.forM fun i listed => ?_) fun _ => ?_) s
  · have range : 1 ≤ i ∧ i ≤ 6 := by
      simp only [List.mem_cons, List.not_mem_nil, or_false] at listed
      omega
    exact Moves.bind (moves_reads _) fun v => push i range.1 range.2 _
  · refine Moves.bind (push _ (by omega) (by omega) _) fun _ => ?_
    refine Moves.bind (push _ (by omega) (by omega) _) fun _ => ?_
    exact Moves.bind (spares_setScp _) fun _ => spares_setScp _

end Callbacks

theorem silent_pushItem (is32 : Bool) (sp : Dword) (depth : Nat) (v : Dword) :
    Moves Silent (pushItem is32 sp depth v : M σ Unit) := fun _ => ⟨rfl, rfl⟩

theorem silent_mouseCallback (is32 : Bool) (target : Pmaddr) :
    Moves Silent (mouseCallback h is32 target) := by
  refine Moves.bind (moves_reads _) fun valid => Moves.bind (moves_reads _) fun sp => ?_
  refine Moves.bind (moves_reads _) fun scp => Moves.onlyIf fun _ => ?_
  refine Moves.bind (silent_pushItem _ _ _ _) fun _ => Moves.bind (silent_pushItem _ _ _ _) fun _ => ?_
  refine Moves.bind (silent_setScp _) fun _ => Moves.bind (fun _ => ⟨rfl, rfl⟩) fun _ => ?_
  refine Moves.bind (moves_reads _) fun rmds => ?_
  exact Moves.bind (silent_hostCall h (.segmentToDescriptor _) nofun nofun) fun sel => silent_setScp _

theorem silent_ps2MouseCallback (is32 : Bool) (target : Pmaddr) :
    Moves Silent (ps2MouseCallback h is32 target) := by
  refine Moves.bind (moves_reads _) fun valid => Moves.bind (moves_reads _) fun sp => ?_
  refine Moves.bind (moves_reads _) fun scp => Moves.onlyIf fun _ => ?_
  refine Moves.bind (Moves.forM fun i _ => ?_) fun _ => ?_
  · exact Moves.bind (moves_reads _) fun v => silent_pushItem _ _ _ _
  · refine Moves.bind (silent_pushItem _ _ _ _) fun _ => Moves.bind (silent_pushItem _ _ _ _) fun _ => ?_
    exact Moves.bind (silent_setScp _) fun _ => silent_setScp _

/-! ## Runs -/

/-- What happens between the start of a mouse routine and its end. -/
inductive Nested where
  | early (intr : Nat)
  | pre (intr : Nat)
  | post (call : Call)
  | mouse (target : Pmaddr)
  | ps2 (target : Pmaddr)
  | world

def InBuffer (seg : Word) (a : Dword) : Prop := (Block.mk (segoff2linear seg 0) 0x10000).Covers a

def Config.WithoutBuffer (c : Config σ) : Prop :=
  ∀ call ∈ c.calls, needXbuf call.intr (loWord call.eax) = false

/-- The routine's own code and the services in real mode: the frame is the translator's, and so is the
transfer buffer while no service has been given it. -/
structure Leaves (c : Config σ) (t : State σ) : Prop where
  frame : t.emsFrameMapped = c.state.emsFrameMapped
  segment : t.emmSeg = c.state.emmSeg
  buffer : c.WithoutBuffer → AgreeOn (InBuffer c.state.emmSeg) c.state.mem t.mem
  io : c.WithoutBuffer → t.io = c.state.io

/-- The routine's interrupts, their way back, routines started meanwhile, and anything else. -/
inductive NestedStep : Config σ → Nested → Config σ → Prop where
  | early (c : Config σ) (intr : Nat) (ends : result (msdosPreExtender h intr) c.state ≠ .rm) :
      NestedStep c (.early intr) { c with state := final (msdosPreExtender h intr) c.state }
  | pre (c : Config σ) (intr : Nat) (goes : result (msdosPreExtender h intr) c.state = .rm) :
      NestedStep c (.pre intr)
        ⟨final (msdosPreExtender h intr) c.state, ⟨intr, c.state.scp.gpr .eax⟩ :: c.calls⟩
  | post (s : State σ) (call : Call) (calls : List Call) (same : s.scp.gpr .eax = call.eax) :
      NestedStep ⟨s, call :: calls⟩ (.post call) ⟨final (msdosPostExtender h call.intr) s, calls⟩
  | mouse (c : Config σ) (target : Pmaddr) :
      NestedStep c (.mouse target)
        { c with state := final (mouseCallback h c.state.clntIs32 target) c.state }
  | ps2 (c : Config σ) (target : Pmaddr) :
      NestedStep c (.ps2 target)
        { c with state := final (ps2MouseCallback h c.state.clntIs32 target) c.state }
  | world (c : Config σ) (t : State σ) (leaves : Leaves c t) : NestedStep c .world { c with state := t }

def Nested.NeedsBuffer (c : Config σ) : Nested → Prop
  | .pre intr => needXbuf intr (c.state.scp.lword .eax) = true
  | _ => False

/-- A step that has nothing to do with the transfer buffer: what it writes is elsewhere. -/
def Nested.Apart (c : Config σ) : Nested → Prop
  | .early intr => Clear (InBuffer c.state.emmSeg) (preTargets h intr c.state)
  | .pre intr => needXbuf intr (c.state.scp.lword .eax) = false ∧
      Clear (InBuffer c.state.emmSeg) (preTargets h intr c.state)
  | .post call => Clear (InBuffer c.state.emmSeg) (postTargets h call.intr c.state)
  | .mouse _ | .ps2 _ => Clear (InBuffer c.state.emmSeg) [stackBlock h c.state]
  | .world => True

/-- What the interrupted call finds again: the frame mapped, the transfer buffer and the I/O buffer. -/
structure Undisturbed (s t : State σ) : Prop where
  frame : t.emsFrameMapped = s.emsFrameMapped
  segment : t.emmSeg = s.emmSeg
  buffer : AgreeOn (InBuffer s.emmSeg) s.mem t.mem
  io : t.io = s.io

instance : IsPreorder (State σ) Undisturbed where
  refl _ := ⟨rfl, rfl, .refl _, rfl⟩
  trans _ _ _ first second :=
    ⟨second.frame.trans first.frame, second.segment.trans first.segment,
      first.buffer.trans (first.segment ▸ second.buffer), second.io.trans first.io⟩

theorem Undisturbed.of {s t : State σ} (silent : Silent s t)
    (spares : Spares h (s.places h) (InBuffer s.emmSeg) s t) : Undisturbed s t := by
  obtain ⟨-, segment, io, buffer⟩ := spares rfl
  exact ⟨silent.1, segment, buffer, io⟩

theorem goes_listed {intr : Nat} {s : State σ} (listed : needXbuf intr (s.scp.lword .eax) = true) :
    result (msdosPreExtender h intr) s = .rm := by
  have sameAx : (final (preEnter h intr) s).scp.lword .eax = s.scp.lword .eax :=
    congrArg loWord (steady_preEnter h intr s).2
  rw [result, msdosPreExtender_run]
  generalize final (preEnter h intr) s = t at sameAx
  rw [← sameAx] at listed
  rw [preMap_listed h listed]
  rw [← prepareEmsFrame_scp h t] at listed
  obtain ⟨altEnt, goes⟩ := preSwitch_goes h listed (final (prepareEmsFrame h) t)
  show result (preSwitch h intr _ true >>= preLeave h intr) _ = .rm
  rw [result_bind, goes]
  rfl

theorem unlisted_of_early {intr : Nat} {s : State σ}
    (ends : result (msdosPreExtender h intr) s ≠ .rm) : needXbuf intr (s.scp.lword .eax) = false :=
  Bool.eq_false_iff.mpr fun listed => ends (goes_listed h listed)

namespace Config

theorem WithoutBuffer.top {s : State σ} {call : Call} {calls : List Call}
    (without : WithoutBuffer ⟨s, call :: calls⟩) (same : s.scp.gpr .eax = call.eax) :
    needXbuf call.intr (s.scp.lword .eax) = false := by
  rw [Sigcontext.lword, same]
  exact without call List.mem_cons_self

theorem WithoutBuffer.below {s t : State σ} {call : Call} {calls : List Call}
    (without : WithoutBuffer ⟨s, call :: calls⟩) : WithoutBuffer ⟨t, calls⟩ :=
  fun other inside => without other (List.mem_cons_of_mem _ inside)

theorem withoutBuffer_push {s t : State σ} {calls : List Call} {intr : Nat} :
    WithoutBuffer ⟨t, ⟨intr, s.scp.gpr .eax⟩ :: calls⟩ ↔
      needXbuf intr (s.scp.lword .eax) = false ∧ WithoutBuffer ⟨s, calls⟩ := List.forall_mem_cons

end Config

/-! ### Steps apart from the buffer -/

variable {h}

theorem undisturbed_step (host : SteadyHost h) {c d : Config σ} {l : Nested}
    (without : c.WithoutBuffer) (step : NestedStep h c l d) (apart : l.Apart h c) :
    Undisturbed c.state d.state ∧ d.WithoutBuffer := by
  cases step with
  | early _ intr ends =>
    have unlisted := unlisted_of_early h ends
    exact ⟨.of h (silent_pre h unlisted) (spares_pre host unlisted apart), without⟩
  | pre _ intr goes =>
    obtain ⟨unlisted, clear⟩ := apart
    refine ⟨.of h (silent_pre h unlisted) (spares_pre host unlisted clear), ?_⟩
    exact Config.withoutBuffer_push.mpr ⟨unlisted, without⟩
  | post s call calls same =>
    have unlisted := without.top same
    exact ⟨.of h (silent_post h unlisted) (spares_post host unlisted apart), without.below⟩
  | mouse _ target =>
    exact ⟨.of h (silent_mouseCallback h _ target _) (spares_mouseCallback host target apart), without⟩
  | ps2 _ target =>
    exact ⟨.of h (silent_ps2MouseCallback h _ target _) (spares_ps2MouseCallback target apart), without⟩
  | world _ t leaves =>
    exact ⟨⟨leaves.frame, leaves.segment, leaves.buffer without, leaves.io without⟩, without⟩

/-! ### Steps that take the buffer -/

/-- The frame is unmapped once no call has the transfer buffer any more. -/
def Config.Spoiled (c : Config σ) : Prop := c.WithoutBuffer → c.state.emsFrameMapped = false

theorem spoiled_step {c d : Config σ} {l : Nested} (step : NestedStep h c l d)
    (before : l.NeedsBuffer c ∨ c.Spoiled) : d.Spoiled := by
  intro without
  cases step with
  | early _ intr ends =>
    exact (silent_pre h (unlisted_of_early h ends)).1.trans (before.resolve_left id without)
  | pre _ intr goes =>
    obtain ⟨unlisted, below⟩ := Config.withoutBuffer_push.mp without
    have spoiled := before.resolve_left (fun needs => by
      rw [Nested.NeedsBuffer, unlisted] at needs
      cases needs)
    exact (silent_pre h unlisted).1.trans (spoiled below)
  | post s call calls same =>
    have spoiled := before.resolve_left id
    cases listed : needXbuf call.intr (s.scp.lword .eax) with
    | true => exact unmapped_post h listed
    | false =>
      have whole : Config.WithoutBuffer ⟨s, call :: calls⟩ := by
        rintro other (_ | ⟨_, inside⟩)
        · rw [← same]
          exact listed
        · exact without other inside
      exact (silent_post h listed).1.trans (spoiled whole)
  | mouse _ target => exact (silent_mouseCallback h _ target _).1.trans (before.resolve_left id without)
  | ps2 _ target => exact (silent_ps2MouseCallback h _ target _).1.trans (before.resolve_left id without)
  | world _ t leaves => exact leaves.frame.trans (before.resolve_left id without)

theorem spoiled_of_run {Start : Config σ → Prop} {past : List (Config σ × Nested)} {c : Config σ}
    (run : Trace Start (NestedStep h) past c) (needs : ∃ p ∈ past, p.2.NeedsBuffer p.1) : c.Spoiled := by
  induction run with
  | start _ =>
    obtain ⟨p, inside, -⟩ := needs
    cases inside
  | step before taken ih =>
    apply spoiled_step taken
    obtain ⟨p, inside, needs⟩ := needs
    rcases List.mem_cons.mp inside with rfl | inside
    · exact .inl needs
    · exact .inr (ih ⟨p, inside, needs⟩)

/-! ### Whole runs -/

/-- The interrupted call finds everything again if the routine's calls have nothing to do with the
transfer buffer, and an unmapped frame if one of them needs it. -/
theorem nested_services (host : SteadyHost h) {s : State σ} (mapped : s.emsFrameMapped = true)
    {past : List (Config σ × Nested)} {c : Config σ}
    (run : Trace (· = Config.start s) (NestedStep h) past c) (complete : c.calls = []) :
    ((∀ p ∈ past, p.2.Apart h p.1) → c.state.emsFrameMapped = true ∧ Undisturbed s c.state) ∧
      ((∃ p ∈ past, p.2.NeedsBuffer p.1) → c.state.emsFrameMapped = false) := by
  constructor
  · intro apart
    have kept : Undisturbed s c.state ∧ c.WithoutBuffer := by
      refine Trace.invariant (I := fun c => Undisturbed s c.state ∧ c.WithoutBuffer) ?_ ?_ run apart
      · rintro _ rfl
        exact ⟨refl s, fun call inside => absurd inside List.not_mem_nil⟩
      · rintro c l d ⟨kept, without⟩ taken apart
        obtain ⟨step, after⟩ := undisturbed_step host without taken apart
        exact ⟨IsTrans.trans _ _ _ kept step, after⟩
    exact ⟨kept.1.frame.trans mapped, kept.1⟩
  · intro needs
    refine spoiled_of_run run needs fun call inside => ?_
    rw [complete] at inside
    cases inside

/-! ### A routine that makes a directory, or asks for the version -/

def interrupted : State Bump := final (msdosPreExtender bumpHost 0x21) (bumpStart.withGpr fun _ => 0x3900)

def mouseRoutine (ax : Dword) : State Bump :=
  (final (mouseCallback bumpHost interrupted.clntIs32 ⟨0, 7⟩) interrupted).withGpr fun _ => ax

theorem mouseRoutine_run (ax : Dword) : Trace (· = Config.start interrupted) (NestedStep bumpHost)
    [(⟨final (mouseCallback bumpHost interrupted.clntIs32 ⟨0, 7⟩) interrupted, []⟩, .world),
      (Config.start interrupted, .mouse ⟨0, 7⟩)] ⟨mouseRoutine ax, []⟩ :=
  .step (.step (.start rfl) (.mouse _ _)) (.world _ _ ⟨rfl, rfl, fun _ => .refl _, fun _ => rfl⟩)

theorem interrupted_mapped : interrupted.emsFrameMapped = true := mapped_pre bumpHost (by decide)

theorem mouseRoutine_keeps : (final (msdosPreExtender bumpHost 0x21) (mouseRoutine 0x3900)).scp.gpr .eax =
    (mouseRoutine 0x3900).scp.gpr .eax := by decide +kernel

theorem nested_services_unmapped : interrupted.emsFrameMapped = true ∧
    ∃ past c, Trace (· = Config.start interrupted) (NestedStep bumpHost) past c ∧ c.calls = [] ∧
      c.state.emsFrameMapped = false := by
  have listed : needXbuf 0x21 ((mouseRoutine 0x3900).scp.lword .eax) = true := by decide
  have goes := goes_listed bumpHost listed
  have run := Trace.step (Trace.step (mouseRoutine_run 0x3900) (.pre _ 0x21 goes))
    (.post _ _ _ mouseRoutine_keeps)
  refine ⟨interrupted_mapped, _, _, run, rfl, ?_⟩
  exact unmapped_post bumpHost (by rw [Sigcontext.lword, mouseRoutine_keeps]; decide)

theorem mouseRoutine_version :
    result (msdosPreExtender bumpHost 0x21) (mouseRoutine 0x3000) = .rm ∧
      (final (msdosPreExtender bumpHost 0x21) (mouseRoutine 0x3000)).scp.gpr .eax =
        (mouseRoutine 0x3000).scp.gpr .eax := by decide +kernel

theorem stackBlock_interrupted : Clear (InBuffer 0xd000) [stackBlock bumpHost interrupted] := by
  have block : stackBlock bumpHost interrupted = ⟨0xffffffe8, 24⟩ := by decide +kernel
  rw [block]
  refine clear_cons.mpr ⟨fun a inside covered => ?_, clear_nil⟩
  simp only [InBuffer, Block.Covers, offset, segoff2linear, zext] at inside covered
  bv_omega

theorem nested_services_version : ∃ past c,
    Trace (· = Config.start interrupted) (NestedStep bumpHost) past c ∧ c.calls = [] ∧
      c.state.emsFrameMapped = true ∧ Undisturbed interrupted c.state := by
  obtain ⟨goes, keeps⟩ := mouseRoutine_version
  have run := Trace.step (Trace.step (mouseRoutine_run 0x3000) (.pre _ 0x21 goes)) (.post _ _ _ keeps)
  refine ⟨_, _, run, rfl, (nested_services steadyHost_bump interrupted_mapped run rfl).1 ?_⟩
  intro p inside
  simp only [List.mem_cons, List.not_mem_nil, or_false] at inside
  rcases inside with rfl | rfl | rfl | rfl
  · have none : postTargets bumpHost 0x21 (final (msdosPreExtender bumpHost 0x21) (mouseRoutine 0x3000)) =
        [] := by decide +kernel
    rw [Nested.Apart, none]
    exact clear_nil
  · have none : preTargets bumpHost 0x21 (mouseRoutine 0x3000) = [] := by decide +kernel
    refine ⟨by decide, ?_⟩
    rw [none]
    exact clear_nil
  · trivial
  · exact stackBlock_interrupted

end Pmdapi
