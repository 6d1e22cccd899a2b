import Pmdapi.BranchEffects

/-! What each function does with the EMS frame: nothing, or only looks at it while it is mapped. -/

namespace Pmdapi
open Bytes Effect

inductive FrameEvent where
  | save | restore | access (mapped : Bool) | error
  deriving DecidableEq, Repr

def DpmiCall.frame : DpmiCall → Option FrameEvent
  | .emmSavePageMap _ => some .save
  | .emmRestorePageMap _ => some .restore
  | _ => none

def Event.frame : Event → Option FrameEvent
  | .dpmi c _ => c.frame
  | .transBufferSeg mapped => some (.access mapped)
  | .error _ => some .error

def frameLog (trace : List Event) : List FrameEvent := trace.filterMap Event.frame

/-- One event that the discipline allows: a save of an unmapped frame, a restore of a mapped one, an
access to a mapped one. -/
def frameNext (mapped : Bool) : FrameEvent → Option Bool
  | .save => if mapped then none else some true
  | .restore => if mapped then some false else none
  | .access flag => if mapped && flag then some true else none
  | .error => none

variable {σ : Type}

def Tracks (s : State σ) : Prop :=
  (frameLog s.trace).foldlM frameNext false = some s.emsFrameMapped

/-! ## Three effects -/

def Silent (s t : State σ) : Prop :=
  t.emsFrameMapped = s.emsFrameMapped ∧ frameLog t.trace = frameLog s.trace

def Steady (s t : State σ) : Prop := Silent s t ∧ t.scp.gpr .eax = s.scp.gpr .eax

def Uses (s t : State σ) : Prop :=
  t.emsFrameMapped = s.emsFrameMapped ∧ (s.emsFrameMapped = true → Tracks s → Tracks t)

instance : IsPreorder (State σ) Silent where
  refl _ := ⟨rfl, rfl⟩
  trans _ _ _ first second := ⟨second.1.trans first.1, second.2.trans first.2⟩

instance : IsPreorder (State σ) Steady where
  refl s := ⟨refl s, rfl⟩
  trans _ _ _ first second := ⟨IsTrans.trans _ _ _ first.1 second.1, second.2.trans first.2⟩

instance : IsPreorder (State σ) Uses where
  refl _ := ⟨rfl, fun _ ok => ok⟩
  trans _ _ _ first second :=
    ⟨second.1.trans first.1, fun mapped ok => second.2 (first.1.trans mapped) (first.2 mapped ok)⟩

theorem Silent.tracks {s t : State σ} (quiet : Silent s t) (ok : Tracks s) : Tracks t := by
  unfold Tracks
  rw [quiet.1, quiet.2]
  exact ok

theorem Silent.uses {s t : State σ} (quiet : Silent s t) : Uses s t :=
  ⟨quiet.1, fun _ => quiet.tracks⟩

theorem Moves.silent {α : Type} {m : M σ α} (steady : Moves Steady m) : Moves Silent m :=
  steady.mono fun _ _ quiet => quiet.1

theorem Moves.uses {α : Type} {m : M σ α} (quiet : Moves Silent m) : Moves Uses m :=
  quiet.mono fun _ _ => Silent.uses

variable (h : DpmiHost σ)

section Steady

theorem steady_hostCall (c : DpmiCall) (save : ∀ handle, c ≠ .emmSavePageMap handle)
    (restore : ∀ handle, c ≠ .emmRestorePageMap handle) :
    @Moves (State σ) (no_index c.Reply) Steady (hostCall h c) := by
  have quiet : c.frame = none := by
    cases c with
    | emmSavePageMap handle => exact absurd rfl (save handle)
    | emmRestorePageMap handle => exact absurd rfl (restore handle)
    | _ => rfl
  intro s
  simp [hostCall, Steady, Silent, frameLog, Event.frame, quiet]

theorem steady_setMem (f : Memory → Memory) : Moves Steady (setMem f : M σ Unit) :=
  fun _ => ⟨⟨rfl, rfl⟩, rfl⟩

theorem steady_setClient (f : MsdosStruct → MsdosStruct) : Moves Steady (setClient f : M σ Unit) :=
  fun _ => ⟨⟨rfl, rfl⟩, rfl⟩

theorem steady_setRmLword (r : Gpr) (v : Word) : Moves Steady (setRmLword r v : M σ Unit) :=
  fun _ => ⟨⟨rfl, rfl⟩, rfl⟩

theorem steady_effect : ServiceEffect h Steady where
  call := steady_hostCall h
  memory := steady_setMem
  client _ _ _ := ⟨⟨rfl, rfl⟩, rfl⟩
  segments _ same s := ⟨⟨rfl, rfl⟩, congrFun (same s.scp) .eax⟩
  rmDs _ _ := ⟨⟨rfl, rfl⟩, rfl⟩
  rmEs _ _ := ⟨⟨rfl, rfl⟩, rfl⟩
  target _ _ _ := ⟨⟨rfl, rfl⟩, rfl⟩
  targetKept _ := ⟨⟨rfl, rfl⟩, rfl⟩
  frame _ _ _ _ := ⟨⟨rfl, rfl⟩, rfl⟩
  io _ _ := ⟨⟨rfl, rfl⟩, rfl⟩
  table _ _ := ⟨⟨rfl, rfl⟩, rfl⟩
  keepOther _ _ _ := ⟨⟨rfl, rfl⟩, rfl⟩

theorem steady_dtaCopyIn (intr : Nat) : Moves Steady (dtaCopyIn h intr) := by
  unfold dtaCopyIn
  exact Moves.bind (moves_reads _) fun s => Moves.onlyIf fun _ => steady_setMem _

include h in
theorem steady_mouseSetHandler (swap : Bool) : Moves Steady (mouseSetHandler swap : M σ Unit) :=
  (steady_effect h).mouseSetHandler (steady_setRmLword _) fun _ f others _ s =>
    ⟨⟨rfl, rfl⟩, others s.scp .eax (by decide)⟩

end Steady

/-! ## Branches that end the call, and the whole way back -/

section Silent

theorem silent_hostCall (c : DpmiCall) (save : ∀ handle, c ≠ .emmSavePageMap handle)
    (restore : ∀ handle, c ≠ .emmRestorePageMap handle) :
    @Moves (State σ) (no_index c.Reply) Silent (hostCall h c) :=
  Moves.silent (steady_hostCall h c save restore)

theorem silent_setScp (f : Sigcontext → Sigcontext) : Moves Silent (setScp f : M σ Unit) :=
  fun _ => ⟨rfl, rfl⟩

theorem silent_effect : ServiceEffect h Silent where
  call := silent_hostCall h
  memory _ _ := ⟨rfl, rfl⟩
  client _ _ _ := ⟨rfl, rfl⟩
  segments _ _ _ := ⟨rfl, rfl⟩
  rmDs _ _ := ⟨rfl, rfl⟩
  rmEs _ _ := ⟨rfl, rfl⟩
  target _ _ _ := ⟨rfl, rfl⟩
  targetKept _ := ⟨rfl, rfl⟩
  frame _ _ _ _ := ⟨rfl, rfl⟩
  io _ _ := ⟨rfl, rfl⟩
  table _ _ := ⟨rfl, rfl⟩
  keepOther _ _ _ := ⟨rfl, rfl⟩

theorem silent_preserveGpr (r : Gpr) : Moves Silent (preserveGpr r : M σ Unit) :=
  fun _ => ⟨rfl, rfl⟩

theorem silent_setReg32 (r : Gpr) (v : Dword) : Moves Silent (setReg32 r v : M σ Unit) :=
  silent_setScp _

theorem silent_ending : EndingEffect h Silent where
  call := silent_hostCall h
  client _ _ _ := ⟨rfl, rfl⟩
  scp := silent_setScp
  table _ _ := ⟨rfl, rfl⟩

theorem silent_postSwitch (intr : Nat) (ax : Word) : Moves Silent (postSwitch h intr ax) :=
  (silent_effect h).postSwitch (fun _ _ => silent_preserveGpr _) fun _ _ _ => silent_setReg32 _ _

theorem silent_postRegs : Moves Silent (postRegs : M σ Unit) := fun _ => ⟨rfl, rfl⟩

end Silent

/-! ## The transfer buffer -/

section Uses

theorem frameLog_append (before after : List Event) :
    frameLog (before ++ after) = frameLog before ++ frameLog after := List.filterMap_append

theorem tracks_log {s t : State σ} {e : Event} {f : FrameEvent} (shown : e.frame = some f)
    (logged : t.trace = s.trace ++ [e]) (allowed : frameNext s.emsFrameMapped f = some t.emsFrameMapped)
    (ok : Tracks s) : Tracks t := by
  unfold Tracks at ok ⊢
  rw [logged, frameLog_append, List.foldlM_append, ok]
  simpa [frameLog, shown] using allowed

theorem uses_transBufferSeg : Moves Uses (transBufferSeg : M σ Word) := by
  intro s
  cases mapped : s.emsFrameMapped with
  | false => simp [Uses, transBufferSeg, logEvent, mapped]
  | true =>
    refine ⟨by simp [transBufferSeg, logEvent, mapped], fun _ => ?_⟩
    apply tracks_log (e := .transBufferSeg true) rfl
    · simp [transBufferSeg, logEvent, mapped]
    · simp [frameNext, transBufferSeg, logEvent, mapped]

theorem uses_setRmLword (r : Gpr) (v : Word) : Moves Uses (setRmLword r v : M σ Unit) :=
  fun _ => Silent.uses ⟨rfl, rfl⟩

theorem uses_effect : ServiceEffect h Uses where
  call c save restore := Moves.uses (silent_hostCall h c save restore)
  memory _ _ := Silent.uses ⟨rfl, rfl⟩
  client _ _ _ := Silent.uses ⟨rfl, rfl⟩
  segments _ _ _ := Silent.uses ⟨rfl, rfl⟩
  rmDs _ _ := Silent.uses ⟨rfl, rfl⟩
  rmEs _ _ := Silent.uses ⟨rfl, rfl⟩
  target _ _ _ := Silent.uses ⟨rfl, rfl⟩
  targetKept _ := Silent.uses ⟨rfl, rfl⟩
  frame _ _ _ _ := Silent.uses ⟨rfl, rfl⟩
  io _ _ := Silent.uses ⟨rfl, rfl⟩
  table _ _ := Silent.uses ⟨rfl, rfl⟩
  keepOther _ _ _ := Silent.uses ⟨rfl, rfl⟩

theorem uses_preSwitch (intr : Nat) (ax : Word) (act : Bool) :
    Going Uses (preSwitch h intr ax act) :=
  (uses_effect h).preSwitch uses_transBufferSeg act (fun _ _ => uses_setRmLword _)
    (fun _ _ => (uses_effect h).dosSetDta (fun _ _ => Silent.uses ⟨rfl, rfl⟩) (uses_setRmLword _)) fun _ _ f _ _ =>
    Moves.uses (silent_setScp f)

end Uses

end Pmdapi
