import Mathlib.Data.List.Chain
import Pmdapi.BumpHost
import Pmdapi.FrameEffects

/-! The EMS frame over whole runs: mapped around a service that needs the transfer buffer, and at no
other time. -/

namespace Pmdapi
open Bytes Effect

variable {σ : Type} (h : DpmiHost σ)

/-! ## The tables against the branches -/

/-- Branches that work on the transfer buffer whatever AL is. -/
def DosFn.buffered : DosFn → Bool
  | .printString | .fcb | .parseFcb | .getCwd | .createPsp | .asciiz | .country | .read | .write
  | .driveParams | .rename | .canonicalize | .extendedOpen => true
  | _ => false

theorem needXbuf_of_dseg {intr : Nat} {ax : Word} (dseg : needCopyDseg intr ax = true) :
    needXbuf intr ax = true := by
  simp [needXbuf, dseg]

theorem needXbuf_of_eseg {intr : Nat} {ax : Word} (eseg : needCopyEseg intr ax = true) :
    needXbuf intr ax = true := by
  simp [needXbuf, eseg]

theorem needXbuf_of_dos {ax : Word} (dos : needXbufDos (hiByte ax) (loByte ax) = true) :
    needXbuf 0x21 ax = true := by
  simp [needXbuf, dos]

theorem needXbufDos_al {ah al : Byte} (network : ah ≠ 0x5f) (country : ah ≠ 0x65)
    (lfn : ah ≠ 0x71) : needXbufDos ah al = needXbufDos ah 0 := by
  simp only [needXbufDos, network, country, lfn, if_false]

theorem needXbufDos_of_buffered {ah al : Byte} (buffered : (dosFn ah).buffered = true) :
    needXbufDos ah al = true := by
  have table : ∀ ah, (dosFn ah).buffered = true →
      ah ≠ 0x5f ∧ ah ≠ 0x65 ∧ ah ≠ 0x71 ∧ needXbufDos ah 0 = true := by decide +kernel
  obtain ⟨network, country, lfn, listed⟩ := table ah buffered
  rw [needXbufDos_al network country lfn, listed]

theorem not_needXbuf_of_ends {ax : Word} (ends : (dosFn (hiByte ax)).ends = true) :
    needXbuf 0x21 ax = false := by
  have table : ∀ ah, (dosFn ah).ends = true →
      ah = 0x25 ∨ ah = 0x35 ∨ ah = 0x48 ∨ ah = 0x49 ∨ ah = 0x4a ∨ ah = 0x0f ∨ ah = 0x10 ∨
      ah = 0x14 ∨ ah = 0x15 ∨ ah = 0x21 ∨ ah = 0x22 ∨ ah = 0x23 ∨ ah = 0x24 ∨ ah = 0x27 ∨
      ah = 0x28 := by decide +kernel
  rcases table _ ends with ah | ah | ah | ah | ah | ah | ah | ah | ah | ah | ah | ah | ah | ah | ah
  all_goals simp [needXbuf, needCopyDseg, needCopyEseg, needXbufDos, ah]

theorem dosLfn_goes {al : Byte} (listed : needXbufDos 0x71 al = true) (s : State σ) :
    result (dosLfn h al) s = .go false := by
  have table : ∀ al, needXbufDos 0x71 al = true →
      al = 0x3b ∨ al = 0x41 ∨ al = 0x43 ∨ al = 0x4e ∨ al = 0x4f ∨ al = 0x47 ∨ al = 0x60 ∨
      al = 0x6c ∨ al = 0xa0 ∨ al = 0xa6 := by decide +kernel
  rcases table al listed with rfl | rfl | rfl | rfl | rfl | rfl | rfl | rfl | rfl | rfl
  all_goals rfl

theorem dosLfn_unlisted {al : Byte} (unlisted : needXbufDos 0x71 al = false) :
    dosLfn h al = if al = 0xa1 then pure (.go false) else (do
      setCF
      setScp fun scp => { scp with gpr := setGpr scp.gpr .eax (scp.gpr .eax &&& 0xffffff00) }
      pure (.ret .done)) := by
  simp [needXbufDos] at unlisted
  unfold dosLfn
  simp [unlisted]

theorem preDos_goes {f : DosFn} {al : Byte} (goes : f.ends = false)
    (supported : f = .lfn → needXbufDos 0x71 al = true) (s : State σ) :
    ∃ altEnt, result (preDos h f al) s = .go altEnt := by
  cases f with
  | lfn => exact ⟨false, dosLfn_goes h (supported rfl) s⟩
  | plain => exact ⟨_, rfl⟩
  | setVector | getVector | allocate | free | resize | unsupportedFcb => cases goes
  | _ => exact ⟨_, rfl⟩

/-- A branch that has nothing to do with the frame, and that leaves EAX alone if it goes on to real mode. -/
def Unmapped (m : M σ Outcome) : Prop :=
  ∀ s, Silent s (final m s) ∧
    ∀ altEnt, result m s = .go altEnt → (final m s).scp.gpr .eax = s.scp.gpr .eax

theorem Unmapped.done {m : M σ Unit} (quiet : Moves Silent m) : Unmapped (done m) :=
  fun s => ⟨Moves.done quiet s, fun _ goes => by cases goes⟩

theorem Unmapped.goOn {m : M σ Unit} {altEnt : Bool} (steady : Moves Steady m) :
    Unmapped (goOn m altEnt) :=
  fun s => ⟨(steady s).1, fun _ _ => (steady s).2⟩

theorem Unmapped.pure (o : Outcome) : Unmapped (pure o : M σ Outcome) :=
  fun s => ⟨refl s, fun _ _ => rfl⟩

theorem dosFn_redirection : ∀ {ah}, dosFn ah = .redirection → ah = 0x5f := by decide +kernel

theorem dosFn_international : ∀ {ah}, dosFn ah = .international → ah = 0x65 := by decide +kernel

theorem dosFn_lfn : ∀ {ah}, dosFn ah = .lfn → ah = 0x71 := by decide +kernel

theorem unmapped_preDos {ah al : Byte} (unlisted : needXbufDos ah al = false) :
    Unmapped (preDos h (dosFn ah) al) := by
  have plain : (dosFn ah).buffered = false := by
    by_contra buffered
    rw [needXbufDos_of_buffered (by simpa using buffered)] at unlisted
    cases unlisted
  have steady := steady_effect h
  cases fn : dosFn ah with
  | setVector => exact Unmapped.done (silent_ending h).dosSetVector
  | getVector => exact Unmapped.done (silent_ending h).dosGetVector
  | allocate => exact Unmapped.done (silent_ending h).dosAllocate
  | free => exact Unmapped.done (silent_ending h).dosFree
  | resize => exact Unmapped.done (silent_ending h).dosResize
  | unsupportedFcb => exact Unmapped.done (silent_setScp _)
  | plain => exact Unmapped.pure _
  | terminate =>
    refine Unmapped.goOn (Moves.bind steady.oldDosTerminate fun _ => ?_)
    exact Moves.bind steady.targetKept fun _ => steady_setRmLword _ _
  | setDta => exact Unmapped.goOn (steady.dosSetDta steady_setClient (steady_setRmLword _))
  | exec => exact Unmapped.goOn (steady.dosExec (steady_setRmLword _) (steady_setRmLword _))
  | setPsp => exact Unmapped.goOn (steady.dosSetPsp (steady_setRmLword _))
  | createSetPsp => exact Unmapped.goOn (steady.dosCreateSetPsp (steady_setRmLword _))
  | redirection =>
    rw [dosFn_redirection fn] at unlisted
    have skipped : (2 ≤ al && al ≤ 6) = false := by simpa [needXbufDos] using unlisted
    exact Unmapped.goOn (Moves.onlyIf fun taken => by rw [skipped] at taken; cases taken)
  | international =>
    rw [dosFn_international fn] at unlisted
    refine Unmapped.goOn (Moves.bind (moves_reads _) fun cx => ?_)
    simp [needXbufDos] at unlisted
    have high : 7#8 < al := unlisted.1.1.1.1 (by bv_omega)
    have nonzero : al ≠ 0#8 := by bv_omega
    simp [nonzero, BitVec.not_le.mpr high, unlisted]
  | lfn =>
    rw [dosFn_lfn fn] at unlisted
    rw [preDos, dosLfn_unlisted h unlisted]
    split
    · exact Unmapped.pure _
    · exact fun s => ⟨⟨rfl, rfl⟩, fun _ goes => by cases goes⟩
  | _ => simp [fn, DosFn.buffered] at plain

theorem unmapped_preMultiplex (ax : Word) (act : Bool) : Unmapped (preMultiplex h ax act) := by
  unfold preMultiplex
  split
  · exact Unmapped.done fun _ => ⟨rfl, rfl⟩
  · split
    · exact Unmapped.done (silent_ending h).getExtApi
    · repeat' split
      all_goals exact Unmapped.pure _

theorem unmapped_preMouse {ax : Word} (unlisted : ax ≠ 0x09) : Unmapped (preMouse h ax) := by
  unfold preMouse
  rw [if_neg unlisted]
  split
  · exact Unmapped.goOn (steady_mouseSetHandler h false)
  · split
    · exact Unmapped.goOn (steady_mouseSetHandler h true)
    · exact Unmapped.pure _

theorem unmapped_preSwitch (intr : Nat) {ax : Word} (act : Bool)
    (unlisted : needXbuf intr ax = false) : Unmapped (preSwitch h intr ax act) := by
  unfold preSwitch
  split_ifs with int41 int15 int20 int21 int2f int33 listed
  · exact Unmapped.pure _
  · refine Unmapped.goOn (Moves.onlyIf fun _ => ?_)
    exact (steady_effect h).ps2SetHandler (steady_setRmLword _)
  · refine Unmapped.goOn (Moves.bind (steady_effect h).oldDosTerminate fun _ => ?_)
    exact (steady_effect h).targetKept
  · refine unmapped_preDos h ?_
    by_contra listed
    rw [int21, needXbuf_of_dos (by simpa using listed)] at unlisted
    cases unlisted
  · exact unmapped_preMultiplex h ax act
  · refine unmapped_preMouse h fun listed => ?_
    simp [needXbuf, int33, listed] at unlisted
  · exact Unmapped.pure _
  · exact Unmapped.pure _

theorem preSwitch_goes {intr : Nat} {ax : Word} (listed : needXbuf intr ax = true) (s : State σ) :
    ∃ altEnt, result (preSwitch h intr ax true) s = .go altEnt := by
  unfold preSwitch
  split_ifs with int41 int15 int20 int21 int2f int33
  · simp [needXbuf, needCopyDseg, needCopyEseg, int41] at listed
  · simp [needXbuf, needCopyDseg, needCopyEseg, int15] at listed
  · simp [needXbuf, needCopyDseg, needCopyEseg, int20] at listed
  · subst int21
    refine preDos_goes h ?_ (fun fn => ?_) s
    · by_contra ends
      rw [not_needXbuf_of_ends (by simpa using ends)] at listed
      cases listed
    · have function := dosFn_lfn fn
      simpa [needXbuf, needCopyDseg, needCopyEseg, function] using listed
  · simp [needXbuf, needCopyDseg, needCopyEseg, int2f] at listed
  · unfold preMouse
    split_ifs
    all_goals exact ⟨false, rfl⟩
  · exact ⟨false, rfl⟩
  · contradiction

/-! ## One call -/

theorem tracks_prepare {s : State σ} (ok : Tracks s) (unmapped : s.emsFrameMapped = false) :
    Tracks (final (prepareEmsFrame h) s) ∧ (final (prepareEmsFrame h) s).emsFrameMapped = true := by
  have before : (frameLog s.trace).foldlM frameNext false = some false :=
    Eq.trans ok (congrArg some unmapped)
  simp [Tracks, prepareEmsFrame, unmapped, hostCall, frameLog_append, before]
  rfl

theorem tracks_restore {s : State σ} (ok : Tracks s) (mapped : s.emsFrameMapped = true) :
    Tracks (final (restoreEmsFrame h) s) ∧
      (final (restoreEmsFrame h) s).emsFrameMapped = false := by
  have before : (frameLog s.trace).foldlM frameNext false = some true :=
    Eq.trans ok (congrArg some mapped)
  simp [Tracks, restoreEmsFrame, mapped, hostCall, frameLog_append, before]
  rfl

theorem steady_preReturn (intr : Nat) (altEnt : Bool) : Moves Steady (preReturn h intr altEnt) := by
  unfold preReturn
  refine Moves.bind (moves_reads _) fun flags => Moves.bind (Moves.onlyIf fun _ => ?_) fun _ => ?_
  · exact (steady_effect h).rmInt _ _
  · exact fun _ => ⟨⟨rfl, rfl⟩, rfl⟩

theorem uses_preFinish (intr : Nat) (altEnt : Bool) : Moves Uses (preFinish h intr altEnt) := by
  have eff := uses_effect h
  unfold preFinish
  refine Moves.bind (eff.copyDsegIn uses_transBufferSeg intr) fun _ => ?_
  refine Moves.bind (eff.copyEsegIn uses_transBufferSeg intr) fun _ => ?_
  exact Moves.uses (Moves.silent (steady_preReturn h intr altEnt))

theorem not_needCopyDseg {intr : Nat} {ax : Word} (unlisted : needXbuf intr ax = false) :
    needCopyDseg intr ax = false :=
  Bool.eq_false_iff.mpr fun copied => by simp [needXbuf_of_dseg copied] at unlisted

theorem not_needCopyEseg {intr : Nat} {ax : Word} (unlisted : needXbuf intr ax = false) :
    needCopyEseg intr ax = false :=
  Bool.eq_false_iff.mpr fun copied => by simp [needXbuf_of_eseg copied] at unlisted

theorem copyDsegIn_skipped {intr : Nat} {s : State σ}
    (skipped : needCopyDseg intr (s.scp.lword .eax) = false) : final (copyDsegIn h intr) s = s := by
  rw [copyDsegIn, final_bind, result_reads, skipped]
  rfl

theorem copyEsegIn_skipped {intr : Nat} {s : State σ}
    (skipped : needCopyEseg intr (s.scp.lword .eax) = false) : final (copyEsegIn h intr) s = s := by
  rw [copyEsegIn, final_bind, result_reads, skipped]
  rfl

theorem copyDsegIn_unlisted {intr : Nat} {s : State σ}
    (unlisted : needXbuf intr (s.scp.lword .eax) = false) : final (copyDsegIn h intr) s = s :=
  copyDsegIn_skipped h (not_needCopyDseg unlisted)

theorem copyEsegIn_unlisted {intr : Nat} {s : State σ}
    (unlisted : needXbuf intr (s.scp.lword .eax) = false) : final (copyEsegIn h intr) s = s :=
  copyEsegIn_skipped h (not_needCopyEseg unlisted)

theorem silent_preFinish {intr : Nat} {s : State σ} (altEnt : Bool)
    (unlisted : needXbuf intr (s.scp.lword .eax) = false) :
    Silent s (final (preFinish h intr altEnt) s) := by
  rw [preFinish, final_bind, final_bind, copyDsegIn_unlisted h unlisted,
    copyEsegIn_unlisted h unlisted]
  exact (steady_preReturn h intr altEnt s).1

theorem steady_preEnter (intr : Nat) : Moves Steady (preEnter h intr) :=
  Moves.bind (fun _ => ⟨⟨rfl, rfl⟩, rfl⟩) fun _ => steady_dtaCopyIn h intr

def AtReturn (intr : Nat) (ax : Word) (r : MsdosRet) (t : State σ) : Prop :=
  Tracks t ∧ t.emsFrameMapped = (r = .rm && needXbuf intr ax)

theorem atReturn_unlisted {intr : Nat} {s : State σ} (ok : Tracks s)
    (unmapped : s.emsFrameMapped = false) (unlisted : needXbuf intr (s.scp.lword .eax) = false) :
    AtReturn intr (s.scp.lword .eax)
      (result (preSwitch h intr (s.scp.lword .eax) false >>= preLeave h intr) s)
      (final (preSwitch h intr (s.scp.lword .eax) false >>= preLeave h intr) s) := by
  obtain ⟨quiet, keeps⟩ := unmapped_preSwitch h intr false unlisted s
  rw [result_bind, final_bind]
  cases outcome : result (preSwitch h intr (s.scp.lword .eax) false) s with
  | ret r =>
    refine ⟨quiet.tracks ok, ?_⟩
    rw [unlisted, Bool.and_false]
    exact quiet.1.trans unmapped
  | go altEnt =>
    have finish : Silent _ (final (preFinish h intr altEnt) _) :=
      silent_preFinish h altEnt (by rw [Sigcontext.lword, keeps altEnt outcome]; exact unlisted)
    have whole := IsTrans.trans _ _ _ quiet finish
    refine ⟨whole.tracks ok, ?_⟩
    rw [unlisted, Bool.and_false]
    exact whole.1.trans unmapped

theorem atReturn_listed {intr : Nat} {s : State σ} (ok : Tracks s)
    (mapped : s.emsFrameMapped = true) (listed : needXbuf intr (s.scp.lword .eax) = true) :
    AtReturn intr (s.scp.lword .eax)
      (result (preSwitch h intr (s.scp.lword .eax) true >>= preLeave h intr) s)
      (final (preSwitch h intr (s.scp.lword .eax) true >>= preLeave h intr) s) := by
  obtain ⟨altEnt, goes⟩ := preSwitch_goes h listed s
  have whole := IsTrans.trans _ _ _ (uses_preSwitch h intr (s.scp.lword .eax) true s altEnt goes)
    (uses_preFinish h intr altEnt _)
  rw [result_bind, final_bind, goes]
  refine ⟨whole.2 mapped ok, ?_⟩
  rw [listed, Bool.and_true]
  exact whole.1.trans mapped

theorem msdosPreExtender_run (intr : Nat) (s : State σ) :
    msdosPreExtender h intr s =
      (let mapped := preMap h intr (final (preEnter h intr) s)
       (preSwitch h intr (mapped.2.scp.lword .eax) mapped.1 >>= preLeave h intr) mapped.2) := rfl

theorem preMap_unlisted {intr : Nat} {s : State σ}
    (unlisted : needXbuf intr (s.scp.lword .eax) = false) : preMap h intr s = (false, s) := by
  rw [run_eq (preMap h intr)]
  simp [preMap, unlisted]

theorem preMap_listed {intr : Nat} {s : State σ}
    (listed : needXbuf intr (s.scp.lword .eax) = true) :
    preMap h intr s = (true, final (prepareEmsFrame h) s) := by
  rw [run_eq (preMap h intr)]
  simp [preMap, listed]

theorem prepareEmsFrame_scp (s : State σ) : (final (prepareEmsFrame h) s).scp = s.scp := by
  cases mapped : s.emsFrameMapped <;> simp [prepareEmsFrame, mapped, hostCall, logEvent]

/-- After a call that goes on to real mode the frame is mapped just if the service needs it, after any
other it is not. -/
theorem atReturn_pre {s : State σ} (ok : Tracks s) (unmapped : s.emsFrameMapped = false)
    (intr : Nat) :
    AtReturn intr (s.scp.lword .eax) (result (msdosPreExtender h intr) s)
      (final (msdosPreExtender h intr) s) := by
  have enter := steady_preEnter h intr s
  have run := msdosPreExtender_run h intr s
  generalize final (preEnter h intr) s = t at enter run
  have sameAx : t.scp.lword .eax = s.scp.lword .eax := congrArg loWord enter.2
  rw [← sameAx, result, final, run]
  cases listed : needXbuf intr (t.scp.lword .eax) with
  | false =>
    rw [preMap_unlisted h listed]
    exact atReturn_unlisted h (enter.1.tracks ok) (enter.1.1.trans unmapped) listed
  | true =>
    obtain ⟨tracks, mapped⟩ := tracks_prepare h (enter.1.tracks ok) (enter.1.1.trans unmapped)
    rw [preMap_listed h listed]
    rw [← prepareEmsFrame_scp h t] at listed ⊢
    exact atReturn_listed h tracks mapped listed

theorem silent_dtaCopyOut (intr : Nat) (ax : Word) : Moves Silent (dtaCopyOut h intr ax) :=
  Moves.bind (moves_reads _) fun _ => Moves.onlyIf fun _ => (silent_effect h).memory _

theorem uses_postCopies (intr : Nat) (ax : Word) : Moves Uses (postCopies h intr ax) :=
  fun s => IsTrans.trans s _ _ (Silent.uses ⟨rfl, rfl⟩)
    ((uses_effect h).postCopies intr ax uses_transBufferSeg s)

theorem silent_postCopies {intr : Nat} {ax : Word} (unlisted : needXbuf intr ax = false) :
    Moves Silent (postCopies h intr ax) := by
  refine Moves.bind (fun _ => ⟨rfl, rfl⟩) fun _ => ?_
  refine Moves.bind (silent_dtaCopyOut h intr ax) fun _ => ?_
  rw [copyDsegOut, copyEsegOut, not_needCopyDseg unlisted, not_needCopyEseg unlisted]
  exact Moves.bind (moves_pure _) fun _ => moves_pure _

theorem uses_postService (intr : Nat) (ax : Word) :
    Moves Uses (postCopies h intr ax >>= fun _ => postSwitch h intr ax) :=
  Moves.bind (uses_postCopies h intr ax) fun _ => Moves.uses (silent_postSwitch h intr ax)

theorem silent_postService {intr : Nat} {ax : Word} (unlisted : needXbuf intr ax = false) :
    Moves Silent (postCopies h intr ax >>= fun _ => postSwitch h intr ax) :=
  Moves.bind (silent_postCopies h unlisted) fun _ => silent_postSwitch h intr ax

theorem tracks_post {s : State σ} {intr : Nat} (ok : Tracks s)
    (frame : s.emsFrameMapped = needXbuf intr (s.scp.lword .eax)) :
    Tracks (final (msdosPostExtender h intr) s) ∧
      (final (msdosPostExtender h intr) s).emsFrameMapped = false := by
  generalize named : s.scp.lword .eax = ax at frame
  generalize served : final (postCopies h intr ax >>= fun _ => postSwitch h intr ax) s = t
  have whole : final (msdosPostExtender h intr) s =
      final postRegs (final (onlyIf (needXbuf intr ax) (restoreEmsFrame h)) t) := by
    rw [← served, ← named]
    rfl
  have last (u : State σ) := silent_postRegs u
  rw [whole]
  cases listed : needXbuf intr ax with
  | false =>
    have quiet : Silent s t := served ▸ silent_postService h listed s
    exact ⟨(last t).tracks (quiet.tracks ok), (last t).1.trans (quiet.1.trans (frame.trans listed))⟩
  | true =>
    have uses : Uses s t := served ▸ uses_postService h intr ax s
    have mapped := frame.trans listed
    obtain ⟨tracks, unmapped⟩ := tracks_restore h (uses.2 mapped ok) (uses.1.trans mapped)
    exact ⟨(last _).tracks tracks, (last _).1.trans unmapped⟩

/-! ## Runs -/

/-- A call that went on to real mode and has not come back. -/
structure Call where
  intr : Nat
  eax : Dword

def Call.exec (c : Call) : Bool := c.intr = 0x21 && hiByte (loWord c.eax) = 0x4b

/-- The translator with the calls that are still in real mode, the last one first. -/
structure Config (σ : Type) where
  state : State σ
  calls : List Call

/-- Interrupts come from a client: outside of every call, or from the program an EXEC runs. -/
def Config.Free (c : Config σ) : Prop := ∀ call ∈ c.calls.head?, call.exec = true

inductive FrameStep : Config σ → Config σ → Prop where
  | early (c : Config σ) (intr : Nat) (free : c.Free)
      (ends : result (msdosPreExtender h intr) c.state ≠ .rm) :
      FrameStep c { c with state := final (msdosPreExtender h intr) c.state }
  | pre (c : Config σ) (intr : Nat) (free : c.Free)
      (goes : result (msdosPreExtender h intr) c.state = .rm) :
      FrameStep c
        ⟨final (msdosPreExtender h intr) c.state, ⟨intr, c.state.scp.gpr .eax⟩ :: c.calls⟩
  | post (s : State σ) (call : Call) (calls : List Call) (same : s.scp.gpr .eax = call.eax) :
      FrameStep ⟨s, call :: calls⟩ ⟨final (msdosPostExtender h call.intr) s, calls⟩
  | world (c : Config σ) (t : State σ) (frame : t.emsFrameMapped = c.state.emsFrameMapped)
      (trace : t.trace = c.state.trace) : FrameStep c { c with state := t }

structure FrameInvariant (c : Config σ) : Prop where
  tracks : Tracks c.state
  frame : c.state.emsFrameMapped =
    c.calls.head?.any fun call => needXbuf call.intr (loWord call.eax)
  nested : ∀ call ∈ c.calls.tail, call.exec = true

theorem not_needXbuf_of_exec {call : Call} (exec : call.exec = true) :
    needXbuf call.intr (loWord call.eax) = false := by
  simp only [Call.exec, Bool.and_eq_true, decide_eq_true_eq] at exec
  simp [needXbuf, needCopyDseg, needCopyEseg, needXbufDos, exec]

namespace FrameInvariant

/-- Whenever a client may interrupt, the frame is unmapped. -/
theorem unmapped {c : Config σ} (inv : FrameInvariant c) (free : c.Free) :
    c.state.emsFrameMapped = false := by
  rw [inv.frame]
  cases top : c.calls.head? with
  | none => rfl
  | some call => exact not_needXbuf_of_exec (free call top)

theorem early {c : Config σ} {intr : Nat} (inv : FrameInvariant c) (free : c.Free)
    (ends : result (msdosPreExtender h intr) c.state ≠ .rm) :
    FrameInvariant { c with state := final (msdosPreExtender h intr) c.state } := by
  obtain ⟨tracks, frame⟩ := atReturn_pre h inv.tracks (inv.unmapped free) intr
  simp only [ends, decide_false, Bool.false_and] at frame
  exact ⟨tracks, by rw [frame, ← inv.unmapped free, inv.frame], inv.nested⟩

theorem pre {c : Config σ} {intr : Nat} (inv : FrameInvariant c) (free : c.Free)
    (goes : result (msdosPreExtender h intr) c.state = .rm) :
    FrameInvariant
      ⟨final (msdosPreExtender h intr) c.state, ⟨intr, c.state.scp.gpr .eax⟩ :: c.calls⟩ := by
  obtain ⟨tracks, frame⟩ := atReturn_pre h inv.tracks (inv.unmapped free) intr
  simp only [goes, decide_true, Bool.true_and] at frame
  refine ⟨tracks, frame, fun call pending => ?_⟩
  cases calls : c.calls with
  | nil => simp [calls] at pending
  | cons top rest =>
    rcases List.mem_cons.mp (calls ▸ pending) with same | below
    · exact same ▸ free top (by simp [calls])
    · exact inv.nested call (by simpa [calls] using below)

theorem post {s : State σ} {call : Call} {calls : List Call}
    (inv : FrameInvariant ⟨s, call :: calls⟩) (same : s.scp.gpr .eax = call.eax) :
    FrameInvariant ⟨final (msdosPostExtender h call.intr) s, calls⟩ := by
  have frame : s.emsFrameMapped = needXbuf call.intr (s.scp.lword .eax) := by
    rw [Sigcontext.lword, same]
    exact inv.frame
  obtain ⟨tracks, unmapped⟩ := tracks_post h inv.tracks frame
  refine ⟨tracks, ?_, fun other below => inv.nested other (List.mem_of_mem_tail below)⟩
  cases calls with
  | nil => exact unmapped
  | cons top rest =>
    exact unmapped.trans (not_needXbuf_of_exec (inv.nested top List.mem_cons_self)).symm

theorem world {c : Config σ} {t : State σ} (inv : FrameInvariant c)
    (frame : t.emsFrameMapped = c.state.emsFrameMapped) (trace : t.trace = c.state.trace) :
    FrameInvariant { c with state := t } := by
  refine ⟨?_, frame.trans inv.frame, inv.nested⟩
  rw [Tracks, trace, frame]
  exact inv.tracks

theorem step {c d : Config σ} (inv : FrameInvariant c) (moves : FrameStep h c d) :
    FrameInvariant d := by
  cases moves with
  | early _ intr free ends => exact inv.early h free ends
  | pre _ intr free goes => exact inv.pre h free goes
  | post s call calls same => exact inv.post h same
  | world _ t frame trace => exact inv.world frame trace

end FrameInvariant

def Config.start (s : State σ) : Config σ := ⟨s, []⟩

theorem frameInvariant_of_run {s : State σ} {c : Config σ} (unmapped : s.emsFrameMapped = false)
    (fresh : s.trace = []) (run : Relation.ReflTransGen (FrameStep h) (.start s) c) :
    FrameInvariant c := by
  refine invariant_of_run (fun _ _ inv => FrameInvariant.step h inv) ⟨?_, unmapped, ?_⟩ run
  all_goals simp [Tracks, Config.start, fresh, unmapped, frameLog]

/-! ## The discipline -/

/-- Saves and restores of the frame, a save as `true`. -/
def switches (trace : List Event) : List Bool :=
  trace.filterMap fun
    | .dpmi (.emmSavePageMap _) _ => some true
    | .dpmi (.emmRestorePageMap _) _ => some false
    | _ => none

def FrameEvent.switch : FrameEvent → Option Bool
  | .save => some true
  | .restore => some false
  | _ => none

/-- What may be seen of the frame from `c` on, and in the trace so far. -/
structure FrameDisciplined (c : Config σ) : Prop where
  before : c.Free → c.state.emsFrameMapped = false
  early : ∀ intr, c.Free → result (msdosPreExtender h intr) c.state ≠ .rm →
    (final (msdosPreExtender h intr) c.state).emsFrameMapped = false
  after : ∀ call ∈ c.calls.head?, c.state.scp.gpr .eax = call.eax →
    (final (msdosPostExtender h call.intr) c.state).emsFrameMapped = false
  accesses : ∀ mapped, Event.transBufferSeg mapped ∈ c.state.trace → mapped = true
  alternate : (false :: switches c.state.trace).IsChain (· ≠ ·)
  errors : ∀ text, Event.error text ∉ c.state.trace

structure Allowed (mapped : Bool) (log : List FrameEvent) : Prop where
  accesses : ∀ flag, FrameEvent.access flag ∈ log → flag = true
  alternate : (mapped :: log.filterMap FrameEvent.switch).IsChain (· ≠ ·)
  errors : FrameEvent.error ∉ log

theorem allowed_of_foldlM {log : List FrameEvent} {mapped last : Bool}
    (accepts : log.foldlM frameNext mapped = some last) : Allowed mapped log := by
  induction log generalizing mapped with
  | nil => exact ⟨by simp, by simp, by simp⟩
  | cons e log ih =>
    obtain ⟨next, one, rest⟩ := Option.bind_eq_some_iff.mp accepts
    obtain ⟨accesses, alternate, errors⟩ := ih rest
    cases e with
    | save =>
      obtain ⟨rfl, rfl⟩ : mapped = false ∧ true = next := by simpa [frameNext] using one
      exact ⟨by simpa using accesses, by simpa [FrameEvent.switch] using alternate,
        by simpa using errors⟩
    | restore =>
      obtain ⟨rfl, rfl⟩ : mapped = true ∧ false = next := by simpa [frameNext] using one
      exact ⟨by simpa using accesses, by simpa [FrameEvent.switch] using alternate,
        by simpa using errors⟩
    | access flag =>
      obtain ⟨⟨rfl, rfl⟩, rfl⟩ : (mapped = true ∧ flag = true) ∧ true = next := by
        simpa [frameNext] using one
      exact ⟨by simpa using accesses, alternate, by simpa using errors⟩
    | error => cases one

theorem switches_eq (trace : List Event) :
    switches trace = (frameLog trace).filterMap FrameEvent.switch := by
  rw [switches, frameLog, List.filterMap_filterMap]
  congr 1
  funext e
  cases e with
  | dpmi c r => cases c <;> rfl
  | transBufferSeg mapped => rfl
  | error text => rfl

/-- Along every run the frame is mapped around the services that need it, and only there. -/
theorem frame_discipline {s : State σ} {c : Config σ} (unmapped : s.emsFrameMapped = false)
    (fresh : s.trace = []) (run : Relation.ReflTransGen (FrameStep h) (.start s) c) :
    FrameDisciplined h c := by
  have inv := frameInvariant_of_run h unmapped fresh run
  have allowed := allowed_of_foldlM inv.tracks
  exact {
    before := inv.unmapped
    early := fun intr free ends => by
      have after := inv.early h free ends
      exact after.unmapped free
    after := fun call top same => by
      obtain ⟨state, calls⟩ := c
      cases calls with
      | nil => cases top
      | cons _ rest =>
        cases top
        exact (inv.post h same).unmapped fun other top =>
          inv.nested other (List.mem_of_mem_head? top)
    accesses := fun mapped seen =>
      allowed.accesses mapped (List.mem_filterMap.mpr ⟨_, seen, rfl⟩)
    alternate := by
      rw [switches_eq]
      exact allowed.alternate
    errors := fun text seen => allowed.errors (List.mem_filterMap.mpr ⟨_, seen, rfl⟩) }

def mkdirClient : State Bump := bumpStart.withGpr fun | .eax => 0x3900 | _ => 0

theorem frame_discipline_mkdir :
    FrameDisciplined bumpHost (.start
      (final (msdosPostExtender bumpHost 0x21) (final (msdosPreExtender bumpHost 0x21) mkdirClient))) := by
  refine frame_discipline bumpHost (s := mkdirClient) rfl rfl ?_
  refine .tail (.single (.pre _ 0x21 (by simp [Config.Free, Config.start]) (by decide))) ?_
  exact .post _ ⟨0x21, 0x3900⟩ [] (by decide)

end Pmdapi
