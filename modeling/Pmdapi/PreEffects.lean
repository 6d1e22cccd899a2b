import Pmdapi.PreExtender

/-! The parts of `msdos_pre_extender` around its switch. They leave the clients and the table of entry
points alone. -/

namespace Pmdapi
open Bytes Effect

variable {σ : Type} (h : DpmiHost σ)

def tables (s : State σ) : (Nat → MsdosStruct) × Nat × MsdosOps := (s.clients, s.clientNum, s.ops)

section Tables

theorem tables_setScp (f : Sigcontext → Sigcontext) : Moves (Keeps tables) (setScp f : M σ Unit) := fun _ => rfl

theorem tables_setMem (f : Memory → Memory) : Moves (Keeps tables) (setMem f : M σ Unit) := fun _ => rfl

theorem tables_setRmregs (f : RealModeCallStructure → RealModeCallStructure) :
    Moves (Keeps tables) (setRmregs f : M σ Unit) := fun _ => rfl

theorem tables_setRmDs (v : Word) : Moves (Keeps tables) (setRmDs v : M σ Unit) := fun _ => rfl

theorem tables_setRmEs (v : Word) : Moves (Keeps tables) (setRmEs v : M σ Unit) := fun _ => rfl

theorem tables_setRmLword (r : Gpr) (v : Word) : Moves (Keeps tables) (setRmLword r v : M σ Unit) := fun _ => rfl

theorem tables_logEvent (e : Event) : Moves (Keeps tables) (logEvent e : M σ Unit) := fun _ => rfl

theorem tables_transBufferSeg : Moves (Keeps tables) (transBufferSeg : M σ Word) := by
  unfold transBufferSeg
  refine Moves.bind (moves_reads _) fun mapped => Moves.bind (tables_logEvent _) fun _ => ?_
  exact Moves.bind (Moves.onlyIf fun _ => tables_logEvent _) fun _ => moves_reads _

theorem tables_copySegment {pass : Word → M σ Unit} (passes : ∀ seg, Moves (Keeps tables) (pass seg))
    (sel : State σ → Word) : Moves (Keeps tables) (do
      pass (← transBufferSeg)
      let sel ← reads sel
      let src ← reads fun s => getSegmentBase h s sel
      let dst ← transBufferSeg
      let limit ← reads fun s => getSegmentLimit h s sel
      memcpy (segoff2linear dst 0) src (segmentLen limit)) := by
  refine Moves.bind tables_transBufferSeg fun seg => Moves.bind (passes seg) fun _ => ?_
  refine Moves.bind (moves_reads _) fun sel => Moves.bind (moves_reads _) fun src => ?_
  refine Moves.bind tables_transBufferSeg fun dst => Moves.bind (moves_reads _) fun limit => ?_
  exact tables_setMem _

theorem tables_copyDsegIn (intr : Nat) : Moves (Keeps tables) (copyDsegIn h intr) :=
  Moves.bind (moves_reads _) fun _ => Moves.onlyIf fun _ => tables_copySegment h tables_setRmDs _

theorem tables_copyEsegIn (intr : Nat) : Moves (Keeps tables) (copyEsegIn h intr) :=
  Moves.bind (moves_reads _) fun _ => Moves.onlyIf fun _ => tables_copySegment h tables_setRmEs _

theorem tables_preReturn (intr : Nat) (altEnt : Bool) :
    Moves (Keeps tables) (preReturn h intr altEnt) := by
  unfold preReturn
  refine Moves.bind (moves_reads _) fun flags => Moves.bind (Moves.onlyIf fun _ => ?_) fun _ => fun _ => rfl
  unfold rmInt rmDoIntTo
  refine Moves.bind (moves_reads _) fun addr => Moves.bind (moves_reads _) fun rmreg => ?_
  exact Moves.bind (m := updates _) (fun _ => rfl) fun _ => tables_setRmregs _

theorem tables_preLeave (intr : Nat) (o : Outcome) : Moves (Keeps tables) (preLeave h intr o) := by
  cases o with
  | ret r => exact moves_pure _
  | go altEnt =>
    refine Moves.bind (Moves.bind (tables_copyDsegIn h intr) fun _ => ?_) fun _ => moves_pure _
    exact Moves.bind (tables_copyEsegIn h intr) fun _ => tables_preReturn h intr altEnt

end Tables

def State.entered (s : State σ) : State σ := { s with rmMask := s.rMask, stkUsed := 0 }

/-- A service that needs neither the transfer buffer nor the DTA goes right to its branch. -/
theorem preExtender_eq {intr : Nat} {s : State σ}
    (unlisted : needXbuf intr (s.scp.lword .eax) = false)
    (noDta : (intr = 0x21 && usesDta (hiByte (s.scp.lword .eax))) = false) :
    final (msdosPreExtender h intr) s =
      final (preSwitch h intr (s.scp.lword .eax) false >>= preLeave h intr) s.entered := by
  have enter : final (preEnter h intr) s = s.entered := by
    rw [preEnter, final_bind, dtaCopyIn, final_bind, final_onlyIf]
    have skipped : (s.client.userDtaSel ≠ 0 && intr = 0x21 &&
        usesDta (hiByte (s.scp.lword .eax))) = false := by
      rw [Bool.and_assoc, noDta, Bool.and_false]
    exact if_neg (Bool.not_eq_true _ ▸ skipped)
  have map : result (preMap h intr) s.entered = false ∧
      final (preMap h intr) s.entered = s.entered := by
    have same : s.entered.scp = s.scp := rfl
    simp [preMap, same, unlisted]
  rw [msdosPreExtender, final_bind, enter, final_bind, map.1, map.2]
  rfl

end Pmdapi
