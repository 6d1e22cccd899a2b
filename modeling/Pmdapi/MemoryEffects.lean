import Pmdapi.FrameDiscipline
import Pmdapi.Library.Blocks
import Pmdapi.PreEffects

/-! Which bytes of memory a call may change that does without the transfer buffer. -/

namespace Pmdapi
open Bytes Effect

def DpmiCall.onDescriptors : DpmiCall → Bool
  | .allocateLdtDescriptors _ | .freeLdtDescriptor _ | .segmentToDescriptor _
  | .createAliasDescriptor _ | .setSegmentBaseAddress _ _ | .setSegmentLimit _ _
  | .setDescriptorAccessRights _ _ => true
  | _ => false

variable {σ : Type} (h : DpmiHost σ)

/-- A host whose calls leave DOS's current process alone, and whose other calls leave the descriptors
alone. -/
structure SteadyHost : Prop where
  psp : ∀ c b, h.getPsp (h.perform c b).2 = h.getPsp b
  base : ∀ c, c.onDescriptors = false → ∀ b sel,
    h.getSegmentBaseAddress (h.perform c b).2 sel = h.getSegmentBaseAddress b sel
  limit : ∀ c, c.onDescriptors = false → ∀ b sel,
    h.getSegmentLimit (h.perform c b).2 sel = h.getSegmentLimit b sel

theorem steadyHost_bump : SteadyHost bumpHost where
  psp _ _ := rfl
  base c other b sel := by
    cases c <;> first | rfl | cases other
  limit _ _ _ _ := rfl

/-! ## Code that spares some bytes -/

structure Places where
  psp : Word
  lowmem : Word

def State.places (s : State σ) : Places := ⟨dosGetPsp h s, s.client.lowmemSeg⟩

/-- Code that changes none of the bytes in `P`, nor the I/O buffer, and leaves the places as they are. -/
def Spares (p : Places) (P : Dword → Prop) (s t : State σ) : Prop :=
  s.places h = p → t.places h = p ∧ t.emmSeg = s.emmSeg ∧ t.io = s.io ∧ AgreeOn P s.mem t.mem

variable {p : Places} {P : Dword → Prop}

instance : IsPreorder (State σ) (Spares h p P) where
  refl _ here := ⟨here, rfl, rfl, .refl _⟩
  trans _ _ _ first second here := by
    obtain ⟨there, seg, io, agree⟩ := first here
    obtain ⟨after, seg', io', agree'⟩ := second there
    exact ⟨after, seg'.trans seg, io'.trans io, agree.trans agree'⟩

variable {h}

theorem spares_setScp (f : Sigcontext → Sigcontext) : Moves (Spares h p P) (setScp f : M σ Unit) :=
  fun _ here => ⟨here, rfl, rfl, .refl _⟩

theorem spares_setRmLword (r : Gpr) (v : Word) : Moves (Spares h p P) (setRmLword r v : M σ Unit) :=
  fun _ here => ⟨here, rfl, rfl, .refl _⟩

theorem spares_setClient (f : MsdosStruct → MsdosStruct) (keeps : ∀ c, (f c).lowmemSeg = c.lowmemSeg) :
    Moves (Spares h p P) (setClient f : M σ Unit) := by
  refine fun s here => ⟨?_, rfl, rfl, .refl _⟩
  have same : (s.withClient f).client.lowmemSeg = s.client.lowmemSeg := by
    rw [State.client_withClient, keeps]
  rw [← here, State.places, State.places, ← same]
  rfl

theorem spares_hostCall (host : SteadyHost h) (c : DpmiCall) :
    @Moves (State σ) (no_index c.Reply) (Spares h p P) (hostCall h c) := by
  refine fun s here => ⟨?_, rfl, rfl, .refl _⟩
  have same : dosGetPsp h (final (hostCall h c) s) = dosGetPsp h s := host.psp c s.host
  rw [← here, State.places, State.places, same]
  rfl

attribute [local irreducible] strlen

theorem spares_setMem {f : Memory → Memory} {s : State σ} (agree : AgreeOn P s.mem (f s.mem)) :
    Spares h p P s (final (setMem f) s) := fun here => ⟨here, rfl, rfl, agree⟩

theorem spares_writeWordAt {a : Dword} {v : Word} (clear : ∀ x, P x → ¬ (Block.mk a 2).Covers x) :
    Moves (Spares h p P) (writeWordAt a v : M σ Unit) := fun _ => spares_setMem (writeWord_agree _ clear)

theorem spares_memcpy {dst src : Dword} {n : Nat} (clear : ∀ x, P x → ¬ (Block.mk dst n).Covers x) :
    Moves (Spares h p P) (memcpy dst src n : M σ Unit) := fun _ => spares_setMem (copy_agree _ clear)

theorem quiet_spares (host : SteadyHost h) : QuietEffect h (Spares h p P) where
  call c _ _ := spares_hostCall host c
  client f keeps := spares_setClient f fun c => congrArg Prod.fst (keeps c)
  segments _ _ _ here := ⟨here, rfl, rfl, .refl _⟩
  rmDs _ _ here := ⟨here, rfl, rfl, .refl _⟩
  rmEs _ _ here := ⟨here, rfl, rfl, .refl _⟩
  target _ _ _ here := ⟨here, rfl, rfl, .refl _⟩
  targetKept _ here := ⟨here, rfl, rfl, .refl _⟩
  frame _ _ _ _ here := ⟨here, rfl, rfl, .refl _⟩
  table _ _ here := ⟨here, rfl, rfl, .refl _⟩
  keepOther _ _ _ here := ⟨here, rfl, rfl, .refl _⟩

theorem ending_spares (host : SteadyHost h) : EndingEffect h (Spares h p P) where
  call c _ _ := spares_hostCall host c
  client f keeps := spares_setClient f fun c => congrArg Prod.fst (keeps c)
  scp := spares_setScp
  table _ _ here := ⟨here, rfl, rfl, .refl _⟩

theorem spares_getPsp {α : Type} {k : Word → M σ α} (rest : Moves (Spares h p P) (k p.psp)) :
    Moves (Spares h p P) (reads (dosGetPsp h) >>= k) := by
  intro s here
  have psp : dosGetPsp h s = p.psp := congrArg Places.psp here
  rw [final_reads_bind, psp]
  exact rest s here

/-! ## Branches that write -/

def pspTargets (psp : Word) : List Block :=
  [⟨segoff2linear psp 0xa, 2⟩, ⟨segoff2linear psp 0xa + 2, 2⟩, ⟨segoff2linear psp 0x16, 2⟩]

theorem spares_oldDosTerminate (host : SteadyHost h) (clear : Clear P (pspTargets p.psp)) :
    Moves (Spares h p P) (oldDosTerminate h) := by
  simp only [pspTargets, clear_cons] at clear
  obtain ⟨ip, cs, link, -⟩ := clear
  refine spares_getPsp (Moves.bind (moves_reads _) fun rmreg => ?_)
  refine Moves.bind (spares_writeWordAt ip) fun _ => Moves.bind (spares_writeWordAt cs) fun _ => ?_
  refine Moves.bind ((quiet_spares host).target _ _) fun _ => Moves.bind (moves_reads _) fun seg => ?_
  exact Moves.bind (moves_reads _) fun found => Moves.onlyIf fun _ => spares_writeWordAt link

def dtaBlock (lowmem : Word) : Block := ⟨segoff2linear (lowmem + DTA_Para_ADD) 0, 0x80⟩

theorem spares_getDta {α : Type} {k : Dword → M σ α}
    (rest : Moves (Spares h p P) (k (dtaBlock p.lowmem).start)) :
    Moves (Spares h p P) (reads dtaUnder1MB >>= k) := by
  intro s here
  have lowmem : s.client.lowmemSeg = p.lowmem := congrArg Places.lowmem here
  rw [final_reads_bind, dtaUnder1MB, lowmem]
  exact rest s here

theorem spares_dosSetDta (host : SteadyHost h) (clear : Clear P [dtaBlock p.lowmem]) :
    Moves (Spares h p P) (dosSetDta h) := by
  have quiet := quiet_spares (p := p) (P := P) host
  refine Moves.bind (moves_reads _) fun off => Moves.bind (moves_reads _) fun sel => ?_
  refine Moves.bind (moves_reads _) fun inDos => Moves.ite (fun _ => ?_) fun _ => ?_
  · refine Moves.bind (moves_reads _) fun base => Moves.bind (quiet.rmDs _) fun _ => ?_
    exact spares_setClient _ fun _ => rfl
  · refine Moves.bind (spares_setClient _ fun _ => rfl) fun _ => Moves.bind (moves_reads _) fun lowmem => ?_
    refine Moves.bind (quiet.rmDs _) fun _ => Moves.bind (spares_setRmLword _ _) fun _ => ?_
    refine spares_getDta (Moves.bind (moves_reads _) fun above => ?_)
    exact spares_memcpy (clear_cons.mp clear).1

theorem spares_dosSetPsp (clear : Clear P [⟨segoff2linear p.psp 0, 0x100⟩]) :
    Moves (Spares h p P) (dosSetPsp h) := by
  refine Moves.bind (moves_reads _) fun sel => Moves.bind (moves_reads _) fun inDos => ?_
  refine Moves.bind (moves_reads _) fun base => Moves.ite (fun _ => ?_) fun _ => ?_
  · exact Moves.bind (spares_setRmLword _ _) fun _ => spares_setClient _ fun _ => rfl
  · refine Moves.bind (spares_setClient _ fun _ => rfl) fun _ => spares_getPsp ?_
    exact Moves.bind (spares_setRmLword _ _) fun _ => spares_memcpy (clear_cons.mp clear).1

section Environment

def envBlock (psp : Word) : Block := ⟨segoff2linear psp 0x2c, 2⟩

variable (clear : Clear P [envBlock p.psp])
include clear

theorem spares_writeEnvSel (sel : Word) : Moves (Spares h p P) (writeEnvSel h sel) :=
  spares_getPsp (spares_writeWordAt (clear_cons.mp clear).1)

theorem spares_restoreEnv : Moves (Spares h p P) (restoreEnv h) := by
  refine Moves.bind (moves_reads _) fun env => Moves.onlyIf fun _ => ?_
  exact Moves.bind (moves_reads _) fun base => spares_writeEnvSel clear _

theorem spares_convertEnv (host : SteadyHost h) : Moves (Spares h p P) (convertEnv h) := by
  refine Moves.bind (moves_reads _) fun envp => Moves.onlyIf fun _ => ?_
  exact Moves.bind (spares_hostCall host (.segmentToDescriptor _)) fun sel => spares_writeEnvSel clear _

end Environment

theorem selAdrClnt_hostCall (host : SteadyHost h) {c : DpmiCall} (other : c.onDescriptors = false)
    (s : State σ) (sel : Word) (r : Gpr) :
    selAdrClnt h (final (hostCall h c) s) sel r = selAdrClnt h s sel r := by
  have base : getSegmentBase h (final (hostCall h c) s) sel = getSegmentBase h s sel :=
    host.base c other s.host sel
  rw [selAdrClnt, selAdr, selAdrLdt, base]
  rfl

variable (h) in
def nameBlock (s : State σ) : Block :=
  ⟨segoff2linear (s.client.lowmemSeg + EXEC_Para_ADD) 0,
    strlen s.mem (selAdrClnt h s s.scp.ds .edx) + 1⟩

def execBlocks (lowmem : Word) : List Block :=
  let parSeg := lowmem + EXEC_Para_ADD + 17
  [⟨segoff2linear parSeg 0, 0x20⟩, ⟨segoff2linear (parSeg + 2) 0, 0x80⟩,
    ⟨segoff2linear (parSeg + 2 + 8) 0, 0x30⟩]

theorem segoff2linear_off (seg off : Word) :
    segoff2linear seg off = segoff2linear seg 0 + BitVec.ofNat 32 off.toNat := by
  simp [segoff2linear, zext]

theorem spares_fillParameters (host : SteadyHost h) (clear : Clear P (execBlocks p.lowmem)) :
    Moves (Spares h p P) (fillParameters h (p.lowmem + EXEC_Para_ADD)) := by
  simp only [execBlocks, clear_cons] at clear
  obtain ⟨par, tail, fcb, -⟩ := clear
  have word {off : Word} (v : Word) (inner : off.toNat + 2 ≤ 0x20) : Moves (Spares h p P)
      (writeWordAt (segoff2linear (p.lowmem + EXEC_Para_ADD + 17) off) v) := by
    apply spares_writeWordAt
    intro a inside covered
    apply par a inside
    rw [segoff2linear_off] at covered
    exact Block.covers_of_inner inner (by omega) covered
  have quiet := quiet_spares (p := p) (P := P) host
  refine Moves.bind (quiet.rmEs _) fun _ => Moves.bind (spares_setRmLword _ _) fun _ => ?_
  refine Moves.bind (moves_reads _) fun block => Moves.bind (spares_memcpy par) fun _ => ?_
  refine Moves.bind (word _ (by decide)) fun _ => Moves.bind (moves_reads _) fun off => ?_
  refine Moves.bind (moves_reads _) fun sel => Moves.bind (word _ (by decide)) fun _ => ?_
  refine Moves.bind (word _ (by decide)) fun _ => Moves.bind (moves_reads _) fun src => ?_
  refine Moves.bind (spares_memcpy tail) fun _ => Moves.bind (word _ (by decide)) fun _ => ?_
  refine Moves.bind (word _ (by decide)) fun _ => Moves.bind (word _ (by decide)) fun _ => ?_
  exact Moves.bind (word _ (by decide)) fun _ => fun _ => spares_setMem (fill_agree _ fcb)

theorem fillName_mem (host : SteadyHost h) (s : State σ) : (final (fillName h) s).mem =
    copyString s.mem (segoff2linear (s.client.lowmemSeg + EXEC_Para_ADD) 0)
      (selAdrClnt h s s.scp.ds .edx) := by
  rw [← selAdrClnt_hostCall host (c := .getStateSaveRestoreAddr) rfl]
  rfl

theorem fillName_places (host : SteadyHost h) (s : State σ) :
    (final (fillName h) s).places h = s.places h := by
  have psp : dosGetPsp h (final (fillName h) s) = dosGetPsp h s :=
    host.psp .getStateSaveRestoreAddr s.host
  rw [State.places, State.places, psp]
  rfl

theorem spares_afterName (host : SteadyHost h) {s : State σ} (clear : Clear P (execBlocks s.client.lowmemSeg)) :
    Spares h (s.places h) P (final (fillName h) s) (final (fillExec h) s) :=
  spares_fillParameters (p := s.places h) host clear _

theorem spares_fillName (host : SteadyHost h) {s : State σ} (clear : Clear P [nameBlock h s]) :
    Spares h (s.places h) P s (final (fillName h) s) := by
  refine fun _ => ⟨fillName_places host s, rfl, rfl, ?_⟩
  rw [fillName_mem host]
  exact copyString_agree _ (clear_cons.mp clear).1

theorem spares_fillExec (host : SteadyHost h) {s : State σ}
    (clear : Clear P (nameBlock h s :: execBlocks p.lowmem)) :
    Spares h p P s (final (fillExec h) s) := by
  obtain ⟨name, area⟩ := clear_cons.mp clear
  rintro rfl
  have named := spares_fillName host (clear_cons.mpr ⟨name, clear_nil⟩)
  exact IsTrans.trans _ _ _ named (spares_afterName host area) rfl

theorem spares_afterExecName (host : SteadyHost h) {s : State σ}
    (area : Clear P (execBlocks s.client.lowmemSeg)) (env : Clear P [envBlock (dosGetPsp h s)]) :
    Spares h (s.places h) P (final (fillName h) s) (final (dosExec h) s) := by
  have there : Clear P [envBlock (s.places h).psp] := env
  have named := spares_afterName host area
  have jump (rma : Far) : Moves (Spares h (s.places h) P) (do
      restoreEnv h
      let flags ← reads fun s => loWord s.scp.eflags
      rmDoIntTo flags rma.segment rma.offset) := by
    refine Moves.bind (spares_restoreEnv there) fun _ => Moves.bind (moves_reads _) fun flags => ?_
    exact (quiet_spares host).rmDoIntTo _ _ _
  rw [dosExec_eq, final_bind]
  exact IsTrans.trans _ _ _ named (jump _ _)

theorem spares_dosExec (host : SteadyHost h) {s : State σ}
    (clear : Clear P (nameBlock h s :: execBlocks p.lowmem ++ [envBlock p.psp])) :
    Spares h p P s (final (dosExec h) s) := by
  obtain ⟨⟨name, area⟩, env⟩ := (clear_append.mp clear).imp_left clear_cons.mp
  rintro rfl
  have named := spares_fillName host (clear_cons.mpr ⟨name, clear_nil⟩)
  exact IsTrans.trans _ _ _ named (spares_afterExecName host area env) rfl

/-! ## The way down -/

variable (h) in
def DosFn.targets (f : DosFn) (s : State σ) : List Block :=
  match f with
  | .terminate => pspTargets (dosGetPsp h s)
  | .setDta => [dtaBlock s.client.lowmemSeg]
  | .exec => nameBlock h s :: execBlocks s.client.lowmemSeg ++ [envBlock (dosGetPsp h s)]
  | .setPsp => [⟨segoff2linear (dosGetPsp h s) 0, 0x100⟩]
  | _ => []

theorem ending_preDos {R : State σ → State σ → Prop} [IsPreorder (State σ) R] (eff : EndingEffect h R)
    {f : DosFn} (ends : f.ends = true) (al : Byte) : Moves R (preDos h f al) := by
  cases f with
  | setVector => exact Moves.done eff.dosSetVector
  | getVector => exact Moves.done eff.dosGetVector
  | allocate => exact Moves.done eff.dosAllocate
  | free => exact Moves.done eff.dosFree
  | resize => exact Moves.done eff.dosResize
  | unsupportedFcb => exact Moves.done (eff.scp _)
  | _ => cases ends

theorem spares_preDos (host : SteadyHost h) {ah al : Byte} (unlisted : needXbufDos ah al = false)
    {s : State σ} (clear : Clear P ((dosFn ah).targets h s)) :
    Spares h (s.places h) P s (final (preDos h (dosFn ah) al) s) := by
  have quiet := quiet_spares (p := s.places h) (P := P) host
  have plain : (dosFn ah).buffered = false := by
    apply Bool.eq_false_iff.mpr
    intro buffered
    rw [needXbufDos_of_buffered buffered] at unlisted
    cases unlisted
  cases fn : dosFn ah with
  | setVector | getVector | allocate | free | resize | unsupportedFcb =>
    exact ending_preDos (ending_spares host) rfl al s
  | plain => exact refl s
  | terminate =>
    rw [fn] at clear
    have words : Clear P (pspTargets (s.places h).psp) := clear
    refine Moves.goOn (Moves.bind (spares_oldDosTerminate host words) fun _ => ?_) s
    exact Moves.bind quiet.targetKept fun _ => spares_setRmLword _ _
  | setDta =>
    rw [fn] at clear
    have dta : Clear P [dtaBlock (s.places h).lowmem] := clear
    exact Moves.goOn (spares_dosSetDta host dta) s
  | exec =>
    rw [fn] at clear
    have area : Clear P (nameBlock h s :: execBlocks (s.places h).lowmem ++
        [envBlock (s.places h).psp]) := clear
    exact moved_bind (spares_dosExec host area) (refl _)
  | setPsp =>
    rw [fn] at clear
    have psp : Clear P [⟨segoff2linear (s.places h).psp 0, 0x100⟩] := clear
    exact Moves.goOn (spares_dosSetPsp psp) s
  | createSetPsp => exact Moves.goOn (quiet.dosCreateSetPsp (spares_setRmLword _)) s
  | redirection =>
    rw [dosFn_redirection fn] at unlisted
    have skipped : (2 ≤ al && al ≤ 6) = false := by simpa [needXbufDos] using unlisted
    exact Moves.goOn (Moves.onlyIf fun taken => by rw [skipped] at taken; cases taken) s
  | international =>
    rw [dosFn_international fn] at unlisted
    refine Moves.goOn (Moves.bind (moves_reads _) fun cx => ?_) s
    simp [needXbufDos] at unlisted
    have high : 7#8 < al := unlisted.1.1.1.1 (by bv_omega)
    have nonzero : al ≠ 0#8 := by bv_omega
    simp [nonzero, BitVec.not_le.mpr high, unlisted]
  | lfn =>
    rw [dosFn_lfn fn] at unlisted
    rw [preDos, dosLfn_unlisted h unlisted]
    split
    · exact refl s
    · exact Moves.bind (spares_setScp _) (fun _ => Moves.bind (spares_setScp _) fun _ => moves_pure _) s
  | _ => simp [fn, DosFn.buffered] at plain

theorem needXbuf_exec {ax : Word} (exec : hiByte ax = 0x4b) : needXbuf 0x21 ax = false := by
  simp [needXbuf, needCopyDseg, needCopyEseg, needXbufDos, exec]

def mirrorsDta (intr : Nat) (s : State σ) : Bool :=
  s.client.userDtaSel ≠ 0 && intr = 0x21 && usesDta (hiByte (s.scp.lword .eax))

def dtaTargets (intr : Nat) (s : State σ) : List Block :=
  if mirrorsDta intr s then [dtaBlock s.client.lowmemSeg] else []

variable (h) in
theorem preEnter_eq (intr : Nat) (s : State σ) :
    final (preEnter h intr) s =
      { s.entered with
        mem := if mirrorsDta intr s then copy s.mem (dtaUnder1MB s) (dtaOver1MB h s) 0x80 else s.mem } := by
  rw [preEnter, final_bind, dtaCopyIn, final_reads_bind, final_onlyIf]
  cases mirrors : mirrorsDta intr s with
  | false => exact if_neg (Bool.not_eq_true _ ▸ mirrors)
  | true => exact if_pos mirrors

variable (h) in
def preTargets (intr : Nat) (s : State σ) : List Block :=
  dtaTargets intr s ++
    if intr = 0x20 then pspTargets (dosGetPsp h s)
    else if intr = 0x21 then (dosFn (hiByte (s.scp.lword .eax))).targets h s
    else []

theorem spares_preMultiplex (host : SteadyHost h) (ax : Word) (act : Bool) :
    Moves (Spares h p P) (preMultiplex h ax act) := by
  unfold preMultiplex
  split
  · exact Moves.done fun _ here => ⟨here, rfl, rfl, .refl _⟩
  · split
    · exact Moves.done (ending_spares host).getExtApi
    · repeat' split
      all_goals exact moves_pure _

theorem spares_preMouse (host : SteadyHost h) {ax : Word} (unlisted : ax ≠ 0x09) :
    Moves (Spares h p P) (preMouse h ax) := by
  have quiet := quiet_spares (p := p) (P := P) host
  unfold preMouse
  rw [if_neg unlisted]
  split
  · exact Moves.goOn (quiet.mouseSetHandler (spares_setRmLword _) fun _ f _ _ => spares_setScp f)
  · split
    · exact Moves.goOn (quiet.mouseSetHandler (spares_setRmLword _) fun _ f _ _ => spares_setScp f)
    · exact moves_pure _

theorem spares_preSwitch (host : SteadyHost h) (intr : Nat) {s : State σ} (act : Bool)
    (unlisted : needXbuf intr (s.scp.lword .eax) = false)
    (psp : intr = 0x20 → Clear P (pspTargets (dosGetPsp h s)))
    (branch : intr = 0x21 → Clear P ((dosFn (hiByte (s.scp.lword .eax))).targets h s)) :
    Spares h (s.places h) P s (final (preSwitch h intr (s.scp.lword .eax) act) s) := by
  have quiet := quiet_spares (p := s.places h) (P := P) host
  unfold preSwitch
  split_ifs with int41 int15 int20 int21 int2f int33 listed
  · exact refl s
  · refine Moves.goOn (Moves.onlyIf fun _ => ?_) s
    exact quiet.ps2SetHandler (spares_setRmLword _)
  · have words : Clear P (pspTargets (s.places h).psp) := psp int20
    refine Moves.goOn (Moves.bind (spares_oldDosTerminate host words) fun _ => ?_) s
    exact quiet.targetKept
  · refine spares_preDos host ?_ (branch int21)
    apply Bool.eq_false_iff.mpr
    intro listed
    rw [int21, needXbuf_of_dos listed] at unlisted
    cases unlisted
  · exact spares_preMultiplex host _ act s
  · refine spares_preMouse host (fun listed => ?_) s
    simp [needXbuf, int33, listed] at unlisted
  · exact refl s
  · exact refl s

theorem spares_preFinish (host : SteadyHost h) {intr : Nat} {s : State σ} (altEnt : Bool)
    (unlisted : needXbuf intr (s.scp.lword .eax) = false) :
    Spares h p P s (final (preFinish h intr altEnt) s) := by
  rw [preFinish, final_bind, final_bind, copyDsegIn_unlisted h unlisted,
    copyEsegIn_unlisted h unlisted]
  refine Moves.bind (moves_reads _) (fun flags => Moves.bind (Moves.onlyIf fun _ => ?_) fun _ => ?_) s
  · exact (quiet_spares host).rmInt _ _
  · exact fun _ here => ⟨here, rfl, rfl, .refl _⟩

theorem spares_preLeave (host : SteadyHost h) {intr : Nat} {s : State σ} (outcome : Outcome)
    (unlisted : (∃ altEnt, outcome = .go altEnt) → needXbuf intr (s.scp.lword .eax) = false) :
    Spares h p P s (final (preLeave h intr outcome) s) := by
  cases outcome with
  | ret r => exact refl s
  | go altEnt => exact moved_bind (spares_preFinish host altEnt (unlisted ⟨altEnt, rfl⟩)) (refl _)

theorem spares_preService (host : SteadyHost h) {intr : Nat} {s : State σ} (act : Bool)
    (unlisted : needXbuf intr (s.scp.lword .eax) = false)
    (psp : intr = 0x20 → Clear P (pspTargets (dosGetPsp h s)))
    (branch : intr = 0x21 → Clear P ((dosFn (hiByte (s.scp.lword .eax))).targets h s)) :
    Spares h (s.places h) P s
      (final (preSwitch h intr (s.scp.lword .eax) act >>= preLeave h intr) s) := by
  refine moved_bind (spares_preSwitch host intr act unlisted psp branch) (spares_preLeave host _ ?_)
  rintro ⟨altEnt, goes⟩
  have same := (unmapped_preSwitch h intr act unlisted s).2 altEnt goes
  rw [Sigcontext.lword, same]
  exact unlisted

/-- The one function that uses the DTA and does without the transfer buffer. -/
theorem usesDta_unlisted {ax : Word} (uses : usesDta (hiByte ax) = true)
    (unlisted : needXbuf 0x21 ax = false) : hiByte ax = 0x4f := by
  simp only [usesDta, Bool.or_eq_true, decide_eq_true_eq] at uses
  rcases uses with ((ah | ah) | ah) | ah
  · simp [needXbuf, needXbufDos, ah] at unlisted
  · simp [needXbuf, needXbufDos, ah] at unlisted
  · simp [needXbuf, needXbufDos, ah] at unlisted
  · exact ah

theorem spares_preEnter {intr : Nat} {s : State σ} (clear : Clear P (dtaTargets intr s)) :
    Spares h (s.places h) P s (final (preEnter h intr) s) := by
  refine fun here => ?_
  rw [preEnter_eq]
  refine ⟨here, rfl, rfl, ?_⟩
  cases mirrors : mirrorsDta intr s with
  | false => exact .refl _
  | true =>
    rw [dtaTargets, if_pos mirrors] at clear
    exact copy_agree _ (clear_cons.mp clear).1

/-- A call without the transfer buffer changes only the blocks of its table. -/
theorem spares_pre (host : SteadyHost h) {intr : Nat} {s : State σ}
    (unlisted : needXbuf intr (s.scp.lword .eax) = false) (clear : Clear P (preTargets h intr s)) :
    Spares h (s.places h) P s (final (msdosPreExtender h intr) s) := by
  rw [preTargets, clear_append] at clear
  obtain ⟨dta, branch⟩ := clear
  cases uses : intr = 0x21 && usesDta (hiByte (s.scp.lword .eax)) with
  | false =>
    have psp : intr = 0x20 → Clear P (pspTargets (dosGetPsp h s)) := by
      intro int20
      rwa [if_pos int20] at branch
    have dos : intr = 0x21 → Clear P ((dosFn (hiByte (s.scp.lword .eax))).targets h s) := by
      intro int21
      rwa [if_neg (by omega), if_pos int21] at branch
    rw [preExtender_eq h unlisted uses]
    exact fun here => spares_preService host (s := s.entered) false unlisted psp dos here
  | true =>
    obtain ⟨int21, function⟩ := Bool.and_eq_true_iff.mp uses
    have int21 := of_decide_eq_true int21
    rw [int21] at unlisted
    have plain : dosFn (hiByte (s.scp.lword .eax)) = .plain := by
      rw [usesDta_unlisted function unlisted]
      rfl
    have enter := spares_preEnter (h := h) dta
    have sameAx : (final (preEnter h intr) s).scp.lword .eax = s.scp.lword .eax :=
      congrArg loWord (steady_preEnter h intr s).2
    rw [final, msdosPreExtender_run]
    generalize final (preEnter h intr) s = t at enter sameAx
    rw [← sameAx] at unlisted plain
    rw [preMap_unlisted h (int21 ▸ unlisted)]
    intro here
    have there := (enter here).1
    have service : Spares h (t.places h) P t
        (final (preSwitch h intr (t.scp.lword .eax) false >>= preLeave h intr) t) :=
      spares_preService host false (int21 ▸ unlisted)
        (fun int20 => absurd (int21.symm.trans int20) (by decide))
        (fun _ => by rw [plain]; exact clear_nil)
    rw [there] at service
    exact IsTrans.trans _ _ _ enter service here

/-! ## The way back -/

/-- Branches of the way back that copy from the transfer buffer whatever AL is. -/
def DosRet.buffered : DosRet → Bool
  | .fcb | .parseFcb | .createPsp | .country | .getCwd | .driveParams | .longIo | .canonicalize => true
  | _ => false

variable (h) in
def DosRet.targets (f : DosRet) (s : State σ) : List Block :=
  match f with
  | .createSetPsp => [⟨getSegmentBase h s (s.scp.lword .edx), 0x100⟩]
  | .exec => [envBlock (dosGetPsp h s)]
  | _ => []

variable (h) in
def postTargets (intr : Nat) (s : State σ) : List Block :=
  (if mirrorsDta intr s then [⟨dtaOver1MB h s, 0x80⟩] else []) ++
    if intr = 0x21 then (dosRet (hiByte (s.scp.lword .eax))).targets h s else []

theorem needXbufDos_of_ret {ah al : Byte} (buffered : (dosRet ah).buffered = true) :
    needXbufDos ah al = true := by
  have table : ∀ ah, (dosRet ah).buffered = true →
      ah ≠ 0x5f ∧ ah ≠ 0x65 ∧ ah ≠ 0x71 ∧ needXbufDos ah 0 = true := by decide +kernel
  obtain ⟨network, country, lfn, listed⟩ := table ah buffered
  rw [needXbufDos_al network country lfn, listed]

theorem dosRet_redirection : ∀ {ah}, dosRet ah = .redirection → ah = 0x5f := by decide +kernel

theorem dosRet_international : ∀ {ah}, dosRet ah = .international → ah = 0x65 := by decide +kernel

theorem dosRet_lfn : ∀ {ah}, dosRet ah = .lfn → ah = 0x71 := by decide +kernel

theorem spares_preserveGpr (r : Gpr) : Moves (Spares h p P) (preserveGpr r : M σ Unit) :=
  fun _ here => ⟨here, rfl, rfl, .refl _⟩

theorem spares_setReg (r : Gpr) (v : Dword) : Moves (Spares h p P) (setReg r v : M σ Unit) :=
  Moves.bind (spares_preserveGpr r) fun _ => spares_setScp _

theorem spares_postDos (host : SteadyHost h) {ah al : Byte} (unlisted : needXbufDos ah al = false)
    {s : State σ} (clear : Clear P ((dosRet ah).targets h s)) :
    Spares h (s.places h) P s (final (postDos h (dosRet ah) al) s) := by
  have quiet := quiet_spares (p := s.places h) (P := P) host
  have plain : (dosRet ah).buffered = false := by
    apply Bool.eq_false_iff.mpr
    intro buffered
    rw [needXbufDos_of_ret buffered] at unlisted
    cases unlisted
  cases fn : dosRet ah with
  | terminate | keepEdx | setPsp | extendedOpen => exact spares_preserveGpr _ s
  | other => exact refl s
  | getDta =>
    refine Moves.bind (moves_reads _) (fun t => Moves.ite (fun _ => ?_) fun _ => ?_) s
    · exact Moves.bind (quiet.setRegEs _) fun _ => spares_setReg _ _
    · exact Moves.bind quiet.selectorForEs fun _ => spares_setReg _ _
  | farPointer => exact quiet.selectorForEs s
  | createSetPsp =>
    rw [fn] at clear
    have block := (clear_cons.mp clear).1
    refine moved_bind (spares_preserveGpr _ s) ?_
    rw [final_reads_bind, final_onlyIf]
    split
    · rw [retCreatePsp, final_reads_bind]
      exact spares_memcpy block _
    · exact refl _
  | extendedError =>
    exact Moves.bind (moves_reads _) (fun ax => Moves.onlyIf fun _ => quiet.selectorForEs) s
  | exec =>
    rw [fn] at clear
    have word : Clear P [envBlock (s.places h).psp] := clear
    exact spares_convertEnv word host s
  | getPsp =>
    refine Moves.bind (moves_reads _) (fun t => Moves.ite (fun _ => spares_setReg _ _) fun _ => ?_) s
    exact Moves.bind (quiet.convertSegmentToDescriptorLim _ _) fun sel => spares_setReg _ _
  | rename => exact Moves.bind (spares_preserveGpr _) (fun _ => spares_preserveGpr _) s
  | serverCall => exact Moves.onlyIf (fun _ => quiet.selectorForDs) s
  | leadByte =>
    exact Moves.bind (moves_reads _) (fun rmAl => Moves.onlyIf fun _ => quiet.selectorForDs) s
  | redirection =>
    rw [dosRet_redirection fn] at unlisted
    have skipped : (2 ≤ al && al ≤ 6) = false := by simpa [needXbufDos] using unlisted
    exact Moves.onlyIf (fun taken => by rw [skipped] at taken; cases taken) s
  | international =>
    rw [dosRet_international fn] at unlisted
    refine Moves.bind (spares_preserveGpr _) (fun _ => Moves.bind (spares_preserveGpr _) fun _ => ?_) s
    refine Moves.bind (moves_reads _) fun t => ServiceEffect.unlessFailed ?_
    simp [needXbufDos] at unlisted
    have high : 7#8 < al := unlisted.1.1.1.1 (by bv_omega)
    simp [BitVec.not_le.mpr high, unlisted]
  | lfn =>
    rw [dosRet_lfn fn] at unlisted
    simp [needXbufDos] at unlisted
    simp only [postDos, retLfn]
    simp [unlisted]
    exact refl s
  | _ => simp [fn, DosRet.buffered] at plain

theorem spares_postSwitch (host : SteadyHost h) {intr : Nat} {s : State σ}
    (unlisted : needXbuf intr (s.scp.lword .eax) = false)
    (branch : intr = 0x21 → Clear P ((dosRet (hiByte (s.scp.lword .eax))).targets h s)) :
    Spares h (s.places h) P s (final (postSwitch h intr (s.scp.lword .eax)) s) := by
  have quiet := quiet_spares (p := s.places h) (P := P) host
  unfold postSwitch
  split_ifs with int10 int15 int2f int21 disk int33
  · exact Moves.onlyIf (fun _ => quiet.selectorForEs) s
  · exact Moves.onlyIf (fun _ => ServiceEffect.unlessFailed quiet.selectorForEs) s
  · refine Moves.onlyIf (fun _ => ?_) s
    exact quiet.retXmsEntry (spares_preserveGpr _) fun v => spares_setScp _
  · refine spares_postDos host ?_ (branch int21)
    apply Bool.eq_false_iff.mpr
    intro listed
    rw [int21, needXbuf_of_dos listed] at unlisted
    cases unlisted
  · simp only [Bool.or_eq_true, decide_eq_true_eq] at disk
    rcases disk with disk | disk
    all_goals simp [needXbuf, needCopyDseg, disk] at unlisted
  · unfold retMouse
    split_ifs
    · exact spares_preserveGpr _ s
    · refine Moves.bind (moves_reads _) (fun seg => ?_) s
      exact Moves.bind (spares_hostCall host (.segmentToDescriptor _)) fun sel => spares_setReg _ _
    · exact refl s
  · exact refl s

variable (h) in
theorem postCopies_unsegmented {intr : Nat} {s : State σ}
    (dseg : needCopyDseg intr (s.scp.lword .eax) = false)
    (eseg : needCopyEseg intr (s.scp.lword .eax) = false) :
    final (postCopies h intr (s.scp.lword .eax)) s =
      { s with
        updateMask := ~~~0
        mem := if mirrorsDta intr s then copy s.mem (dtaOver1MB h s) (dtaUnder1MB s) 0x80 else s.mem } := by
  rw [postCopies, copyDsegOut, copyEsegOut, dseg, eseg]
  rw [final_bind, final_bind, dtaCopyOut, final_reads_bind, final_onlyIf]
  cases mirrors : mirrorsDta intr s with
  | false => exact if_neg (Bool.not_eq_true _ ▸ mirrors)
  | true => exact if_pos mirrors

theorem spares_post (host : SteadyHost h) {intr : Nat} {s : State σ}
    (unlisted : needXbuf intr (s.scp.lword .eax) = false) (clear : Clear P (postTargets h intr s)) :
    Spares h (s.places h) P s (final (msdosPostExtender h intr) s) := by
  rw [postTargets, clear_append] at clear
  obtain ⟨dta, branch⟩ := clear
  have dos : intr = 0x21 → Clear P ((dosRet (hiByte (s.scp.lword .eax))).targets h s) := by
    intro int21
    rwa [if_pos int21] at branch
  have copied := postCopies_unsegmented h (not_needCopyDseg unlisted) (not_needCopyEseg unlisted)
  have copies : Spares h (s.places h) P s (final (postCopies h intr (s.scp.lword .eax)) s) := by
    intro here
    rw [copied]
    refine ⟨here, rfl, rfl, ?_⟩
    cases mirrors : mirrorsDta intr s with
    | false => exact .refl _
    | true =>
      rw [if_pos mirrors] at dta
      exact copy_agree _ (clear_cons.mp dta).1
  have same : (final (postCopies h intr (s.scp.lword .eax)) s).scp = s.scp := by
    rw [copied]
  have targets (f : DosRet) :
      f.targets h (final (postCopies h intr (s.scp.lword .eax)) s) = f.targets h s := by
    rw [copied]
    rfl
  rw [msdosPostExtender, final_reads_bind]
  intro here
  have there := (copies here).1
  refine moved_bind copies ?_ here
  generalize final (postCopies h intr (s.scp.lword .eax)) s = t at same targets there
  rw [← same] at unlisted dos ⊢
  have service : Spares h (t.places h) P t _ := spares_postSwitch host unlisted fun int21 => by
    rw [targets]
    exact dos int21
  rw [there] at service
  refine moved_bind service ?_
  rw [unlisted]
  exact fun here => ⟨here, rfl, rfl, .refl _⟩

end Pmdapi
