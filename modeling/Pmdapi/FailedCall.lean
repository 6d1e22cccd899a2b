import Pmdapi.DtaMirror
import Pmdapi.TwoBuffer

/-! The client's memory over an int 21h call that DOS fails. -/

namespace Pmdapi
open Bytes Effect

variable {σ : Type} (h : DpmiHost σ)

/-! ## Areas and windows -/

namespace State

variable (s : State σ)

def transferBuffer : Block := ⟨segoff2linear s.emmSeg 0, 0x10000⟩

/-- The transfer buffer and the DTA below 1 MiB. -/
def OwnArea (a : Dword) : Prop := s.transferBuffer.Covers a ∨ (dtaBlock s.client.lowmemSeg).Covers a

def dtaWindow : Window := ⟨dtaOver1MB h s, dtaUnder1MB s, 0x80⟩

def segmentWindow : Window :=
  ⟨getSegmentBase h s (copiedSelector 0x21 s), segoff2linear s.emmSeg 0,
    segmentLen (getSegmentLimit h s (copiedSelector 0x21 s))⟩

def fcbWindow : Window := ⟨selAdrClnt h s s.scp.ds .edx, segoff2linear s.emmSeg 0, 0x50⟩

def driveWindow : Window := ⟨selAdrClnt h s s.scp.es .ebp, segoff2linear (s.emmSeg + 3) 0, 0x60⟩

/-- What a branch copies down, and back whatever the service has done. -/
def branchWindows : List Window :=
  match dosRet s.ah with
  | .fcb => [s.fcbWindow h]
  | .parseFcb => [firstWindow h s, secondWindow h s 0x50]
  | .redirection => if 2 ≤ s.al && s.al ≤ 6 then [firstWindow h s, secondWindow h s 0x100] else []
  | .driveParams => [s.driveWindow h]
  | _ => []

def sharedWindows : List Window :=
  (if mirrorsDta 0x21 s then [s.dtaWindow h] else []) ++
    if copiesSegment 0x21 (s.scp.lword .eax) then [s.segmentWindow h] else []

/-- Everything that comes back from a copy of it, in the order of `msdos_post_extender`. -/
def copiedBack : List Window := s.sharedWindows h ++ s.branchWindows h

/-- What a branch copies over the client's bytes from elsewhere: no copy of them was made. For 50h it is
the PSP of DOS that is written, on the way down. -/
def overwritten : Option Window :=
  match dosRet s.ah with
  | .setPsp =>
    if inDosSpace h s (s.scp.lword .ebx) 0 then none
    else some ⟨segoff2linear (dosGetPsp h s) 0, getSegmentBase h s (s.scp.lword .ebx), 0x100⟩
  | .createPsp => some ⟨getSegmentBase h s (s.scp.lword .edx), segoff2linear s.emmSeg 0, 0x100⟩
  | .createSetPsp =>
    if inDosSpace h s (s.scp.lword .edx) 0 then none
    else some ⟨getSegmentBase h s (s.scp.lword .edx), segoff2linear (dosGetPsp h s) 0, 0x100⟩
  | .canonicalize => some ⟨selAdrClnt h s s.scp.es .edi, segoff2linear (s.emmSeg + 0x10) 0, 0x80⟩
  | _ => none

def strings : List StringCopy :=
  s.paths.map (s.path h) ++
    if s.ah = 0x65 && (s.al = 0x22 || s.al = 0xa2) then
      [⟨s.mem, PathReg.dsDx.client h s, segoff2linear s.emmSeg 0⟩]
    else []

end State

/-- Nothing is copied down past the end of the transfer buffer. -/
structure FitsBuffer (s : State σ) : Prop where
  below : s.emmSeg.toNat ≤ 0xf000
  segment : copiesSegment 0x21 (s.scp.lword .eax) = true →
    segmentLen (getSegmentLimit h s (copiedSelector 0x21 s)) ≤ 0x10000
  strings : ∀ c ∈ s.strings h, c.written.Within s.transferBuffer

/-- The client's bytes are apart from the translator's areas, and these from each other. -/
structure RegionsApart (Client : Dword → Prop) (s : State σ) : Prop where
  client : ∀ a, Client a → ¬s.OwnArea a
  windows : ∀ w ∈ s.copiedBack h, ∀ a, w.Shows a → ¬s.OwnArea a
  dta : s.transferBuffer.Apart (dtaBlock s.client.lowmemSeg)

/-- A service that sets CF, and changes no memory and no register but AX and the flags. -/
structure FailedService (u t : State σ) : Prop where
  scp : t.scp = u.scp
  client : t.client = u.client
  is32 : t.clntIs32 = u.clntIs32
  base : ∀ sel, getSegmentBase h t sel = getSegmentBase h u sel
  limit : ∀ sel, getSegmentLimit h t sel = getSegmentLimit h u sel
  buffer : t.emmSeg = u.emmSeg
  mem : t.mem = u.mem
  ds : t.rmreg.ds = u.rmreg.ds
  es : t.rmreg.es = u.rmreg.es
  words : ∀ r, r ≠ .eax → t.rmreg.lword r = u.rmreg.lword r
  failed : rmFailed t = true

/-! ## What fills the transfer buffer -/

def Fills (e : Word) (P : Dword → Prop) (s t : State σ) : Prop :=
  s.emmSeg = e → t.emmSeg = e ∧ AgreeOn P s.mem t.mem

section Fills

variable {e : Word} {P : Dword → Prop}

instance : IsPreorder (State σ) (Fills e P) where
  refl _ here := ⟨here, .refl _⟩
  trans _ _ _ first second here := by
    obtain ⟨there, agree⟩ := first here
    obtain ⟨after, agree'⟩ := second there
    exact ⟨after, agree.trans agree'⟩

theorem quiet_fills : QuietEffect h (Fills e P) where
  call _ _ _ _ here := ⟨here, .refl _⟩
  client _ _ _ here := ⟨here, .refl _⟩
  segments _ _ _ here := ⟨here, .refl _⟩
  rmDs _ _ here := ⟨here, .refl _⟩
  rmEs _ _ here := ⟨here, .refl _⟩
  target _ _ _ here := ⟨here, .refl _⟩
  targetKept _ here := ⟨here, .refl _⟩
  frame _ _ _ _ here := ⟨here, .refl _⟩
  table _ _ here := ⟨here, .refl _⟩
  keepOther _ _ _ here := ⟨here, .refl _⟩

theorem fills_setRmLword (r : Gpr) (v : Word) : Moves (Fills e P) (setRmLword r v : M σ Unit) :=
  fun _ here => ⟨here, .refl _⟩

theorem fills_transBufferSeg : Moves (Fills e P) (transBufferSeg : M σ Word) :=
  Moves.transBufferSeg fun _ _ here => ⟨here, .refl _⟩

theorem fills_memcpy {dst src : Dword} {n : Nat} (clear : ∀ a, P a → ¬(Block.mk dst n).Covers a) :
    Moves (Fills e P) (memcpy dst src n : M σ Unit) := fun _ here => ⟨here, copy_agree _ clear⟩

theorem fills_buffer {α : Type} {k : Word → M σ α} (rest : Moves (Fills e P) (k e)) :
    Moves (Fills e P) (transBufferSeg >>= k) := by
  rintro s rfl
  obtain ⟨trace, run⟩ := final_transBufferSeg_bind k s
  rw [run]
  exact rest _ rfl

end Fills

theorem copyDollar_agree {P : Dword → Prop} (m : Memory) (d src : Dword) {n : Nat} (fits : n < 2 ^ 32)
    (clear : ∀ a, P a → ¬(Block.mk d n).Covers a) : AgreeOn P m (copyDollar m d src n) := by
  induction n generalizing m d src with
  | zero => exact .refl m
  | succ n ih =>
    have one : AgreeOn P m (store m d [m src]) :=
      store_agree m fun a inside covered => clear a inside (Nat.lt_of_lt_of_le covered (by simp))
    rw [copyDollar]
    split
    · exact one
    · refine one.trans (ih _ _ _ (by omega) fun a inside covered => clear a inside ?_)
      exact Block.covers_of_inner (k := 1) (n := n) (by omega) (by omega) covered

theorem part_within {e paras : Word} {n : Nat} (below : e.toNat ≤ 0xf000)
    (room : paras.toNat * 16 + n ≤ 0x10000) :
    (Block.mk (segoff2linear (e + paras) 0) n).Within ⟨segoff2linear e 0, 0x10000⟩ := by
  have start := segoff2linear_toNat e
  have next := segoff2linear_toNat (e + paras)
  generalize segoff2linear e 0 = one at *
  generalize segoff2linear (e + paras) 0 = two at *
  intro a inside
  simp only [Block.Covers, offset] at *
  have positive : 0 < n := Nat.zero_lt_of_lt inside
  have sum : (e + paras).toNat = e.toNat + paras.toNat := by bv_omega
  bv_omega

section Branches

variable {e : Word} {P : Dword → Prop} (clear : ∀ a, P a → ¬(Block.mk (segoff2linear e 0) 0x10000).Covers a)
include clear

theorem fills_part {src : Dword} {n : Nat} (fits : n ≤ 0x10000) :
    Moves (Fills e P) (memcpy (segoff2linear e 0) src n : M σ Unit) :=
  fills_memcpy fun a inside covered => clear a inside (Block.within_of_le fits a covered)

theorem fills_copyFromDs (r : Gpr) {n : Nat} (fits : n ≤ 0x10000) : Moves (Fills e P) (copyFromDs h r n) :=
  fills_buffer (Moves.bind (moves_reads _) fun _ => fills_part clear fits)

theorem fills_copyFromEs (r : Gpr) {n : Nat} (fits : n ≤ 0x10000) : Moves (Fills e P) (copyFromEs h r n) :=
  fills_buffer (Moves.bind (moves_reads _) fun _ => fills_part clear fits)

theorem fills_printString : Moves (Fills e P) (dosPrintString h) := by
  have quiet := quiet_fills (e := e) (P := P) h
  refine Moves.bind (quiet.passDs fills_transBufferSeg (fills_setRmLword _)) fun _ => ?_
  refine fills_buffer (Moves.bind (moves_reads _) fun src => fun _ here => ⟨here, ?_⟩)
  refine copyDollar_agree _ _ _ (by decide) fun a inside covered => clear a inside ?_
  exact Block.within_of_le (by decide) a covered

theorem fills_passTwoWindows (below : e.toNat ≤ 0xf000) (si di : Gpr) {n k : Nat} {paras : Word}
    (fits : n ≤ 0x10000) (room : paras.toNat * 16 + k ≤ 0x10000) :
    Moves (Fills e P) (passTwoWindows h si di n k paras) := by
  have quiet := quiet_fills (e := e) (P := P) h
  refine fills_buffer (Moves.bind (quiet.rmDs _) fun _ => Moves.bind (fills_setRmLword _ _) fun _ => ?_)
  refine Moves.bind (moves_reads _) fun src => Moves.bind (fills_part clear fits) fun _ => ?_
  refine Moves.bind (quiet.rmEs _) fun _ => Moves.bind (fills_setRmLword _ _) fun _ => ?_
  refine Moves.bind (moves_reads _) fun dst => fills_memcpy fun a inside covered => clear a inside ?_
  exact part_within below room a covered

theorem fills_canonicalize : Moves (Fills e P) (dosCanonicalize h) := by
  have quiet := quiet_fills (e := e) (P := P) h
  refine fills_buffer (Moves.bind (quiet.rmDs _) fun _ => Moves.bind (fills_setRmLword _ _) fun _ => ?_)
  refine Moves.bind (moves_reads _) fun src => Moves.bind (fills_part clear (by decide)) fun _ => ?_
  exact Moves.bind (quiet.rmEs _) fun _ => fills_setRmLword _ _

omit clear in
theorem fills_longIo (helper : Far → Far) : Moves (Fills e P) (dosLongIo h helper) := by
  have quiet := quiet_fills (e := e) (P := P) h
  refine Moves.bind (moves_reads _) fun rma => Moves.bind (moves_reads _) fun ptr => ?_
  refine Moves.bind (moves_reads _) fun size => Moves.bind (fun _ here => ⟨here, .refl _⟩) fun _ => ?_
  refine Moves.bind (quiet.passDs fills_transBufferSeg (fills_setRmLword _)) fun _ => ?_
  refine Moves.bind (fills_setRmLword _ _) fun _ => Moves.bind (moves_reads _) fun flags => ?_
  exact quiet.rmDoIntTo _ _ _

/-- The functions of 65h; what 22h and A2h copy is as long as the client's string. -/
theorem fills_international (al : Byte) {v : State σ}
    (text : al = 0x22 ∨ al = 0xa2 → ∀ a, P a →
      ¬(Block.mk (segoff2linear e 0) (strlen v.mem (selAdrClnt h v v.scp.ds .edx) + 1)).Covers a) :
    Fills e P v (final (dosInternational h al) v) := by
  have quiet := quiet_fills (e := e) (P := P) h
  have buffer : Moves (Fills e P) (transBufferSeg : M σ Word) := fills_transBufferSeg
  have cx := (v.scp.lword .ecx).isLt
  rw [dosInternational, final_reads_bind, final_ite, final_ite, final_ite, final_ite]
  split_ifs with all table counted ended
  · refine Moves.bind (quiet.passEs buffer _ (fills_setRmLword _)) (fun _ => ?_) v
    exact fills_copyFromEs h clear _ (Nat.le_of_lt cx)
  · exact quiet.passEs buffer _ (fills_setRmLword _) v
  · refine Moves.bind (quiet.passDs buffer (fills_setRmLword _)) (fun _ => ?_) v
    exact fills_copyFromDs h clear _ (Nat.le_of_lt cx)
  · rintro rfl
    obtain ⟨trace, pass⟩ := final_passDs .edx v
    obtain ⟨trace', run⟩ := final_transBufferSeg_bind (fun seg => do
      let src ← reads fun s => selAdrClnt h s s.scp.ds .edx
      strcpy (segoff2linear seg 0) src) (final (passDs .edx) v)
    rw [final_bind, run, pass]
    exact ⟨rfl, copyString_agree _ (text (by simpa using ended))⟩
  · exact refl v

theorem fills_lfn {al : Byte} (noPath : pathRegs 0x71 al = []) : Going (Fills e P) (dosLfn h al) := by
  have quiet := quiet_fills (e := e) (P := P) h
  have buffer : Moves (Fills e P) (transBufferSeg : M σ Word) := fills_transBufferSeg
  have fn : dosFn 0x71 = .lfn := rfl
  have none : (al = 0x3b || al = 0x41 || al = 0x43 || al = 0x4e || al = 0xa0) = false ∧
      (al = 0x60 || al = 0x6c) = false := by
    rw [pathRegs, fn] at noPath
    simp only at noPath
    split_ifs at noPath with dx si
    exact ⟨Bool.eq_false_iff.mpr dx, Bool.eq_false_iff.mpr si⟩
  simp only [Bool.or_eq_false_iff, decide_eq_false_iff_not] at none
  obtain ⟨⟨⟨⟨⟨chdir, unlink⟩, attributes⟩, findFirst⟩, volume⟩, canonicalize, extendedOpen⟩ := none
  unfold dosLfn
  simp only [chdir, unlink, attributes, findFirst, volume, canonicalize, extendedOpen, decide_false,
    Bool.or_false, Bool.false_eq_true, if_false]
  split_ifs
  · refine .of_moves (Moves.bind (quiet.passEs buffer _ (fills_setRmLword _)) fun _ => ?_)
    exact Moves.bind (fills_copyFromEs h clear _ (by decide)) fun _ => moves_pure _
  · exact .of_moves (Moves.bind (quiet.passDs buffer (fills_setRmLword _)) fun _ => moves_pure _)
  · exact .ret _
  · exact .of_moves (Moves.bind (quiet.passDs buffer (fills_setRmLword _)) fun _ => moves_pure _)
  · exact fun _ _ goes => by cases goes

end Branches

/-! ## The way down -/

theorem inDosSpace_congr {s u : State σ} (base : ∀ sel, getSegmentBase h u sel = getSegmentBase h s sel)
    (sel : Word) (off : Dword) : inDosSpace h u sel off = inDosSpace h s sel off := by
  rw [inDosSpace, inDosSpace, base]

theorem text_within {s v : State σ} (reached : Reached h s v) (fits : FitsBuffer h s) (ah : s.ah = 0x65)
    (text : s.al = 0x22 ∨ s.al = 0xa2) :
    (Block.mk (segoff2linear s.emmSeg 0) (strlen v.mem (selAdrClnt h v v.scp.ds .edx) + 1)).Within
      s.transferBuffer := by
  have listed : StringCopy.mk s.mem (PathReg.dsDx.client h s) (segoff2linear s.emmSeg 0) ∈ s.strings h := by
    rw [State.strings, if_pos (by simpa [ah] using text)]
    exact List.mem_append_right _ (List.mem_singleton_self _)
  have within := fits.strings _ listed
  have number : hiByte (s.scp.lword .eax) = 0x65 := ah
  have mem : v.mem = s.mem := by
    rw [reached.mem, State.entryMem]
    simp [mirrorsDta, usesDta, number]
  have address : selAdrClnt h v v.scp.ds .edx = PathReg.dsDx.client h s := reached.path h .dsDx
  rw [mem, address]
  exact within

theorem dosSetPsp_mem (v : State σ) : (final (dosSetPsp h) v).mem =
    if inDosSpace h v (v.scp.lword .ebx) 0 then v.mem
    else copy v.mem (segoff2linear (dosGetPsp h v) 0) (getSegmentBase h v (v.scp.lword .ebx)) 0x100 := by
  rw [dosSetPsp, final_reads_bind, final_reads_bind, final_reads_bind, final_ite]
  split
  · rfl
  · rfl

theorem branch_agree (host : SteadyHost h) {s v : State σ} (reached : Reached h s v) (fits : FitsBuffer h s)
    (noPath : s.paths = []) {altEnt : Bool} (goes : result (preDos h (dosFn s.ah) s.al) v = .go altEnt)
    (other : s.ah ≠ 0x00) (psp : s.ah = 0x50 → inDosSpace h s (s.scp.lword .ebx) 0 = true) :
    AgreeOn (¬s.OwnArea ·) v.mem (final (preDos h (dosFn s.ah) s.al) v).mem := by
  have clear : ∀ a, ¬s.OwnArea a → ¬(Block.mk (segoff2linear s.emmSeg 0) 0x10000).Covers a :=
    fun a outside covered => outside (.inl covered)
  have quiet := quiet_fills (e := s.emmSeg) (P := (¬s.OwnArea ·)) h
  have buffer : Moves (Fills s.emmSeg (¬s.OwnArea ·)) (transBufferSeg : M σ Word) := fills_transBufferSeg
  have regs : pathRegs s.ah s.al = [] := noPath
  have filled {m : M σ Outcome} {entered : Bool} (going : Going (Fills s.emmSeg (¬s.OwnArea ·)) m)
      (leaves : result m v = .go entered) : AgreeOn (¬s.OwnArea ·) v.mem (final m v).mem :=
    (going v entered leaves reached.buffer).2
  cases fn : dosFn s.ah with
  | setVector | getVector | allocate | free | resize | unsupportedFcb =>
    rw [fn] at goes
    exact filled (.done _) goes
  | terminate => exact absurd (dosFn_terminate fn) other
  | asciiz | exec | rename | extendedOpen =>
    rw [pathRegs, fn] at regs
    cases regs
  | plain => exact .refl _
  | printString => exact filled (.goOn (fills_printString h clear)) rfl
  | setDta =>
    have area : Clear (¬s.OwnArea ·) [dtaBlock (v.places h).lowmem] := by
      refine clear_cons.mpr ⟨fun a outside covered => outside (.inr ?_), clear_nil⟩
      rw [← reached.client]
      exact covered
    exact (spares_dosSetDta host area v rfl).2.2.2
  | fcb =>
    refine filled (.goOn (Moves.bind (quiet.passDs buffer (fills_setRmLword _)) fun _ => ?_)) rfl
    exact fills_copyFromDs h clear _ (by decide)
  | parseFcb | driveParams =>
    refine filled (.goOn ?_) rfl
    exact fills_passTwoWindows h clear fits.below _ _ (by decide) (by decide)
  | getCwd | country => exact filled (.goOn (quiet.passDs buffer (fills_setRmLword _))) rfl
  | setPsp =>
    have table : ∀ ah, dosFn ah = .setPsp → ah = 0x50 := by decide +kernel
    have inDos := psp (table _ fn)
    rw [← inDosSpace_congr h reached.base, ← reached.scp] at inDos
    rw [preDos, goOn, final_bind, final_pure, dosSetPsp_mem, if_pos inDos]
    exact .refl _
  | createPsp => exact filled (.goOn (Moves.bind buffer fun _ => fills_setRmLword _ _)) rfl
  | createSetPsp => exact filled (.goOn (quiet.dosCreateSetPsp (fills_setRmLword _))) rfl
  | read | write => exact filled (.goOn (fills_longIo h _)) rfl
  | redirection =>
    refine filled (.goOn (Moves.onlyIf fun _ => ?_)) rfl
    exact fills_passTwoWindows h clear fits.below _ _ (by decide) (by decide)
  | canonicalize => exact filled (.goOn (fills_canonicalize h clear)) rfl
  | international =>
    have ah := dosFn_international fn
    have text : s.al = 0x22 ∨ s.al = 0xa2 → ∀ a, ¬s.OwnArea a →
        ¬(Block.mk (segoff2linear s.emmSeg 0) (strlen v.mem (selAdrClnt h v v.scp.ds .edx) + 1)).Covers a :=
      fun copied a outside covered => outside (.inl (text_within h reached fits ah copied a covered))
    exact (fills_international h clear s.al text reached.buffer).2
  | lfn =>
    have ah := dosFn_lfn fn
    rw [ah] at regs
    rw [fn] at goes
    exact filled (fills_lfn h clear regs) goes

/-- Up to DOS, a call writes to the areas only. -/
theorem sent_agree (host : SteadyHost h) {s : State σ} (fits : FitsBuffer h s)
    (goes : result (msdosPreExtender h 0x21) s = .rm) (ends : s.ah ≠ 0x00) (exec : s.ah ≠ 0x4b)
    (psp : s.ah = 0x50 → inDosSpace h s (s.scp.lword .ebx) 0 = true) :
    AgreeOn (¬s.OwnArea ·) s.mem (final (msdosPreExtender h 0x21) s).mem := by
  by_cases copied : copiesSegment 0x21 (s.scp.lword .eax) = true
  · rw [pre_mem h host copied]
    refine copy_agree _ fun a outside covered => outside (.inl ?_)
    exact Block.within_of_le (fits.segment copied) a covered
  by_cases noPath : s.paths = []
  · obtain ⟨altEnt, outcome, -⟩ := pre_goes h goes
    have reached := reached_atSwitch h host s
    have mem : (final (msdosPreExtender h 0x21) s).mem = _ :=
      (filledFrom_branch h (Bool.eq_false_iff.mpr copied) outcome).mem
    have entry : AgreeOn (¬s.OwnArea ·) s.mem (s.entryMem h) := by
      intro a outside
      refine entryMem_agree h s a fun b target covered => outside (.inr ?_)
      rw [dtaTargets] at target
      split at target
      · obtain rfl := List.mem_singleton.mp target
        exact covered
      · cases target
    rw [← reached.mem] at entry
    rw [mem]
    exact entry.trans (branch_agree h host reached fits noPath outcome ends psp)
  · intro a outside
    by_contra differs
    rcases (pathsSent_pre h host noPath).changed a differs with path | area | restored
    · obtain ⟨r, passed, covered⟩ := path
      have listed : s.path h r ∈ s.strings h :=
        List.mem_append_left _ (List.mem_map.mpr ⟨r, passed, rfl⟩)
      exact outside (.inl (fits.strings _ listed a covered))
    · obtain ⟨b, listed, covered⟩ := area
      rw [State.parameters, if_neg exec, List.nil_append, dtaTargets] at listed
      split at listed
      · obtain rfl := List.mem_singleton.mp listed
        exact outside (.inr covered)
      · cases listed
    · exact exec restored.1

/-! ## What is sent -/

structure SameCall (s u : State σ) : Prop where
  scp : u.scp = s.scp
  is32 : u.client.is32 = s.client.is32
  base : ∀ sel, getSegmentBase h u sel = getSegmentBase h s sel

theorem sameCall_of {s v w u : State σ} (reached : Reached h s v) (filled : FilledFrom w u)
    (scp : w.scp = v.scp) (is32 : w.client.is32 = v.client.is32) (host : w.host = v.host) :
    SameCall h s u := by
  constructor
  · exact filled.scp.trans (scp.trans reached.scp)
  · exact (congrArg MsdosStruct.is32 filled.client).trans
      (is32.trans (congrArg MsdosStruct.is32 reached.client))
  · intro sel
    have same : u.host = v.host := filled.host.trans host
    rw [← reached.base, getSegmentBase, same]
    rfl

theorem filledFrom_own {s : State σ} {f : DosFn} (fn : dosFn s.ah = f) (own : f ≠ .plain) {altEnt : Bool}
    (goes : result (preDos h f s.al) (s.atSwitch h 0x21) = .go altEnt) :
    FilledFrom (final (preDos h f s.al) (s.atSwitch h 0x21)) (final (msdosPreExtender h 0x21) s).filled := by
  subst fn
  exact filledFrom_branch h (not_copied_of_branch own) goes

theorem entryMem_eq {s : State σ} (noDta : usesDta s.ah = false) : s.entryMem h = s.mem := by
  have unmirrored : mirrorsDta 0x21 s = false := by
    rw [mirrorsDta, show usesDta (hiByte (s.scp.lword .eax)) = false from noDta, Bool.and_false]
  rw [State.entryMem, unmirrored]
  rfl

theorem fcb_sent (host : SteadyHost h) {s : State σ} (fn : dosFn s.ah = .fcb) :
    let u := (final (msdosPreExtender h 0x21) s).filled
    SameCall h s u ∧ u.mem = (s.fcbWindow h).down (s.entryMem h) ∧ u.rmreg.ds = s.emmSeg ∧
      u.rmreg.lword .edx = 0 := by
  have reached := reached_atSwitch h host s
  have filled := filledFrom_own h fn (by decide) rfl
  obtain ⟨trace, pass⟩ := final_passDs .edx (s.atSwitch h 0x21)
  obtain ⟨trace', copied⟩ := final_copyFromDs h .edx 0x50 (final (passDs .edx) (s.atSwitch h 0x21))
  rw [preDos, goOn, final_bind, final_pure, final_bind, copied, pass] at filled
  refine ⟨sameCall_of h reached filled rfl rfl rfl, ?_, filled.ds.trans reached.buffer, ?_⟩
  · rw [filled.mem, State.fcbWindow, Window.down, ← reached.mem, ← reached.buffer]
    exact congrArg (copy _ _ · _) (reached.path h .dsDx)
  · rw [filled.words]
    simp [State.handed, RealModeCallStructure.lword, setGpr]

theorem drive_sent (host : SteadyHost h) {s : State σ} (fn : dosFn s.ah = .driveParams) :
    let u := (final (msdosPreExtender h 0x21) s).filled
    SameCall h s u ∧ u.mem = (s.driveWindow h).down
        (copy (s.entryMem h) (segoff2linear s.emmSeg 0) (selAdrClnt h s s.scp.ds .esi) 0x30) ∧
      u.rmreg.es = s.emmSeg + 3 ∧ u.rmreg.lword .ebp = 0 := by
  have reached := reached_atSwitch h host s
  have filled := filledFrom_own h fn (by decide) rfl
  obtain ⟨trace, run⟩ := passTwoWindows_eq h .esi .ebp 0x30 0x60 3 (s.atSwitch h 0x21)
  rw [preDos, goOn, final_bind, final_pure, run] at filled
  have address := selAdrClnt_congr h reached.base reached.scp (congrArg MsdosStruct.is32 reached.client)
  refine ⟨sameCall_of h reached filled rfl rfl rfl, ?_,
    filled.es.trans (congrArg (· + 3) reached.buffer), ?_⟩
  · rw [filled.mem, State.driveWindow, Window.down, ← reached.mem, ← reached.buffer, ← address, ← address,
      ← reached.scp]
  · rw [filled.words]
    simp [State.handed, RealModeCallStructure.lword, setGpr]

theorem canonicalize_sent (host : SteadyHost h) {s : State σ} (fn : dosFn s.ah = .canonicalize)
    (noDta : usesDta s.ah = false) :
    let u := (final (msdosPreExtender h 0x21) s).filled
    SameCall h s u ∧ u.mem = (firstWindow h s).down s.mem ∧ u.rmreg.es = s.emmSeg + 0x10 ∧
      u.rmreg.lword .edi = 0 := by
  have reached := reached_atSwitch h host s
  have filled := filledFrom_own h fn (by decide) rfl
  obtain ⟨trace, run⟩ := final_transBufferSeg_bind (fun seg => do
    setRmDs seg
    setRmLword .esi 0
    let src ← reads fun s => selAdrClnt h s s.scp.ds .esi
    memcpy (segoff2linear seg 0) src 0x100
    setRmEs (seg + 0x10)
    setRmLword .edi 0) (s.atSwitch h 0x21)
  rw [preDos, goOn, final_bind, final_pure, dosCanonicalize, run] at filled
  refine ⟨sameCall_of h reached filled rfl rfl rfl, ?_,
    filled.es.trans (congrArg (· + 0x10) reached.buffer), ?_⟩
  · rw [filled.mem, firstWindow, Window.down, ← entryMem_eq h noDta, ← reached.mem, ← reached.buffer]
    exact congrArg (copy _ _ · _) (reached.path h .dsSi)
  · rw [filled.words]
    exact congrArg (Option.getD · _) (handed_setRmLword .edi 0 _)

theorem createPsp_sent (host : SteadyHost h) {s : State σ} (fn : dosFn s.ah = .createPsp)
    (noDta : usesDta s.ah = false) :
    let u := (final (msdosPreExtender h 0x21) s).filled
    SameCall h s u ∧ u.mem = s.mem ∧ u.rmreg.lword .edx = s.emmSeg := by
  have reached := reached_atSwitch h host s
  have filled := filledFrom_own h fn (by decide) rfl
  obtain ⟨trace, run⟩ := final_transBufferSeg_bind (fun seg => setRmLword .edx seg) (s.atSwitch h 0x21)
  rw [preDos, goOn, final_bind, final_pure, run] at filled
  refine ⟨sameCall_of h reached filled rfl rfl rfl, ?_, ?_⟩
  · rw [filled.mem, ← entryMem_eq h noDta, ← reached.mem]
    rfl
  · rw [filled.words, ← reached.buffer]
    exact congrArg (Option.getD · _) (handed_setRmLword .edx _ _)

theorem dosCreateSetPsp_outside {v : State σ} (outside : inDosSpace h v (v.scp.lword .edx) 0 = false) :
    final (dosCreateSetPsp h) v = final (setRmLword .edx (dosGetPsp h v))
      (v.withClient fun c => { c with userPspSel := v.scp.lword .edx }) := by
  rw [dosCreateSetPsp, final_reads_bind, final_reads_bind, outside]
  rfl

/-- Inside DOS's own space as well, 55h leaves the client's side alone. -/
theorem createSetPsp_same (host : SteadyHost h) {s : State σ} (fn : dosFn s.ah = .createSetPsp) :
    SameCall h s (final (msdosPreExtender h 0x21) s).filled := by
  have reached := reached_atSwitch h host s
  have filled := filledFrom_own h fn (by decide) rfl
  rw [preDos, goOn, final_bind, final_pure] at filled
  generalize s.atSwitch h 0x21 = v at reached filled
  have branch : (final (dosCreateSetPsp h) v).scp = v.scp ∧
      (final (dosCreateSetPsp h) v).client.is32 = v.client.is32 ∧
      (final (dosCreateSetPsp h) v).host = v.host := by
    have is32 (sel : Word) : (v.withClient fun c => { c with userPspSel := sel }).client.is32 = v.client.is32 := by
      rw [State.client_withClient]
    rw [dosCreateSetPsp, final_reads_bind, final_reads_bind, final_ite]
    split
    · exact ⟨rfl, is32 0, rfl⟩
    · exact ⟨rfl, is32 _, rfl⟩
  exact sameCall_of h reached filled branch.1 branch.2.1 branch.2.2

theorem createSetPsp_sent (host : SteadyHost h) {s : State σ} (fn : dosFn s.ah = .createSetPsp)
    (noDta : usesDta s.ah = false) (unlisted : needXbuf 0x21 (s.scp.lword .eax) = false)
    (outside : inDosSpace h s (s.scp.lword .edx) 0 = false) :
    let u := (final (msdosPreExtender h 0x21) s).filled
    u.mem = s.mem ∧ u.rmreg.lword .edx = dosGetPsp h s := by
  have reached := reached_atSwitch h host s
  have filled := filledFrom_own h fn (by decide) rfl
  rw [← inDosSpace_congr h reached.base, ← reached.scp] at outside
  have psp := psp_atSwitch h unlisted
  rw [preDos, goOn, final_bind, final_pure, dosCreateSetPsp_outside h outside] at filled
  generalize s.atSwitch h 0x21 = v at reached filled psp
  constructor
  · rw [filled.mem, ← entryMem_eq h noDta, ← reached.mem]
    rfl
  · rw [filled.words, ← psp]
    exact congrArg (Option.getD · _) (handed_setRmLword .edx _ _)

theorem setPsp_sent (host : SteadyHost h) {s : State σ} (fn : dosFn s.ah = .setPsp)
    (noDta : usesDta s.ah = false) (unlisted : needXbuf 0x21 (s.scp.lword .eax) = false)
    (outside : inDosSpace h s (s.scp.lword .ebx) 0 = false) :
    (final (msdosPreExtender h 0x21) s).mem =
      copy s.mem (segoff2linear (dosGetPsp h s) 0) (getSegmentBase h s (s.scp.lword .ebx)) 0x100 := by
  have reached := reached_atSwitch h host s
  have filled := filledFrom_own h fn (by decide) rfl
  rw [← inDosSpace_congr h reached.base, ← reached.scp] at outside
  have mem : (final (msdosPreExtender h 0x21) s).mem = _ := filled.mem
  rw [mem, preDos, goOn, final_bind, final_pure, dosSetPsp_mem, outside, reached.mem, entryMem_eq h noDta,
    reached.base, reached.scp, psp_atSwitch h unlisted]
  rfl

/-! ## The copies that come back -/

theorem dosRet_numbers : ∀ {ah}, (dosRet ah = .fcb → dosFn ah = .fcb) ∧ (dosRet ah = .parseFcb → ah = 0x29) ∧
    (dosRet ah = .driveParams → ah = 0x53) := by
  decide +kernel

theorem dosRet_answers : ∀ {ah}, (dosRet ah = .setPsp → ah = 0x50) ∧ (dosRet ah = .createPsp → ah = 0x26) ∧
    (dosRet ah = .createSetPsp → ah = 0x55) ∧ (dosRet ah = .canonicalize → ah = 0x60) ∧
    (dosRet ah = .exec → ah = 0x4b) := by
  decide +kernel

theorem searchSent_within {s : State σ} (fits : FitsBuffer h s) {b : Block} (listed : b ∈ s.searchSent h) :
    b.Within s.transferBuffer := by
  unfold State.searchSent at listed
  split_ifs at listed with fcb findFirst
  · obtain rfl := List.mem_singleton.mp listed
    exact Block.within_of_le (by decide)
  · obtain rfl := List.mem_singleton.mp listed
    refine fits.strings _ (List.mem_append_left _ (List.mem_map.mpr ⟨.dsDx, ?_, rfl⟩))
    rw [State.paths, findFirst]
    exact List.mem_singleton_self _
  · cases listed

section Sent

variable {h} (host : SteadyHost h) {s : State σ} (fits : FitsBuffer h s) {Client : Dword → Prop}
  (apart : RegionsApart h Client s)
include host fits apart

theorem dta_sent (mirrors : mirrorsDta 0x21 s = true) {a : Dword} (shown : (s.dtaWindow h).Shows a) :
    (final (msdosPreExtender h 0x21) s).mem ((s.dtaWindow h).copyOf a) = s.mem a := by
  have search : usesDta s.ah = true := by
    rw [mirrorsDta, Bool.and_eq_true] at mirrors
    exact mirrors.2
  have inDta : (dtaBlock s.client.lowmemSeg).Covers ((s.dtaWindow h).copyOf a) := Window.holds_copyOf shown
  have kept := (searchSent_pre h host search).mem _ fun b sent covered =>
    apart.dta _ (searchSent_within h fits sent _ covered) inDta
  rw [kept, State.entryMem, if_pos mirrors]
  exact Window.down_copyOf s.mem shown

theorem shared_sent {w : Window} (listed : w ∈ s.sharedWindows h) {a : Dword} (shown : w.Shows a) :
    (final (msdosPreExtender h 0x21) s).mem (w.copyOf a) = s.mem a := by
  rcases List.mem_append.mp listed with dta | segment
  · split at dta
    next mirrors =>
      obtain rfl := List.mem_singleton.mp dta
      exact dta_sent host fits apart mirrors shown
    next => cases dta
  · split at segment
    next copied =>
      obtain rfl := List.mem_singleton.mp segment
      rw [pre_mem h host copied]
      exact Window.down_copyOf s.mem shown
    next => cases segment

theorem branch_sent {w : Window} (listed : w ∈ s.branchWindows h) {a : Dword} (shown : w.Shows a) :
    (final (msdosPreExtender h 0x21) s).mem (w.copyOf a) = s.mem a := by
  have own : ¬s.OwnArea a := apart.windows w (List.mem_append_right _ listed) a shown
  have entry : s.entryMem h a = s.mem a := by
    refine entryMem_agree h s a fun b target covered => own (.inr ?_)
    rw [dtaTargets] at target
    split at target
    · obtain rfl := List.mem_singleton.mp target
      exact covered
    · cases target
  have two {k : Nat} (service : secondLength (s.scp.lword .eax) = some k)
      (among : w ∈ [firstWindow h s, secondWindow h s k]) :
      (final (msdosPreExtender h 0x21) s).mem (w.copyOf a) = s.mem a := by
    have small := (twoWindows_tables service).2.2.2
    have room : (0x10 : Word).toNat * 16 + k ≤ 0x10000 := by
      have start : (0x10 : Word).toNat = 16 := rfl
      omega
    have mem : (final (msdosPreExtender h 0x21) s).mem = _ := (windowsSent_pre h host service).mem
    have client : ¬Buffered (firstWindow h s) (secondWindow h s k) a := by
      rintro (held | held)
      · exact own (.inl (Block.within_of_le (by decide : 0x100 ≤ 0x10000) a held))
      · exact own (.inl (part_within fits.below room a held))
    rw [mem]
    refine downBoth_copy s.mem (windows_apart h s small) client ?_
    rcases List.mem_pair.mp among with rfl | rfl
    · exact .inl ⟨shown, rfl⟩
    · exact .inr ⟨shown, rfl⟩
  unfold State.branchWindows at listed
  split at listed
  next ret =>
    obtain rfl := List.mem_singleton.mp listed
    have mem : (final (msdosPreExtender h 0x21) s).mem = _ := (fcb_sent h host (dosRet_numbers.1 ret)).2.1
    rw [mem, Window.down_copyOf _ shown, entry]
  next ret =>
    have ah : hiByte (s.scp.lword .eax) = 0x29 := dosRet_numbers.2.1 ret
    exact two (by simp [secondLength, ah]) listed
  next ret =>
    have ah : hiByte (s.scp.lword .eax) = 0x5f := dosRet_redirection ret
    split at listed
    next al =>
      refine two ?_ listed
      obtain ⟨low, high⟩ := Bool.and_eq_true_iff.mp al
      have inside : 2 ≤ loByte (s.scp.lword .eax) ∧ loByte (s.scp.lword .eax) ≤ 6 :=
        ⟨of_decide_eq_true low, of_decide_eq_true high⟩
      rw [secondLength, if_neg (by rw [ah]; decide), if_pos ⟨ah, inside⟩]
    next => cases listed
  next ret =>
    obtain rfl := List.mem_singleton.mp listed
    have fn : dosFn s.ah = .driveParams := by
      rw [dosRet_numbers.2.2 ret]
      rfl
    have mem : (final (msdosPreExtender h 0x21) s).mem = _ := (drive_sent h host fn).2.1
    have outside : ¬(Block.mk (segoff2linear s.emmSeg 0) 0x30).Covers a := fun covered =>
      own (.inl (Block.within_of_le (by decide) a covered))
    rw [mem, Window.down_copyOf _ shown]
    exact (if_neg outside).trans entry
  next => cases listed

/-- DOS has every byte that comes back, and the client's memory is as it was. -/
theorem inStep_sent (goes : result (msdosPreExtender h 0x21) s = .rm) (ends : s.ah ≠ 0x00) (exec : s.ah ≠ 0x4b)
    (psp : s.ah = 0x50 → inDosSpace h s (s.scp.lword .ebx) 0 = true) :
    InStep (¬s.OwnArea ·) (s.copiedBack h) s.mem (final (msdosPreExtender h 0x21) s).mem := by
  refine ⟨sent_agree h host fits goes ends exec psp, fun w listed a shown => ?_⟩
  rcases List.mem_append.mp listed with shared | branch
  · exact shared_sent host fits apart shared shown
  · exact branch_sent host fits apart branch shown

end Sent

/-! ## The way back -/

def Heeds (s t : State σ) : Prop := rmFailed s = true → rmFailed t = true ∧ t.mem = s.mem

instance : IsPreorder (State σ) Heeds where
  refl _ failed := ⟨failed, rfl⟩
  trans _ _ _ first second failed := by
    obtain ⟨still, same⟩ := first failed
    obtain ⟨after, same'⟩ := second still
    exact ⟨after, same'.trans same⟩

theorem heeds_unlessFailed (m : M σ Unit) : Moves Heeds (unlessFailed m) := by
  intro s failed
  rw [unlessFailed, final_reads_bind, failed]
  exact ⟨failed, rfl⟩

theorem heeds_preserveGpr (r : Gpr) : Moves Heeds (preserveGpr r : M σ Unit) := fun _ failed => ⟨failed, rfl⟩

theorem heeds_retLfn (al : Byte) : Moves Heeds (retLfn h al) := by
  unfold retLfn
  split_ifs
  · exact heeds_preserveGpr _
  · refine Moves.bind (heeds_preserveGpr _) fun _ => Moves.bind (heeds_preserveGpr _) fun _ => ?_
    exact heeds_unlessFailed _
  · exact Moves.bind (heeds_preserveGpr _) fun _ => heeds_unlessFailed _
  · exact Moves.bind (heeds_preserveGpr _) fun _ => heeds_unlessFailed _
  · refine Moves.bind (heeds_preserveGpr _) fun _ => Moves.bind (heeds_preserveGpr _) fun _ => ?_
    exact heeds_unlessFailed _
  · exact heeds_preserveGpr _
  · refine Moves.bind (heeds_preserveGpr _) fun _ => Moves.bind (heeds_preserveGpr _) fun _ => ?_
    exact Moves.bind (moves_reads _) fun cx => heeds_unlessFailed _
  · exact Moves.bind (heeds_preserveGpr _) fun _ => heeds_unlessFailed _
  · exact moves_pure _

/-- The branches that copy back whatever DOS has done. -/
def DosRet.heedless : DosRet → Bool
  | .fcb | .parseFcb | .createSetPsp | .createPsp | .exec | .driveParams | .redirection | .canonicalize => true
  | _ => false

theorem postDos_failed {f : DosRet} (heeds : f.heedless = false) (al : Byte) {w : State σ}
    (failed : rmFailed w = true) : (final (postDos h f al) w).mem = w.mem := by
  have quiet := mem_quiet h
  have reg (r : Gpr) (v : Dword) : Moves (Keeps State.mem) (setReg r v : M σ Unit) := fun _ => rfl
  have still {m : M σ Unit} (moves : Moves (Keeps State.mem) m) : (final m w).mem = w.mem := moves w
  have kept {m : M σ Unit} (moves : Moves Heeds m) : (final m w).mem = w.mem := (moves w failed).2
  cases f with
  | terminate | keepEdx | setPsp | extendedOpen => exact kept (heeds_preserveGpr _)
  | rename => exact kept (Moves.bind (heeds_preserveGpr _) fun _ => heeds_preserveGpr _)
  | other => rfl
  | getDta =>
    refine still (Moves.bind (moves_reads _) fun t => Moves.ite (fun _ => ?_) fun _ => ?_)
    · exact Moves.bind (quiet.setRegEs _) fun _ => reg _ _
    · exact Moves.bind quiet.selectorForEs fun _ => reg _ _
  | farPointer => exact still quiet.selectorForEs
  | extendedError =>
    exact still (Moves.bind (moves_reads _) fun ax => Moves.onlyIf fun _ => quiet.selectorForEs)
  | getPsp =>
    refine still (Moves.bind (moves_reads _) fun t => Moves.ite (fun _ => reg _ _) fun _ => ?_)
    exact Moves.bind (quiet.convertSegmentToDescriptorLim _ _) fun sel => reg _ _
  | serverCall => exact still (Moves.onlyIf fun _ => quiet.selectorForDs)
  | leadByte => exact still (Moves.bind (moves_reads _) fun rmAl => Moves.onlyIf fun _ => quiet.selectorForDs)
  | longIo =>
    refine still (Moves.bind (moves_reads _) fun io => Moves.bind ?_ fun _ _ => rfl)
    unfold retIoError
    split
    · exact Moves.bind (quiet.setRegEflags _) fun _ => reg _ _
    · exact quiet.setRegEflags _
  | country =>
    refine kept (Moves.bind (moves_reads _) fun dx => Moves.onlyIf fun _ => ?_)
    exact Moves.bind (heeds_preserveGpr _) fun _ => heeds_unlessFailed _
  | getCwd => exact kept (Moves.bind (heeds_preserveGpr _) fun _ => heeds_unlessFailed _)
  | international =>
    refine kept (Moves.bind (heeds_preserveGpr _) fun _ => Moves.bind (heeds_preserveGpr _) fun _ => ?_)
    exact Moves.bind (moves_reads _) fun s => heeds_unlessFailed _
  | lfn => exact kept (heeds_retLfn h al)
  | fcb | parseFcb | createSetPsp | createPsp | exec | driveParams | redirection | canonicalize =>
    cases heeds

/-! ## From DOS to the switch -/

def callPart (s : State σ) : Sigcontext × σ × Word := (s.scp, s.host, s.emmSeg)

theorem callPart_copiesIn (intr : Nat) : Moves (Keeps callPart) (do
    copyDsegIn h intr
    copyEsegIn h intr) := by
  have buffer : Moves (Keeps callPart) (transBufferSeg : M σ Word) := Moves.transBufferSeg fun _ _ => rfl
  have copied (sel : State σ → Word) : Moves (Keeps callPart) (do
      let sel ← reads sel
      let src ← reads fun s => getSegmentBase h s sel
      let dst ← transBufferSeg
      let limit ← reads fun s => getSegmentLimit h s sel
      memcpy (segoff2linear dst 0) src (segmentLen limit)) := by
    refine Moves.bind (moves_reads _) fun sel => Moves.bind (moves_reads _) fun src => ?_
    exact Moves.bind buffer fun dst => Moves.bind (moves_reads _) fun limit _ => rfl
  refine Moves.bind (Moves.bind (moves_reads _) fun ax => Moves.onlyIf fun _ => ?_) fun _ =>
    Moves.bind (moves_reads _) fun ax => Moves.onlyIf fun _ => ?_
  · exact Moves.bind buffer fun seg => Moves.bind (fun _ => rfl) fun _ => copied _
  · exact Moves.bind buffer fun seg => Moves.bind (fun _ => rfl) fun _ => copied _

theorem segment_kept (host : SteadyHost h) {s : State σ}
    (copied : copiesSegment 0x21 (s.scp.lword .eax) = true) :
    let u := final (msdosPreExtender h 0x21) s
    u.scp = s.scp ∧ u.emmSeg = s.emmSeg ∧
      ∀ sel, getSegmentBase h u sel = getSegmentBase h s sel ∧
        getSegmentLimit h u sel = getSegmentLimit h s sel := by
  have listed := needXbuf_of_copied copied
  have outcome : s.outcome h 0x21 = .go false := by
    rw [State.outcome, listed, preSwitch_copied h copied]
    rfl
  have switched : s.switched h 0x21 = s.atSwitch h 0x21 := by
    rw [State.switched, listed, preSwitch_copied h copied]
    rfl
  have whole : callPart (final (msdosPreExtender h 0x21) s) =
      callPart (final (do copyDsegIn h 0x21; copyEsegIn h 0x21) (s.atSwitch h 0x21)) := by
    rw [final_pre, outcome, switched]
    rfl
  have reached := reached_atSwitch h host s
  have same := whole.trans (callPart_copiesIn h 0x21 (s.atSwitch h 0x21))
  have memory : (final (msdosPreExtender h 0x21) s).host = (s.atSwitch h 0x21).host :=
    congrArg (fun c => c.2.1) same
  refine ⟨(congrArg Prod.fst same).trans reached.scp, (congrArg (fun c => c.2.2) same).trans reached.buffer,
    fun sel => ?_⟩
  obtain ⟨base, limit⟩ := segment_atSwitch h host 0x21 s sel
  rw [← base, ← limit, getSegmentBase, getSegmentLimit, memory]
  exact ⟨rfl, rfl⟩

theorem shared_returned (host : SteadyHost h) {s t : State σ}
    (goes : result (msdosPreExtender h 0x21) s = .rm)
    (failed : FailedService h (final (msdosPreExtender h 0x21) s).filled t) :
    ∃ trace, unpacked h 0x21 t =
      { t with updateMask := ~~~0, trace := trace, mem := upAll (s.sharedWindows h) t.mem } := by
  have number : t.scp.lword .eax = s.scp.lword .eax := by
    rw [failed.scp]
    exact congrArg loWord (down_client goes (by simp))
  by_cases copied : copiesSegment 0x21 (s.scp.lword .eax) = true
  · obtain ⟨scp, buffer, kept⟩ := segment_kept h host copied
    have again : copiesSegment 0x21 (t.scp.lword .eax) = true := number ▸ copied
    have scp' : t.scp = s.scp := failed.scp.trans scp
    have buffer' : t.emmSeg = s.emmSeg := failed.buffer.trans buffer
    have selector : copiedSelector 0x21 t = copiedSelector 0x21 s := by
      rw [copiedSelector, scp']
      rfl
    have window : s.sharedWindows h =
        [⟨getSegmentBase h t (copiedSelector 0x21 t), segoff2linear t.emmSeg 0,
          segmentLen (getSegmentLimit h t (copiedSelector 0x21 t))⟩] := by
      have base := (failed.base (copiedSelector 0x21 s)).trans (kept _).1
      have limit := (failed.limit (copiedSelector 0x21 s)).trans (kept _).2
      rw [State.sharedWindows, not_mirrorsDta copied, copied, selector, base, limit, buffer']
      rfl
    obtain ⟨trace, run⟩ := postCopies_eq h again
    rw [unpacked, run, window]
    exact ⟨trace, rfl⟩
  have apart : needCopyDseg 0x21 (s.scp.lword .eax) = false ∧ needCopyEseg 0x21 (s.scp.lword .eax) = false := by
    simpa [copiesSegment] using copied
  rw [unpacked, postCopies_unsegmented h (number ▸ apart.1) (number ▸ apart.2)]
  refine ⟨t.trace, ?_⟩
  have none : copiesSegment 0x21 (s.scp.lword .eax) = false := Bool.eq_false_iff.mpr copied
  cases search : usesDta s.ah with
  | false =>
    have unmirrored (v : State σ) (same : v.scp.lword .eax = s.scp.lword .eax) : mirrorsDta 0x21 v = false := by
      rw [mirrorsDta, same, show usesDta (hiByte (s.scp.lword .eax)) = false from search, Bool.and_false]
    rw [unmirrored t number, State.sharedWindows, unmirrored s rfl, none]
    rfl
  | true =>
    have sent := searchSent_pre h host search
    have other : s.ah ≠ 0x1a := by
      intro ah
      rw [ah] at search
      cases search
    have client : t.client = s.client := failed.client.trans sent.client
    have is32 : t.clntIs32 = s.clntIs32 := failed.is32.trans (congrArg Prod.snd (dtaPart_pre h other))
    have base (sel : Word) : getSegmentBase h t sel = getSegmentBase h s sel :=
      (failed.base sel).trans (sent.base sel)
    have mirrors : mirrorsDta 0x21 t = mirrorsDta 0x21 s := by rw [mirrorsDta, client, number]; rfl
    have above : dtaOver1MB h t = dtaOver1MB h s := by
      rw [dtaOver1MB, dtaOver1MB, selAdr, selAdr, selAdrLdt, selAdrLdt, client, is32, base]
    have under : dtaUnder1MB t = dtaUnder1MB s := by rw [dtaUnder1MB, client]; rfl
    rw [mirrors, above, under, State.sharedWindows, none]
    cases mirrorsDta 0x21 s with
    | false => rfl
    | true => rfl

theorem SameCall.failed {s u t : State σ} (same : SameCall h s u) (failed : FailedService h u t) :
    SameCall h s t :=
  ⟨failed.scp.trans same.scp, (congrArg MsdosStruct.is32 failed.client).trans same.is32,
    fun sel => (failed.base sel).trans (same.base sel)⟩

def State.upWindows (s : State σ) : List Window :=
  s.branchWindows h ++ if dosRet s.ah = .setPsp then [] else (s.overwritten h).toList

theorem switch_returned (host : SteadyHost h) {s t v : State σ} (exec : s.ah ≠ 0x4b)
    (failed : FailedService h (final (msdosPreExtender h 0x21) s).filled t)
    (same : v.scp = t.scp ∧ v.client = t.client ∧ v.host = t.host ∧ v.rmreg = t.rmreg) :
    (final (postDos h (dosRet s.ah) s.al) v).mem = upAll (s.upWindows h) v.mem := by
  obtain ⟨scp, client, segments, rmreg⟩ := same
  have here {u : State σ} (call : SameCall h s u) (of : FailedService h u t) : SameCall h s v := by
    have there := call.failed h of
    refine ⟨scp.trans there.scp, (congrArg MsdosStruct.is32 client).trans there.is32, fun sel => ?_⟩
    rw [← there.base, getSegmentBase, segments]
    rfl
  have left {f : DosRet} (ret : dosRet s.ah = f) (heeds : f.heedless = false)
      (none : s.upWindows h = []) :
      (final (postDos h f s.al) v).mem = upAll (s.upWindows h) v.mem := by
    rw [none]
    refine postDos_failed h heeds s.al ?_
    rw [rmFailed, rmreg]
    exact failed.failed
  have two {k : Nat} (service : secondLength (s.scp.lword .eax) = some k) :
      (final (postDos h (dosRet s.ah) s.al) v).mem = upAll [firstWindow h s, secondWindow h s k] v.mem := by
    have sent := windowsSent_pre h host service
    have call := here ⟨sent.scp, sent.is32, sent.base⟩ failed
    have si : v.rmreg.lword .esi = 0 := by rw [rmreg, failed.words _ (by decide), sent.si]
    have di : v.rmreg.lword .edi = 0 := by rw [rmreg, failed.words _ (by decide), sent.di]
    have run := postSwitch_twoWindows h service si di
    rw [selAdrClnt_congr h call.base call.scp call.is32, selAdrClnt_congr h call.base call.scp call.is32,
      rmDsAdr, rmEsAdr, rmreg, failed.ds, failed.es, sent.ds, sent.es, call.scp] at run
    exact run
  cases ret : dosRet s.ah with
  | exec => exact absurd (dosRet_answers.2.2.2.2 ret) exec
  | fcb =>
    obtain ⟨call, -, ds, dx⟩ := fcb_sent h host (dosRet_numbers.1 ret)
    have call := here call failed
    have windows : s.upWindows h = [s.fcbWindow h] := by
      simp [State.upWindows, State.branchWindows, State.overwritten, ret]
    have run : (final (postDos h .fcb s.al) v).mem =
        copy v.mem (selAdrClnt h v v.scp.ds .edx) (rmDsAdr v (v.rmreg.lword .edx)) 0x50 := rfl
    rw [run, windows, selAdrClnt_congr h call.base call.scp call.is32, call.scp, rmDsAdr, rmreg, failed.ds, ds,
      failed.words _ (by decide), dx]
    rfl
  | parseFcb =>
    have ah : hiByte (s.scp.lword .eax) = 0x29 := dosRet_numbers.2.1 ret
    have windows : s.upWindows h = [firstWindow h s, secondWindow h s 0x50] := by
      simp [State.upWindows, State.branchWindows, State.overwritten, ret]
    rw [windows, ← ret]
    exact two (by simp [secondLength, ah])
  | redirection =>
    have ah : hiByte (s.scp.lword .eax) = 0x5f := dosRet_redirection ret
    cases al : (2 ≤ s.al && s.al ≤ 6 : Bool) with
    | false =>
      have windows : s.upWindows h = [] := by
        simp only [State.upWindows, State.branchWindows, State.overwritten, ret]
        rw [al]
        rfl
      rw [windows, postDos, al]
      rfl
    | true =>
      obtain ⟨low, high⟩ := Bool.and_eq_true_iff.mp al
      have inside : 2 ≤ loByte (s.scp.lword .eax) ∧ loByte (s.scp.lword .eax) ≤ 6 :=
        ⟨of_decide_eq_true low, of_decide_eq_true high⟩
      have windows : s.upWindows h = [firstWindow h s, secondWindow h s 0x100] := by
        simp only [State.upWindows, State.branchWindows, State.overwritten, ret]
        rw [al]
        rfl
      rw [windows, ← ret]
      exact two (by rw [secondLength, if_neg (by rw [ah]; decide), if_pos ⟨ah, inside⟩])
  | driveParams =>
    have fn : dosFn s.ah = .driveParams := by
      rw [dosRet_numbers.2.2 ret]
      rfl
    obtain ⟨call, -, es, bp⟩ := drive_sent h host fn
    have call := here call failed
    have windows : s.upWindows h = [s.driveWindow h] := by
      simp [State.upWindows, State.branchWindows, State.overwritten, ret]
    have run : (final (postDos h .driveParams s.al) v).mem =
        copy v.mem (selAdrClnt h v v.scp.es .ebp) (rmEsAdr v (v.rmreg.lword .ebp)) 0x60 := rfl
    rw [run, windows, selAdrClnt_congr h call.base call.scp call.is32, call.scp, rmEsAdr, rmreg, failed.es, es,
      failed.words _ (by decide), bp]
    rfl
  | canonicalize =>
    have ah : s.ah = 0x60 := dosRet_answers.2.2.2.1 ret
    have noDta : usesDta s.ah = false := by rw [ah]; rfl
    have fn : dosFn s.ah = .canonicalize := by rw [ah]; rfl
    obtain ⟨call, -, es, di⟩ := canonicalize_sent h host fn noDta
    have call := here call failed
    have windows : s.upWindows h = [secondWindow h s 0x80] := by
      simp [State.upWindows, State.branchWindows, State.overwritten, ret]
      rfl
    have run : (final (postDos h .canonicalize s.al) v).mem =
        copy v.mem (selAdrClnt h v v.scp.es .edi) (rmEsAdr v (v.rmreg.lword .edi)) 0x80 := rfl
    rw [run, windows, selAdrClnt_congr h call.base call.scp call.is32, call.scp, rmEsAdr, rmreg, failed.es, es,
      failed.words _ (by decide), di]
    rfl
  | createPsp =>
    have ah : s.ah = 0x26 := dosRet_answers.2.1 ret
    have noDta : usesDta s.ah = false := by rw [ah]; rfl
    have fn : dosFn s.ah = .createPsp := by rw [ah]; rfl
    obtain ⟨call, -, dx⟩ := createPsp_sent h host fn noDta
    have call := here call failed
    have windows : s.upWindows h =
        [⟨getSegmentBase h s (s.scp.lword .edx), segoff2linear s.emmSeg 0, 0x100⟩] := by
      simp [State.upWindows, State.branchWindows, State.overwritten, ret]
    have run : (final (postDos h .createPsp s.al) v).mem =
        copy v.mem (getSegmentBase h v (v.scp.lword .edx)) (segoff2linear (v.rmreg.lword .edx) 0) 0x100 := rfl
    rw [run, windows, call.base, call.scp, rmreg, failed.words _ (by decide), dx]
    rfl
  | createSetPsp =>
    have ah : s.ah = 0x55 := dosRet_answers.2.2.1 ret
    have noDta : usesDta s.ah = false := by rw [ah]; rfl
    have fn : dosFn s.ah = .createSetPsp := by rw [ah]; rfl
    have call := here (createSetPsp_same h host fn) failed
    have branch : (final (postDos h .createSetPsp s.al) v).mem =
        (final (onlyIf (!inDosSpace h s (s.scp.lword .edx) 0) (retCreatePsp h))
          (final (preserveGpr .edx) v)).mem := by
      rw [postDos, final_bind, final_reads_bind, ← inDosSpace_congr h call.base, ← call.scp]
      rfl
    rw [branch]
    cases inDos : inDosSpace h s (s.scp.lword .edx) 0 with
    | true =>
      have windows : s.upWindows h = [] := by
        simp only [State.upWindows, State.branchWindows, State.overwritten, ret]
        rw [inDos]
        rfl
      rw [windows]
      rfl
    | false =>
      have unlisted : needXbuf 0x21 (s.scp.lword .eax) = false := by
        have number : hiByte (s.scp.lword .eax) = 0x55 := ah
        simp [needXbuf, needCopyDseg, needCopyEseg, needXbufDos, number]
      obtain ⟨-, dx⟩ := createSetPsp_sent h host fn noDta unlisted inDos
      have windows : s.upWindows h =
          [⟨getSegmentBase h s (s.scp.lword .edx), segoff2linear (dosGetPsp h s) 0, 0x100⟩] := by
        simp only [State.upWindows, State.branchWindows, State.overwritten, ret]
        rw [inDos]
        rfl
      have run : (final (onlyIf true (retCreatePsp h)) (final (preserveGpr .edx) v)).mem =
          copy v.mem (getSegmentBase h v (v.scp.lword .edx)) (segoff2linear (v.rmreg.lword .edx) 0) 0x100 := rfl
      rw [windows, Bool.not_false, run, call.base, call.scp, rmreg, failed.words _ (by decide), dx]
      rfl
  | _ => exact left ret rfl (by simp [State.upWindows, State.branchWindows, State.overwritten, ret])

/-- The memory that the client gets back from a failed call. -/
theorem call_returned (host : SteadyHost h) {s t : State σ} (goes : result (msdosPreExtender h 0x21) s = .rm)
    (exec : s.ah ≠ 0x4b) (failed : FailedService h (final (msdosPreExtender h 0x21) s).filled t) :
    (final (msdosPostExtender h 0x21) t).mem = upAll (s.sharedWindows h ++ s.upWindows h) t.mem := by
  have number : t.scp.lword .eax = s.scp.lword .eax := by
    rw [failed.scp]
    exact congrArg loWord (down_client goes (by simp))
  obtain ⟨trace, shared⟩ := shared_returned h host goes failed
  have branch : postSwitch h 0x21 (t.scp.lword .eax) = postDos h (dosRet s.ah) s.al := by
    rw [number]
    rfl
  have same : (unpacked h 0x21 t).scp = t.scp ∧ (unpacked h 0x21 t).client = t.client ∧
      (unpacked h 0x21 t).host = t.host ∧ (unpacked h 0x21 t).rmreg = t.rmreg := by
    rw [shared]
    exact ⟨rfl, rfl, rfl, rfl⟩
  have mem : (unpacked h 0x21 t).mem = upAll (s.sharedWindows h) t.mem := by rw [shared]
  rw [mem_post, branch, switch_returned h host exec failed same, mem, upAll, upAll, upAll, List.foldl_append]

/-! ## What a failed call leaves -/

theorem held_own {s : State σ} (fits : FitsBuffer h s) {w : Window} (listed : w ∈ s.copiedBack h) {x : Dword}
    (held : w.Holds x) : s.OwnArea x := by
  have buffer {n : Nat} {start : Dword} (inside : (Block.mk start n).Within s.transferBuffer)
      (covered : (Block.mk start n).Covers x) : s.OwnArea x := .inl (inside x covered)
  have part {k : Nat} (small : k ≤ 0x100)
      (covered : (Block.mk (segoff2linear (s.emmSeg + 0x10) 0) k).Covers x) : s.OwnArea x := by
    refine buffer (part_within fits.below ?_) covered
    have start : (0x10 : Word).toNat = 16 := rfl
    omega
  have two {k : Nat} (small : k ≤ 0x100) (among : w ∈ [firstWindow h s, secondWindow h s k]) : s.OwnArea x := by
    rcases List.mem_pair.mp among with rfl | rfl
    · exact buffer (Block.within_of_le (by decide : 0x100 ≤ 0x10000)) held
    · exact part small held
  rcases List.mem_append.mp listed with shared | branch
  · rcases List.mem_append.mp shared with dta | segment
    · split at dta
      next =>
        obtain rfl := List.mem_singleton.mp dta
        exact .inr held
      next => cases dta
    · split at segment
      next copied =>
        obtain rfl := List.mem_singleton.mp segment
        exact buffer (Block.within_of_le (fits.segment copied)) held
      next => cases segment
  · unfold State.branchWindows at branch
    split at branch
    next =>
      obtain rfl := List.mem_singleton.mp branch
      exact buffer (Block.within_of_le (by decide : 0x50 ≤ 0x10000)) held
    next => exact two (by decide) branch
    next =>
      split at branch
      next => exact two (by decide) branch
      next => cases branch
    next =>
      obtain rfl := List.mem_singleton.mp branch
      exact buffer (part_within fits.below (by decide : (3 : Word).toNat * 16 + 0x60 ≤ 0x10000)) held
    next => cases branch

def overwrites (ah : Byte) : Bool := ah = 0x50 || ah = 0x26 || ah = 0x55 || ah = 0x60

theorem overwrites_tables : ∀ {ah}, overwrites ah = true →
    usesDta ah = false ∧ dosFn ah ≠ .plain ∧ ah ≠ 0x29 ∧ dosRet ah ≠ .fcb ∧ dosRet ah ≠ .parseFcb ∧
      dosRet ah ≠ .redirection ∧ dosRet ah ≠ .driveParams := by
  decide +kernel

theorem overwrites_of {s : State σ} {w : Window} (overwritten : s.overwritten h = some w) :
    overwrites s.ah = true := by
  unfold State.overwritten at overwritten
  split at overwritten
  next ret => rw [dosRet_answers.1 ret]; rfl
  next ret => rw [dosRet_answers.2.1 ret]; rfl
  next ret => rw [dosRet_answers.2.2.1 ret]; rfl
  next ret => rw [dosRet_answers.2.2.2.1 ret]; rfl
  next => cases overwritten

theorem overwritten_alone {s : State σ} (overwriting : overwrites s.ah = true) : s.copiedBack h = [] := by
  obtain ⟨noDta, own, -, noFcb, noParse, noRedirection, noParams⟩ := overwrites_tables overwriting
  have unmirrored : mirrorsDta 0x21 s = false := by
    rw [mirrorsDta, show usesDta (hiByte (s.scp.lword .eax)) = false from noDta, Bool.and_false]
  have shared : s.sharedWindows h = [] := by
    rw [State.sharedWindows, unmirrored, not_copied_of_branch own]
    rfl
  have branch : s.branchWindows h = [] := by
    unfold State.branchWindows
    split
    next ret => exact absurd ret noFcb
    next ret => exact absurd ret noParse
    next ret => exact absurd ret noRedirection
    next ret => exact absurd ret noParams
    next => rfl
  rw [State.copiedBack, shared, branch]
  rfl

/-- What is copied over the client's bytes is what was there before the call. -/
theorem overwritten_returned (host : SteadyHost h) {s t : State σ} {Client : Dword → Prop}
    (goes : result (msdosPreExtender h 0x21) s = .rm) (apart : RegionsApart h Client s)
    (failed : FailedService h (final (msdosPreExtender h 0x21) s).filled t) {w : Window}
    (overwritten : s.overwritten h = some w) :
    ∃ m, (final (msdosPostExtender h 0x21) t).mem = w.up m ∧ AgreeOn Client s.mem m ∧
      ∀ a, w.Shows a → m (w.copyOf a) = s.mem (w.copyOf a) := by
  have overwriting := overwrites_of h overwritten
  obtain ⟨noDta, own, -⟩ := overwrites_tables overwriting
  have alone := List.append_eq_nil_iff.mp (overwritten_alone h overwriting)
  have exec : s.ah ≠ 0x4b := fun exec => by
    rw [exec] at overwriting
    cases overwriting
  have back := call_returned h host goes exec failed
  rw [alone.1, State.upWindows, alone.2, overwritten, failed.mem] at back
  have unlisted (number : s.ah = 0x50 ∨ s.ah = 0x55) : needXbuf 0x21 (s.scp.lword .eax) = false := by
    have number : hiByte (s.scp.lword .eax) = 0x50 ∨ hiByte (s.scp.lword .eax) = 0x55 := number
    rcases number with ah | ah
    · simp [needXbuf, needCopyDseg, needCopyEseg, needXbufDos, ah]
    · simp [needXbuf, needCopyDseg, needCopyEseg, needXbufDos, ah]
  unfold State.overwritten at overwritten
  split at overwritten
  next ret =>
    have ah := dosRet_answers.1 ret
    split at overwritten
    next => cases overwritten
    next outside =>
      obtain rfl := Option.some.inj overwritten
      rw [ret] at back
      have sent := setPsp_sent h host (by rw [ah]; rfl) noDta (unlisted (.inl ah)) (Bool.eq_false_iff.mpr outside)
      exact ⟨s.mem, back.trans sent, .refl _, fun _ _ => rfl⟩
  next ret =>
    obtain rfl := Option.some.inj overwritten
    have ah := dosRet_answers.2.1 ret
    rw [ret] at back
    have sent := (createPsp_sent h host (by rw [ah]; rfl) noDta).2.1
    exact ⟨_, back, sent ▸ .refl _, fun a _ => congrFun sent _⟩
  next ret =>
    have ah := dosRet_answers.2.2.1 ret
    split at overwritten
    next => cases overwritten
    next outside =>
      obtain rfl := Option.some.inj overwritten
      rw [ret] at back
      have sent := (createSetPsp_sent h host (by rw [ah]; rfl) noDta (unlisted (.inr ah))
        (Bool.eq_false_iff.mpr outside)).1
      exact ⟨_, back, sent ▸ .refl _, fun a _ => congrFun sent _⟩
  next ret =>
    obtain rfl := Option.some.inj overwritten
    have ah := dosRet_answers.2.2.2.1 ret
    rw [ret] at back
    have sent : (final (msdosPreExtender h 0x21) s).mem = _ := (canonicalize_sent h host (by rw [ah]; rfl) noDta).2.1
    refine ⟨_, back, fun a inside => ?_, fun a shown => ?_⟩
    · have outside : ¬(firstWindow h s).Holds a := fun held =>
        apart.client a inside (.inl (Block.within_of_le (by decide : 0x100 ≤ 0x10000) a held))
      exact (congrFun sent a).trans (Window.down_other _ outside)
    · have behind : ¬(firstWindow h s).Holds ((secondWindow h s 0x80).copyOf a) := fun held =>
        windows_apart h s (by decide) _ held (Window.holds_copyOf shown)
      exact (congrFun sent _).trans (Window.down_other _ behind)
  next => cases overwritten

/-- A call that DOS fails leaves the client's memory as it was, except for what four functions copy over
the client's bytes without having had them first. -/
theorem failed_call_iff (host : SteadyHost h) {s t : State σ} {Client : Dword → Prop}
    (goes : result (msdosPreExtender h 0x21) s = .rm) (ends : s.ah ≠ 0x00) (exec : s.ah ≠ 0x4b)
    (fits : FitsBuffer h s) (apart : RegionsApart h Client s)
    (failed : FailedService h (final (msdosPreExtender h 0x21) s).filled t) :
    (∀ a, Client a → (final (msdosPostExtender h 0x21) t).mem a = s.mem a) ↔
      ∀ w, s.overwritten h = some w → ∀ a, Client a → w.Shows a → s.mem (w.copyOf a) = s.mem a := by
  cases overwritten : s.overwritten h with
  | none =>
    have psp : s.ah = 0x50 → inDosSpace h s (s.scp.lword .ebx) 0 = true := by
      intro ah
      have ret : dosRet s.ah = .setPsp := by rw [ah]; rfl
      unfold State.overwritten at overwritten
      rw [ret] at overwritten
      by_contra outside
      rw [Bool.not_eq_true] at outside
      simp only [outside] at overwritten
      cases overwritten
    have back := call_returned h host goes exec failed
    have windows : s.upWindows h = s.branchWindows h := by
      rw [State.upWindows, overwritten, Option.toList_none, ite_self, List.append_nil]
    rw [windows, failed.mem] at back
    have step := (inStep_sent host fits apart goes ends exec psp).upAll fun w listed v among x held shown =>
      apart.windows w listed x shown (held_own h fits among held)
    refine ⟨fun _ w some => ?_, fun _ a inside => ?_⟩
    · cases some
    · rw [back]
      exact step.client a (apart.client a inside)
  | some w =>
    obtain ⟨m, back, agree, copies⟩ := overwritten_returned h host goes apart failed overwritten
    rw [back]
    constructor
    · rintro kept v same a inside shown
      obtain rfl := Option.some.inj same
      rw [← kept a inside, Window.up_shown m shown, copies a shown]
    · intro same a inside
      by_cases shown : w.Shows a
      · rw [Window.up_shown m shown, copies a shown, same w rfl a inside shown]
      · rw [Window.up_other m shown, agree a inside]

def canonicalClient : State Bump :=
  { bumpStart.withGpr fun
      | .eax => 0x6000
      | .esi => 0x1000
      | .edi => 0x2000
      | _ => 0 with
    mem := store (fun _ => 0) 0x2000 [0x41] }

def canonicalFailed : State Bump :=
  let u := (final (msdosPreExtender bumpHost 0x21) canonicalClient).filled
  { u with rmreg := { u.rmreg with flags := 1 } }

theorem failed_call_canonicalize :
    ¬∀ a, a = (0x2000 : Dword) → (final (msdosPostExtender bumpHost 0x21) canonicalFailed).mem a =
      canonicalClient.mem a := by
  have goes : result (msdosPreExtender bumpHost 0x21) canonicalClient = .rm := by decide +kernel
  have none : canonicalClient.copiedBack bumpHost = [] := by decide +kernel
  have fits : FitsBuffer bumpHost canonicalClient :=
    ⟨by decide, fun copied => absurd copied (by decide), by
      have strings : canonicalClient.strings bumpHost = [] := by decide +kernel
      simp [strings]⟩
  have apart : RegionsApart bumpHost (· = 0x2000) canonicalClient := by
    constructor
    · rintro a rfl (buffer | dta)
      · revert buffer
        decide
      · revert dta
        decide
    · simp [none]
    · intro a buffer dta
      simp only [Block.Covers, offset, State.transferBuffer, dtaBlock] at *
      have start : segoff2linear canonicalClient.emmSeg 0 = 0xd0000 := by decide
      have below : segoff2linear (canonicalClient.client.lowmemSeg + DTA_Para_ADD) 0 = 0 := by decide
      rw [start] at buffer
      rw [below] at dta
      bv_omega
  have failed : FailedService bumpHost (final (msdosPreExtender bumpHost 0x21) canonicalClient).filled
      canonicalFailed :=
    ⟨rfl, rfl, rfl, fun _ => rfl, fun _ => rfl, rfl, rfl, rfl, rfl, fun _ _ => rfl, by decide +kernel⟩
  rw [failed_call_iff bumpHost steadyHost_bump goes (by decide) (by decide) fits apart failed]
  intro same
  have window : canonicalClient.overwritten bumpHost = some ⟨0x2000, 0xd0100, 0x80⟩ := by decide +kernel
  have byte := same _ window 0x2000 rfl (by decide)
  revert byte
  decide +kernel

end Pmdapi
