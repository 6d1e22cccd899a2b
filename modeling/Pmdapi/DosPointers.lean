import Pmdapi.RealModeEntry

/-! The pointers and segments that are taken as being in DOS space: their address is passed on in a
16-bit segment and a 16-bit offset. -/

namespace Pmdapi
open Bytes Effect

/-! ## Paragraphs -/

theorem paragraph_toNat {base : Dword} (aligned : base &&& 0xf = 0) :
    (loWord (base >>> 4)).toNat * 16 = base.toNat % 0x100000 := by
  have low : base.toNat % 16 = 0 := by
    have bits := congrArg BitVec.toNat aligned
    rw [BitVec.toNat_and] at bits
    exact (Nat.and_two_pow_sub_one_eq_mod base.toNat 4).symm.trans bits
  rw [loWord, BitVec.toNat_setWidth, BitVec.toNat_ushiftRight, Nat.shiftRight_eq_div_pow]
  omega

theorem loWord_toNat (off : Dword) : (loWord off).toNat = off.toNat % 0x10000 := BitVec.toNat_setWidth _ _

variable {σ : Type} (h : DpmiHost σ)

theorem aligned_of_inDosSpace {s : State σ} {sel : Word} {off : Dword}
    (accepted : inDosSpace h s sel off = true) : getSegmentBase h s sel &&& 0xf = 0 := by
  simp only [inDosSpace, Bool.and_eq_true, decide_eq_true_eq] at accepted
  exact accepted.2

/-! ## The four operands -/

/-- The pointers that `in_dos_space` is asked about. -/
inductive DosPointer where
  | setDta | setPsp | createSetPsp | parent
  deriving DecidableEq, Repr

def State.withReturn (s : State σ) : State σ :=
  let address := segoff2linear (dosGetPsp h s) 0xa
  { s with mem := writeWord (writeWord s.mem address s.rmreg.ip) (address + 2) s.rmreg.cs }

def State.parentLink (s : State σ) : Word :=
  readWord (s.withReturn h).mem (segoff2linear (dosGetPsp h s) 0x16)

namespace DosPointer

def PassedBy (intr : Nat) (ax : Word) : DosPointer → Prop
  | .setDta => intr = 0x21 ∧ hiByte ax = 0x1a
  | .setPsp => intr = 0x21 ∧ hiByte ax = 0x50
  | .createSetPsp => intr = 0x21 ∧ hiByte ax = 0x55
  | .parent => terminates intr ax = true

def selector (s : State σ) : DosPointer → Word
  | .setDta => s.scp.ds
  | .setPsp => s.scp.lword .ebx
  | .createSetPsp => s.scp.lword .edx
  | .parent => s.parentLink h

def offset (s : State σ) : DosPointer → Dword
  | .setDta => s.d16_32 (s.scp.gpr .edx)
  | _ => 0

/-- The operand is taken as being in DOS space. A parent has to be a PSP, and not one that its
segment leads to. -/
def Accepted (s : State σ) (p : DosPointer) : Prop :=
  inDosSpace h s (p.selector h s) (p.offset s) = true ∧
    (p = .parent →
      readWord (s.withReturn h).mem (segoff2linear (s.parentLink h) 0) ≠ 0x20cd ∧
      validAndUsedSelector h s (s.parentLink h) = true ∧
      getSegmentLimit h s (s.parentLink h) ≥ 0xff ∧
      readWord (s.withReturn h).mem (getSegmentBase h s (s.parentLink h)) = 0x20cd)

/-- The linear address that the real-mode side gets. -/
def passed (s t : State σ) : DosPointer → Nat
  | .setDta => t.filled.rmreg.ds.toNat * 16 + (t.filled.rmreg.lword .edx).toNat
  | .setPsp => (t.filled.rmreg.lword .ebx).toNat * 16
  | .createSetPsp => (t.filled.rmreg.lword .edx).toNat * 16
  | .parent => (parentPsp h (s.withReturn h) (s.parentLink h)).toNat * 16

end DosPointer

/-! ## What is passed -/

theorem parentPsp_accepted {s : State σ} (accepted : DosPointer.Accepted h s .parent) :
    parentPsp h (s.withReturn h) (s.parentLink h) =
      loWord (getSegmentBase h s (s.parentLink h) >>> 4) := by
  obtain ⟨inDos, rest⟩ := accepted
  obtain ⟨other, used, limit, psp⟩ := rest rfl
  have aligned := aligned_of_inDosSpace h inDos
  have tests : (validAndUsedSelector h (s.withReturn h) (s.parentLink h) &&
      inDosSpace h (s.withReturn h) (s.parentLink h) 0 &&
      getSegmentLimit h (s.withReturn h) (s.parentLink h) ≥ 0xff) = true := by
    simp only [Bool.and_eq_true, decide_eq_true_eq]
    exact ⟨⟨used, inDos⟩, limit⟩
  rw [parentPsp, if_neg other, if_pos tests]
  exact if_pos ⟨aligned, psp⟩

theorem dosSetDta_inDos {s : State σ} (accepted : DosPointer.Accepted h s .setDta) :
    (final (dosSetDta h) s).rmreg.ds = loWord (getSegmentBase h s s.scp.ds >>> 4) ∧
      (final (dosSetDta h) s).handed .edx = s.handed .edx ∧ (final (dosSetDta h) s).scp = s.scp := by
  have inDos : inDosSpace h s s.scp.ds (s.d16_32 (s.scp.gpr .edx)) = true := accepted.1
  have branch : final (dosSetDta h) s = final (do
      setRmDs (loWord (getSegmentBase h s s.scp.ds >>> 4))
      setClient fun c => { c with userDtaSel := 0 }) s := by
    rw [dosSetDta, final_reads_bind, final_reads_bind, final_reads_bind, inDos]
    rfl
  rw [branch]
  exact ⟨rfl, ((passes_effect h).rmDs _ s).2 trivial, rfl⟩

theorem dosSetPsp_inDos {s : State σ} (accepted : DosPointer.Accepted h s .setPsp) :
    (final (dosSetPsp h) s).handed .ebx = some (loWord (getSegmentBase h s (s.scp.lword .ebx) >>> 4)) ∧
      (final (dosSetPsp h) s).scp = s.scp := by
  have inDos : inDosSpace h s (s.scp.lword .ebx) 0 = true := accepted.1
  rw [dosSetPsp, final_reads_bind, final_reads_bind, final_reads_bind, inDos]
  exact ⟨handed_setRmLword .ebx _ s, rfl⟩

theorem dosCreateSetPsp_inDos {s : State σ} (accepted : DosPointer.Accepted h s .createSetPsp) :
    (final (dosCreateSetPsp h) s).handed .edx =
        some (loWord (getSegmentBase h s (s.scp.lword .edx) >>> 4)) ∧
      (final (dosCreateSetPsp h) s).scp = s.scp := by
  have inDos : inDosSpace h s (s.scp.lword .edx) 0 = true := accepted.1
  rw [dosCreateSetPsp, final_reads_bind, final_reads_bind, inDos]
  exact ⟨handed_setRmLword .edx _ s, rfl⟩

theorem switched_dos {s : State σ} {f : DosFn} (fn : dosFn (hiByte (s.scp.lword .eax)) = f)
    (unlisted : needXbuf 0x21 (s.scp.lword .eax) = false) (noDta : mirrorsDta 0x21 s = false) :
    s.switched h 0x21 = final (preDos h f (loByte (s.scp.lword .eax))) s.entered ∧
      s.outcome h 0x21 = result (preDos h f (loByte (s.scp.lword .eax))) s.entered := by
  subst fn
  rw [State.switched, State.outcome, atSwitch_entered h unlisted noDta]
  exact ⟨rfl, rfl⟩

theorem filled_dos {s : State σ} {f : DosFn} (fn : dosFn (hiByte (s.scp.lword .eax)) = f)
    (direct : f = .setDta ∨ f = .setPsp ∨ f = .createSetPsp) {u : State σ}
    (branch : final (preDos h f (loByte (s.scp.lword .eax))) s.entered = u)
    (same : u.scp = s.scp) :
    let t := final (msdosPreExtender h 0x21) s
    t.filled.rmreg.ds = u.rmreg.ds ∧
      ∀ r, t.filled.rmreg.lword r = (u.handed r).getD (s.scp.lword r) := by
  have table : ∀ ah, dosFn ah = .setDta ∨ dosFn ah = .setPsp ∨ dosFn ah = .createSetPsp →
      ah = 0x1a ∨ ah = 0x50 ∨ ah = 0x55 := by decide +kernel
  have ah := table _ (fn ▸ direct)
  have unlisted : needXbuf 0x21 (s.scp.lword .eax) = false := by
    rcases ah with ah | ah | ah
    all_goals simp [needXbuf, needCopyDseg, needCopyEseg, needXbufDos, ah]
  have noDta : mirrorsDta 0x21 s = false := by
    rcases ah with ah | ah | ah
    all_goals simp [mirrorsDta, usesDta, ah]
  obtain ⟨switched, left⟩ := switched_dos h fn unlisted noDta
  rw [branch] at switched
  have outcome : s.outcome h 0x21 = .go false := by
    rcases direct with rfl | rfl | rfl
    all_goals exact left
  have down := filledFrom_pre h outcome (not_needCopyDseg unlisted) (not_needCopyEseg unlisted)
  rw [switched] at down
  exact ⟨down.ds, fun r => (down.words r).trans (by rw [same])⟩

theorem passed_setDta {s : State σ} (ah : hiByte (s.scp.lword .eax) = 0x1a)
    (accepted : DosPointer.Accepted h s .setDta) (free : maskHas s.rMask (.gpr .edx) = false) :
    DosPointer.passed h s (final (msdosPreExtender h 0x21) s) .setDta =
      (getSegmentBase h s s.scp.ds).toNat % 0x100000 + (s.d16_32 (s.scp.gpr .edx)).toNat % 0x10000 := by
  have fn : dosFn (hiByte (s.scp.lword .eax)) = .setDta := by rw [ah]; rfl
  have inDos : DosPointer.Accepted h s.entered .setDta := accepted
  obtain ⟨segment, unset, same⟩ := dosSetDta_inDos h inDos
  obtain ⟨ds, words⟩ := filled_dos h (u := final (dosSetDta h) s.entered) fn (.inl rfl) rfl same
  have none : s.entered.handed .edx = none := if_neg (Bool.eq_false_iff.mp free)
  have dx : (final (msdosPreExtender h 0x21) s).filled.rmreg.lword .edx = s.scp.lword .edx := by
    rw [words, unset, none]
    rfl
  have aligned : getSegmentBase h s s.scp.ds &&& 0xf = 0 := aligned_of_inDosSpace h accepted.1
  rw [← paragraph_toNat aligned, ← loWord_toNat,
    loWord_d16_32, DosPointer.passed, ds, dx, segment]
  rfl

theorem passed_setPsp {s : State σ} (ah : hiByte (s.scp.lword .eax) = 0x50)
    (accepted : DosPointer.Accepted h s .setPsp) :
    DosPointer.passed h s (final (msdosPreExtender h 0x21) s) .setPsp =
      (getSegmentBase h s (s.scp.lword .ebx)).toNat % 0x100000 := by
  have fn : dosFn (hiByte (s.scp.lword .eax)) = .setPsp := by rw [ah]; rfl
  have inDos : DosPointer.Accepted h s.entered .setPsp := accepted
  obtain ⟨segment, same⟩ := dosSetPsp_inDos h inDos
  obtain ⟨-, words⟩ := filled_dos h (u := final (dosSetPsp h) s.entered) fn (.inr (.inl rfl)) rfl same
  have aligned : getSegmentBase h s (s.scp.lword .ebx) &&& 0xf = 0 := aligned_of_inDosSpace h accepted.1
  rw [← paragraph_toNat aligned,
    DosPointer.passed, words, segment]
  rfl

theorem passed_createSetPsp {s : State σ} (ah : hiByte (s.scp.lword .eax) = 0x55)
    (accepted : DosPointer.Accepted h s .createSetPsp) :
    DosPointer.passed h s (final (msdosPreExtender h 0x21) s) .createSetPsp =
      (getSegmentBase h s (s.scp.lword .edx)).toNat % 0x100000 := by
  have fn : dosFn (hiByte (s.scp.lword .eax)) = .createSetPsp := by rw [ah]; rfl
  have inDos : DosPointer.Accepted h s.entered .createSetPsp := accepted
  obtain ⟨segment, same⟩ := dosCreateSetPsp_inDos h inDos
  obtain ⟨-, words⟩ := filled_dos h (u := final (dosCreateSetPsp h) s.entered) fn (.inr (.inr rfl)) rfl same
  have aligned : getSegmentBase h s (s.scp.lword .edx) &&& 0xf = 0 := aligned_of_inDosSpace h accepted.1
  rw [← paragraph_toNat aligned,
    DosPointer.passed, words, segment]
  rfl

theorem parentPsp_congr {s u : State σ} (mem : u.mem = s.mem) (host : u.host = s.host) (link : Word) :
    parentPsp h u link = parentPsp h s link := by
  simp only [parentPsp, validAndUsedSelector, inDosSpace, getSegmentBase, getSegmentLimit, mem, host]
  rfl

theorem readWord_onlyIf (a : Dword) (v : Word) (s : State σ) :
    readWord (final (onlyIf (v ≠ readWord s.mem a) (writeWordAt a v)) s).mem a = v := by
  rw [final_onlyIf]
  split
  next => exact readWord_writeWord s.mem a v
  next kept => exact (not_not.mp fun other => kept (decide_eq_true other)).symm

/-- The parent that is found goes into the PSP; if there is none, the PSP becomes its own. -/
theorem oldDosTerminate_parent (s : State σ) :
    readWord (final (oldDosTerminate h) s).mem (segoff2linear (dosGetPsp h s) 0x16) =
      if parentPsp h (s.withReturn h) (s.parentLink h) = 0 then dosGetPsp h s
      else parentPsp h (s.withReturn h) (s.parentLink h) := by
  rw [oldDosTerminate, final_reads_bind, final_reads_bind, final_bind, final_bind, final_bind]
  have stored : ∀ u : State σ, u.mem = (s.withReturn h).mem → u.host = s.host →
      readWord (final (do
        let link ← reads fun s' => readWord s'.mem (segoff2linear (dosGetPsp h s) 0x16)
        let found ← reads fun s => parentPsp h s link
        let parent := if found = 0 then dosGetPsp h s else found
        onlyIf (parent ≠ link) (writeWordAt (segoff2linear (dosGetPsp h s) 0x16) parent)) u).mem
          (segoff2linear (dosGetPsp h s) 0x16) =
      if parentPsp h (s.withReturn h) (s.parentLink h) = 0 then dosGetPsp h s
      else parentPsp h (s.withReturn h) (s.parentLink h) := by
    intro u mem host
    have link : readWord u.mem (segoff2linear (dosGetPsp h s) 0x16) = s.parentLink h := by
      rw [mem]
      rfl
    rw [final_reads_bind, final_reads_bind, link, parentPsp_congr (s := s.withReturn h) h mem host, ← link]
    exact readWord_onlyIf _ _ u
  exact stored _ rfl rfl

theorem parent_stored {intr : Nat} {s : State σ} (ends : terminates intr (s.scp.lword .eax) = true)
    (goes : result (msdosPreExtender h intr) s = .rm) :
    readWord (final (msdosPreExtender h intr) s).mem (segoff2linear (dosGetPsp h s) 0x16) =
      if parentPsp h (s.withReturn h) (s.parentLink h) = 0 then dosGetPsp h s
      else parentPsp h (s.withReturn h) (s.parentLink h) := by
  have unlisted := needXbuf_terminates ends
  have noDta : mirrorsDta intr s = false := by
    simp only [terminates, Bool.or_eq_true, Bool.and_eq_true, decide_eq_true_eq] at ends
    rcases ends with rfl | ⟨rfl, ah⟩
    · simp [mirrorsDta]
    · simp [mirrorsDta, usesDta, ah]
  obtain ⟨altEnt, outcome, parts⟩ := pre_goes h goes
  have branch : (s.switched h intr).mem = (final (oldDosTerminate h) s.entered).mem := by
    rw [State.switched, atSwitch_entered h unlisted noDta]
    exact preSwitch_terminates (R := Keeps State.mem) h _ ends (fun _ => rfl) (fun _ => rfl) _
  rw [← eax_switched h outcome] at unlisted
  rw [parts, preFinish, final_bind, final_bind, copyDsegIn_unlisted h unlisted,
    copyEsegIn_unlisted h unlisted]
  have same : (final (preReturn h intr altEnt) (s.switched h intr)).mem = (s.switched h intr).mem := by
    cases altEnt <;> rfl
  rw [same, branch]
  exact oldDosTerminate_parent h s.entered

/-- The linear address that is passed, with what the 16-bit registers have no room for lost. -/
theorem passed_eq {p : DosPointer} {intr : Nat} {s : State σ} (call : p.PassedBy intr (s.scp.lword .eax))
    (accepted : p.Accepted h s) (free : p = .setDta → maskHas s.rMask (.gpr .edx) = false) :
    p.passed h s (final (msdosPreExtender h intr) s) =
      (getSegmentBase h s (p.selector h s)).toNat % 0x100000 + (p.offset s).toNat % 0x10000 := by
  cases p with
  | setDta =>
    obtain ⟨rfl, ah⟩ := call
    exact passed_setDta h ah accepted (free rfl)
  | setPsp =>
    obtain ⟨rfl, ah⟩ := call
    exact passed_setPsp h ah accepted
  | createSetPsp =>
    obtain ⟨rfl, ah⟩ := call
    exact passed_createSetPsp h ah accepted
  | parent =>
    rw [DosPointer.passed, parentPsp_accepted h accepted]
    exact paragraph_toNat (aligned_of_inDosSpace h accepted.1)

/-- The pointer keeps its address, DX being left to the client, just if its base is below 1 MiB and its
offset below 64 KiB. -/
theorem dos_pointer_iff {p : DosPointer} {intr : Nat} {s : State σ}
    (call : p.PassedBy intr (s.scp.lword .eax)) (accepted : p.Accepted h s)
    (free : p = .setDta → maskHas s.rMask (.gpr .edx) = false) :
    p.passed h s (final (msdosPreExtender h intr) s) =
        (getSegmentBase h s (p.selector h s)).toNat + (p.offset s).toNat ↔
      (getSegmentBase h s (p.selector h s)).toNat < 0x100000 ∧ (p.offset s).toNat < 0x10000 := by
  rw [passed_eq h call accepted free]
  omega

def lowClient (gpr : Gpr → Dword) (base : Dword) : State Bump :=
  { bumpStart with
    host := ⟨0, fun _ => base⟩
    scp := { bumpStart.scp with gpr := gpr, ds := 0x0f }
    rMask := regBit .cs ||| regBit .eip }

def dtaCall : State Bump := lowClient (fun | .eax => 0x1a00 | .edx => 0x80 | _ => 0) 0x20000

theorem dos_pointer_dta :
    DosPointer.passed bumpHost dtaCall (final (msdosPreExtender bumpHost 0x21) dtaCall) .setDta =
      0x20080 := by
  have accepted : DosPointer.Accepted bumpHost dtaCall .setDta := ⟨by decide, nofun⟩
  have keeps := dos_pointer_iff (p := .setDta) bumpHost (s := dtaCall) ⟨rfl, rfl⟩ accepted fun _ => by decide
  exact keeps.mpr (by decide)

def highPspCall : State Bump := lowClient (fun | .eax => 0x5000 | .ebx => 0x0f | _ => 0) 0x100000

/-- The PSP is at 1 MiB, and its paragraph has 17 bits. -/
theorem dos_pointer_high :
    DosPointer.Accepted bumpHost highPspCall .setPsp ∧
      getSegmentBase bumpHost highPspCall (DosPointer.selector bumpHost highPspCall .setPsp) = 0x100000 ∧
      DosPointer.passed bumpHost highPspCall (final (msdosPreExtender bumpHost 0x21) highPspCall) .setPsp =
        0 :=
  ⟨⟨by decide, nofun⟩, by decide, by decide⟩

end Pmdapi
