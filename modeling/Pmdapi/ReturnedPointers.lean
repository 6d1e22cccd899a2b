import Pmdapi.RealModeEntry

/-! The services that answer with a segment, most with an offset in it: the client needs a selector. -/

namespace Pmdapi
open Bytes Effect

/-! ## The answers -/

/-- The branches of `msdos_post_extender` that turn a segment into a selector. -/
inductive ReturnedPointer where
  | font | configuration | dta | dosData | psp | errorPointer | swappable | leadBytes | mouseRoutine
  deriving DecidableEq, Repr

namespace ReturnedPointer

def ReturnedBy (intr : Nat) (ax : Word) (rmreg : RealModeCallStructure) : ReturnedPointer → Prop
  | .font => intr = 0x10 ∧ ax = 0x1130
  | .configuration => intr = 0x15 ∧ hiByte ax = 0xc0 ∧ rmreg.flags &&& loWord CF = 0
  | .dta => intr = 0x21 ∧ hiByte ax = 0x2f
  | .dosData => intr = 0x21 ∧ (hiByte ax = 0x34 ∨ hiByte ax = 0x52)
  | .psp => intr = 0x21 ∧ (hiByte ax = 0x51 ∨ hiByte ax = 0x62)
  | .errorPointer => intr = 0x21 ∧ hiByte ax = 0x59 ∧ rmreg.lword .eax = 0x22
  | .swappable => intr = 0x21 ∧ hiByte ax = 0x5d ∧ (loByte ax = 0x06 ∨ loByte ax = 0x0b)
  | .leadBytes => intr = 0x21 ∧ hiByte ax = 0x63 ∧ loByte ax = 0 ∧ loByte (rmreg.lword .eax) = 0
  | .mouseRoutine => intr = 0x33 ∧ ax = 0x19

def segment (rmreg : RealModeCallStructure) : ReturnedPointer → Word
  | .psp | .mouseRoutine => rmreg.lword .ebx
  | .swappable | .leadBytes => rmreg.ds
  | _ => rmreg.es

def selector (scp : Sigcontext) : ReturnedPointer → Word
  | .psp | .mouseRoutine => scp.lword .ebx
  | .swappable | .leadBytes => scp.ds
  | _ => scp.es

/-- The register of the offset; a PSP starts its segment. -/
def offset : ReturnedPointer → Option Gpr
  | .font => some .ebp
  | .psp => none
  | .errorPointer => some .edi
  | .swappable | .leadBytes => some .esi
  | .mouseRoutine => some .edx
  | _ => some .ebx

end ReturnedPointer

variable {σ : Type} (h : DpmiHost σ)

/-- The answer is the DTA below 1 MiB, which stands for the client's. -/
def IsOwnDta (p : ReturnedPointer) (t : State σ) : Prop :=
  p = .dta ∧ rmEsAdr t (t.rmreg.lword .ebx) = dtaUnder1MB t

/-- The answer is the PSP that stands for the client's. -/
def IsOwnPsp (p : ReturnedPointer) (t : State σ) : Prop :=
  p = .psp ∧ t.rmreg.lword .ebx = dosGetPsp h t ∧ t.client.userPspSel ≠ 0

/-- What the client finds, in `u`, for the answer that the service left, in `t`. -/
structure Translated (p : ReturnedPointer) (t u : State σ) : Prop where
  dta : IsOwnDta p t → t.client.userDtaSel ≠ 0 ∧ u.scp.es = t.client.userDtaSel ∧
    u.scp.gpr .ebx = t.client.userDtaOff
  psp : IsOwnPsp h p t → u.scp.lword .ebx = t.client.userPspSel
  base : ¬IsOwnDta p t → ¬IsOwnPsp h p t →
    getSegmentBase h u (p.selector u.scp) = zext (p.segment t.rmreg) <<< 4
  offset : ¬IsOwnDta p t → ∀ r, p.offset = some r → u.scp.gpr r = zext (t.rmreg.lword r)

/-! ## The conversions -/

/-- A host whose descriptors get the base they are given, and keep it when they get a limit and rights. -/
structure SetsBases : Prop where
  placed : ∀ b base, let new := h.perform (.allocateLdtDescriptors 1) b
    h.getSegmentBaseAddress (h.perform (.setSegmentBaseAddress (loWord new.1) base) new.2).2
      (loWord new.1) = base
  limited : ∀ b sel limit q, h.getSegmentBaseAddress (h.perform (.setSegmentLimit sel limit) b).2 q =
    h.getSegmentBaseAddress b q
  armed : ∀ b sel rights q,
    h.getSegmentBaseAddress (h.perform (.setDescriptorAccessRights sel rights) b).2 q =
      h.getSegmentBaseAddress b q

/-- Segments can be converted: the host gives a descriptor with their base, and the map has room and is
right. -/
structure Converts (s : State σ) : Prop where
  granted : ∀ segment, let new := h.perform (.segmentToDescriptor segment) s.host
    h.getSegmentBaseAddress new.2 (loWord new.1) = zext segment <<< 4
  allocated : loWord (h.perform (.allocateLdtDescriptors 1) s.host).1 ≠ 0
  room : ∃ i, (s.client.segSelMap i).sel = 0
  mapped : ∀ i, (s.client.segSelMap i).sel ≠ 0 →
    getSegmentBase h s (s.client.segSelMap i).sel = zext (s.client.segSelMap i).seg <<< 4

def State.opened (t : State σ) : State σ := { t with updateMask := ~~~0 }

variable {h}

theorem Converts.opened {s : State σ} (converts : Converts h s) : Converts h s.opened :=
  ⟨converts.granted, converts.allocated, converts.room, converts.mapped⟩

theorem convertLim_base (host : SetsBases h) {s : State σ} (converts : Converts h s) (segment : Word)
    (limit : Dword) :
    getSegmentBase h (final (convertSegmentToDescriptorLim h segment limit) s)
      (result (convertSegmentToDescriptorLim h segment limit) s) = zext segment <<< 4 := by
  obtain ⟨j, empty⟩ := converts.room
  have ends : ∃ i, segSelSlot s.client.segSelMap segment limit = some i := by
    apply Slots.firstWhere_isSome (j := j)
    simp [empty]
  obtain ⟨i, slot⟩ := ends
  have fits := Slots.firstWhere_holds slot
  rw [convertSegmentToDescriptorLim, final_reads_bind, result_bind, result_reads, final_reads, slot]
  dsimp only
  by_cases used : (s.client.segSelMap i).sel = 0
  · have new : result (allocateDescriptors h 1) s ≠ 0 := converts.allocated
    rw [if_neg (not_not.mpr used), final_bind, result_bind, if_neg new]
    calc
      _ = h.getSegmentBaseAddress _ _ := (host.armed _ _ _ _).trans (host.limited _ _ _ _)
      _ = zext segment <<< 4 := host.placed s.host _
  · have same : (s.client.segSelMap i).seg = segment := by
      have listed : (s.client.segSelMap i).sel = 0 ∨
          (s.client.segSelMap i).seg = segment ∧ (s.client.segSelMap i).lim = limit := by simpa using fits
      exact (listed.resolve_left used).1
    rw [if_pos used, ← same]
    exact converts.mapped i used

/-! ## The way back -/

theorem retGetDta_own {s : State σ} (own : rmEsAdr s (s.rmreg.lword .ebx) = dtaUnder1MB s) :
    final (retGetDta h) s = final (do
      setRegEs s.client.userDtaSel
      setReg .ebx s.client.userDtaOff) s := by
  rw [retGetDta, final_reads_bind, id, if_pos own]

theorem retGetDta_foreign {s : State σ} (foreign : ¬rmEsAdr s (s.rmreg.lword .ebx) = dtaUnder1MB s) :
    final (retGetDta h) s = final (do
      selectorForEs h
      setReg .ebx (zext (s.rmreg.lword .ebx))) s := by
  rw [retGetDta, final_reads_bind, id, if_neg foreign]

theorem retGetPsp_own {s : State σ} (own : s.rmreg.lword .ebx = dosGetPsp h s ∧ s.client.userPspSel ≠ 0) :
    final (retGetPsp h) s = final (setReg .ebx (zext s.client.userPspSel)) s := by
  rw [retGetPsp, final_reads_bind, id, if_pos own]

theorem retGetPsp_foreign {s : State σ}
    (foreign : ¬(s.rmreg.lword .ebx = dosGetPsp h s ∧ s.client.userPspSel ≠ 0)) :
    final (retGetPsp h) s = final (do
      let sel ← convertSegmentToDescriptorLim h (s.rmreg.lword .ebx) 0xff
      setReg .ebx (zext sel)) s := by
  rw [retGetPsp, final_reads_bind, id, if_neg foreign]

section Answer

variable {p : ReturnedPointer} {intr : Nat}

theorem pointer_tables {ax : Word} {rmreg : RealModeCallStructure} (call : p.ReturnedBy intr ax rmreg) :
    needXbuf intr ax = false ∧ (intr = 0x21 → usesDta (hiByte ax) = false) := by
  cases p with
  | font | mouseRoutine =>
    obtain ⟨rfl, rfl⟩ := call
    decide
  | configuration =>
    obtain ⟨rfl, -, -⟩ := call
    simp [needXbuf, needCopyDseg, needCopyEseg]
  | dta =>
    obtain ⟨rfl, ah⟩ := call
    simp [needXbuf, needCopyDseg, needCopyEseg, needXbufDos, usesDta, ah]
  | dosData | psp =>
    obtain ⟨rfl, ah | ah⟩ := call
    all_goals simp [needXbuf, needCopyDseg, needCopyEseg, needXbufDos, usesDta, ah]
  | swappable =>
    obtain ⟨rfl, ah, al | al⟩ := call
    all_goals simp [needXbuf, needCopyDseg, needCopyEseg, needXbufDos, usesDta, ah, al]
  | errorPointer | leadBytes =>
    obtain ⟨rfl, ah, -⟩ := call
    simp [needXbuf, needCopyDseg, needCopyEseg, needXbufDos, usesDta, ah]

/-- The offset comes with the general transfer, but for 2Fh. -/
theorem offset_free {ax : Word} {rmreg : RealModeCallStructure} (call : p.ReturnedBy intr ax rmreg)
    (other : p ≠ .dta) {r : Gpr} (offset : p.offset = some r) : r ∉ kept intr ax := by
  cases p with
  | dta => contradiction
  | psp => cases offset
  | font | mouseRoutine =>
    cases offset
    obtain ⟨rfl, rfl⟩ := call
    decide
  | configuration =>
    cases offset
    obtain ⟨rfl, -, -⟩ := call
    simp [kept]
  | dosData =>
    cases offset
    obtain ⟨rfl, ah | ah⟩ := call
    all_goals simp [kept, dosRet, ah, DosRet.keeps]
  | errorPointer | swappable | leadBytes =>
    cases offset
    obtain ⟨rfl, ah, -⟩ := call
    simp [kept, dosRet, ah, DosRet.keeps]

theorem ebx_kept {ax : Word} {rmreg : RealModeCallStructure} (call : p.ReturnedBy intr ax rmreg)
    (set : p = .dta ∨ p = .psp ∨ p = .mouseRoutine) : .ebx ∈ kept intr ax := by
  rcases set with rfl | rfl | rfl
  · obtain ⟨rfl, ah⟩ := call
    simp [kept, dosRet, ah, DosRet.keeps]
  · obtain ⟨rfl, ah | ah⟩ := call
    all_goals simp [kept, dosRet, ah, DosRet.keeps]
  · obtain ⟨rfl, rfl⟩ := call
    decide

variable {t : State σ} (call : p.ReturnedBy intr (t.scp.lword .eax) t.rmreg)
include call

theorem unpacked_pointer : unpacked h intr t = t.opened := by
  obtain ⟨unlisted, noDta⟩ := pointer_tables call
  apply unpacked_eq h (not_needCopyDseg unlisted) (not_needCopyEseg unlisted)
  by_cases int21 : intr = 0x21
  · rw [mirrorsDta, noDta int21, Bool.and_false]
  · simp [mirrorsDta, int21]

theorem final_post_pointer : final (msdosPostExtender h intr) t =
    final postRegs (final (postSwitch h intr (t.scp.lword .eax)) t.opened) := by
  have copies : final (postCopies h intr (t.scp.lword .eax)) t = t.opened :=
    unpacked_pointer call
  rw [msdosPostExtender, final_reads_bind, final_bind, copies, final_bind, final_bind, final_onlyIf,
    (pointer_tables call).1]
  rfl

theorem post_ebx (set : p = .dta ∨ p = .psp ∨ p = .mouseRoutine) :
    (final (msdosPostExtender h intr) t).scp.gpr .ebx =
      (final (postSwitch h intr (t.scp.lword .eax)) t.opened).scp.gpr .ebx := by
  have listed := ebx_kept call set
  have country : intr = 0x21 → hiByte (t.scp.lword .eax) = 0x38 → t.scp.lword .edx ≠ 0xffff := by
    intro int21 ah
    subst int21
    simp [kept, dosRet, ah, DosRet.keeps] at listed
  rw [up_shut (unpacked_shut listed (by decide) country), unpacked_pointer call]

theorem switch_es (place : p = .font ∨ p = .configuration ∨ p = .dosData ∨ p = .errorPointer) :
    final (postSwitch h intr (t.scp.lword .eax)) t.opened =
      final (selectorForEs h) t.opened := by
  rcases place with rfl | rfl | rfl | rfl
  · obtain ⟨rfl, ax⟩ := call
    rw [ax]
    rfl
  · obtain ⟨rfl, ah, carry⟩ := call
    simp [postSwitch, ah, unlessFailed, rmFailed, State.opened, carry]
  · obtain ⟨rfl, ah | ah⟩ := call
    all_goals simp [postSwitch, dosRet, ah, postDos]
  · obtain ⟨rfl, ah, ax⟩ := call
    simp [postSwitch, dosRet, ah, postDos, State.opened, ax]

theorem switch_ds (place : p = .swappable ∨ p = .leadBytes) :
    final (postSwitch h intr (t.scp.lword .eax)) t.opened =
      final (selectorForDs h) t.opened := by
  rcases place with rfl | rfl
  · obtain ⟨rfl, ah, al | al⟩ := call
    all_goals simp [postSwitch, dosRet, ah, postDos, al]
  · obtain ⟨rfl, ah, al, success⟩ := call
    simp [postSwitch, dosRet, ah, postDos, State.opened, al, success]

theorem switch_dos {f : DosRet} (int21 : intr = 0x21) (ret : dosRet (hiByte (t.scp.lword .eax)) = f)
    (s : State σ) : final (postSwitch h intr (t.scp.lword .eax)) s =
      final (postDos h f (loByte (t.scp.lword .eax))) s := by
  subst int21 ret
  rfl

theorem post_ownDta (own : IsOwnDta p t) :
    (final (msdosPostExtender h intr) t).scp.es = t.client.userDtaSel ∧
      (final (msdosPostExtender h intr) t).scp.gpr .ebx = t.client.userDtaOff := by
  obtain ⟨rfl, same⟩ := own
  have ret : dosRet (hiByte (t.scp.lword .eax)) = .getDta := by rw [call.2]; rfl
  have branch : final (postSwitch h intr (t.scp.lword .eax)) t.opened = final (do
      setRegEs t.client.userDtaSel
      setReg .ebx t.client.userDtaOff) t.opened := by
    rw [switch_dos call call.1 ret]
    exact retGetDta_own same
  constructor
  · rw [final_post_pointer call, branch]
    rfl
  · rw [post_ebx call (by simp), branch]
    rfl

/-- The selector is for the segment, wherever the two are. -/
theorem base_post (host : SetsBases h) (converts : Converts h t) (foreign : ¬IsOwnDta p t)
    (other : ¬IsOwnPsp h p t) :
    getSegmentBase h (final (msdosPostExtender h intr) t) (p.selector (final (msdosPostExtender h intr) t).scp) =
      zext (p.segment t.rmreg) <<< 4 := by
  cases p with
  | font | configuration | dosData | errorPointer =>
    rw [final_post_pointer call, switch_es call (by simp)]
    exact converts.granted t.rmreg.es
  | swappable | leadBytes =>
    rw [final_post_pointer call, switch_ds call (by simp)]
    exact converts.granted t.rmreg.ds
  | dta =>
    have ret : dosRet (hiByte (t.scp.lword .eax)) = .getDta := by rw [call.2]; rfl
    have away : ¬rmEsAdr t (t.rmreg.lword .ebx) = dtaUnder1MB t := fun same => foreign ⟨rfl, same⟩
    have branch : final (postSwitch h intr (t.scp.lword .eax)) t.opened = final (do
        selectorForEs h
        setReg .ebx (zext (t.rmreg.lword .ebx))) t.opened := by
      rw [switch_dos call call.1 ret]
      exact retGetDta_foreign away
    rw [final_post_pointer call, branch]
    exact converts.granted t.rmreg.es
  | psp =>
    have ret : dosRet (hiByte (t.scp.lword .eax)) = .getPsp := by
      rcases call.2 with ah | ah
      all_goals rw [ah]; rfl
    have branch : final (postSwitch h intr (t.scp.lword .eax)) t.opened = final (do
        let sel ← convertSegmentToDescriptorLim h (t.rmreg.lword .ebx) 0xff
        setReg .ebx (zext sel)) t.opened := by
      rw [switch_dos call call.1 ret]
      exact retGetPsp_foreign fun own => other ⟨rfl, own⟩
    have found := convertLim_base host converts.opened (t.rmreg.lword .ebx) 0xff
    rw [← loWord_zext (result _ _)] at found
    rw [ReturnedPointer.selector, Sigcontext.lword, post_ebx call (by simp), final_post_pointer call, branch]
    exact found
  | mouseRoutine =>
    have branch : postSwitch h intr (t.scp.lword .eax) = retMouse h 0x19 := by
      rw [call.1, call.2]
      rfl
    rw [ReturnedPointer.selector, Sigcontext.lword, post_ebx call (by simp), final_post_pointer call, branch]
    exact converts.granted (t.rmreg.lword .ebx)

theorem post_ownPsp (own : IsOwnPsp h p t) :
    (final (msdosPostExtender h intr) t).scp.lword .ebx = t.client.userPspSel := by
  obtain ⟨rfl, same⟩ := own
  have ret : dosRet (hiByte (t.scp.lword .eax)) = .getPsp := by
    rcases call.2 with ah | ah
    all_goals rw [ah]; rfl
  have branch : final (postSwitch h intr (t.scp.lword .eax)) t.opened =
      final (setReg .ebx (zext t.client.userPspSel)) t.opened := by
    rw [switch_dos call call.1 ret]
    exact retGetPsp_own same
  rw [Sigcontext.lword, post_ebx call (by simp), branch]
  exact loWord_zext _

theorem offset_post (foreign : ¬IsOwnDta p t) {r : Gpr} (offset : p.offset = some r) :
    (final (msdosPostExtender h intr) t).scp.gpr r = zext (t.rmreg.lword r) := by
  by_cases dta : p = .dta
  · subst dta
    cases offset
    have ret : dosRet (hiByte (t.scp.lword .eax)) = .getDta := by rw [call.2]; rfl
    have away : ¬rmEsAdr t (t.rmreg.lword .ebx) = dtaUnder1MB t := fun same => foreign ⟨rfl, same⟩
    have branch : final (postSwitch h intr (t.scp.lword .eax)) t.opened = final (do
        selectorForEs h
        setReg .ebx (zext (t.rmreg.lword .ebx))) t.opened := by
      rw [switch_dos call call.1 ret]
      exact retGetDta_foreign away
    rw [post_ebx call (by simp), branch]
    rfl
  · exact up_free_gpr (offset_free call dta offset)

theorem translated_post (host : SetsBases h) (converts : Converts h t)
    (set : IsOwnDta p t → t.client.userDtaSel ≠ 0) :
    Translated h p t (final (msdosPostExtender h intr) t) where
  dta own := ⟨set own, post_ownDta call own⟩
  psp own := post_ownPsp call own
  base := base_post call host converts
  offset foreign _ offset := offset_post call foreign offset

end Answer

/-! ## The way down -/

/-- The video service is left to the default branch, which wants a transfer buffer. -/
theorem outcome_font {intr : Nat} {s : State σ} {rmreg : RealModeCallStructure}
    (call : ReturnedPointer.font.ReturnedBy intr (s.scp.lword .eax) rmreg) :
    s.outcome h intr = .ret .none := by
  rw [State.outcome, (pointer_tables call).1, call.1]
  rfl

theorem outcome_pointer {p : ReturnedPointer} {intr : Nat} {s : State σ} {rmreg : RealModeCallStructure}
    (call : p.ReturnedBy intr (s.scp.lword .eax) rmreg) (other : p ≠ .font) :
    s.outcome h intr = .go false := by
  have dos (int21 : intr = 0x21) (fn : dosFn (hiByte (s.scp.lword .eax)) = .plain) :
      s.outcome h intr = .go false := by
    subst int21
    have branch : s.outcome h 0x21 =
        result (preDos h (dosFn (hiByte (s.scp.lword .eax))) (loByte (s.scp.lword .eax)))
          (s.atSwitch h 0x21) := rfl
    rw [branch, fn]
    rfl
  cases p with
  | font => contradiction
  | configuration =>
    obtain ⟨rfl, -⟩ := call
    rfl
  | mouseRoutine =>
    rw [State.outcome, call.1, call.2]
    rfl
  | dta =>
    apply dos call.1
    rw [call.2]
    rfl
  | dosData | psp =>
    apply dos call.1
    rcases call.2 with ah | ah
    all_goals rw [ah]; rfl
  | errorPointer | swappable | leadBytes =>
    apply dos call.1
    rw [call.2.1]
    rfl

theorem pre_pointer {p : ReturnedPointer} {intr : Nat} {s : State σ} {rmreg : RealModeCallStructure}
    (call : p.ReturnedBy intr (s.scp.lword .eax) rmreg) :
    result (msdosPreExtender h intr) s = .rm ↔ p ≠ .font := by
  rw [result_pre]
  constructor
  · rintro goes rfl
    rw [outcome_font call] at goes
    cases goes
  · intro other
    rw [outcome_pointer call other]
    rfl

/-! ## Both ways -/

/-- The call reaches `msdos_post_extender`, and the client finds what it needs. -/
def PointerLeft (h : DpmiHost σ) (intr : Nat) (p : ReturnedPointer) (s t : State σ) : Prop :=
  result (msdosPreExtender h intr) s = .rm ∧ Translated h p t (final (msdosPostExtender h intr) t)

/-- The client gets its pointer just if the service is not the video one, and an answer that is the DTA
below 1 MiB finds a selector set for it. -/
theorem returned_pointer_iff (host : SetsBases h) {p : ReturnedPointer} {intr : Nat} {s t : State σ}
    (call : p.ReturnedBy intr (s.scp.lword .eax) t.rmreg)
    (waits : t.scp = (final (msdosPreExtender h intr) s).scp) (converts : Converts h t) :
    PointerLeft h intr p s t ↔ p ≠ .font ∧ (IsOwnDta p t → t.client.userDtaSel ≠ 0) := by
  constructor
  · rintro ⟨goes, translated⟩
    exact ⟨(pre_pointer call).mp goes, fun own => (translated.dta own).1⟩
  · rintro ⟨other, set⟩
    have goes : result (msdosPreExtender h intr) s = .rm := (pre_pointer call).mpr other
    have same : t.scp.lword .eax = s.scp.lword .eax := by
      rw [waits]
      exact congrArg loWord (down_client goes nofun)
    refine ⟨goes, translated_post ?_ host converts set⟩
    rw [same]
    exact call

/-! ## On a host -/

theorem setsBases_bump : SetsBases bumpHost where
  placed _ _ := Function.update_self _ _ _
  limited _ _ _ _ := rfl
  armed _ _ _ _ := rfl

theorem converts_bump {s : State Bump} (fresh : s.host.next = 0)
    (empty : ∀ i, (s.client.segSelMap i).sel = 0) : Converts bumpHost s where
  granted _ := Function.update_self _ _ _
  allocated := by
    show loWord (Bump.selector s.host.next) ≠ 0
    rw [fresh]
    decide
  room := ⟨⟨0, by decide⟩, empty _⟩
  mapped i used := absurd (empty i) used

def pointerClient (ax : Word) : State Bump := bumpStart.withGpr fun
  | .eax => zext ax
  | .ebx => 0x12345678
  | _ => 0

def pointerAnswer (intr : Nat) (s : State Bump) (segment offset : Word) : State Bump :=
  let t := final (msdosPreExtender bumpHost intr) s
  { t with rmreg := { t.rmreg with es := segment, gpr := fun _ => zext offset } }

/-- The list of lists is at 0080:0026. -/
theorem returned_pointer_lists :
    PointerLeft bumpHost 0x21 .dosData (pointerClient 0x5200)
      (pointerAnswer 0x21 (pointerClient 0x5200) 0x0080 0x0026) := by
  have call : ReturnedPointer.dosData.ReturnedBy 0x21 ((pointerClient 0x5200).scp.lword .eax)
      (pointerAnswer 0x21 (pointerClient 0x5200) 0x0080 0x0026).rmreg := ⟨rfl, .inr (by decide)⟩
  apply (returned_pointer_iff setsBases_bump call rfl (converts_bump rfl fun _ => rfl)).mpr
  exact ⟨nofun, fun own => nomatch own.1⟩

/-- The font is at F000:FA6E, but the client keeps the ES it had. -/
theorem returned_pointer_misses_font :
    let s := pointerClient 0x1130
    let t := pointerAnswer 0x10 s 0xf000 0xfa6e
    ReturnedPointer.font.ReturnedBy 0x10 (s.scp.lword .eax) t.rmreg ∧
      result (msdosPreExtender bumpHost 0x10) s = .none ∧
      t.scp.es = s.scp.es ∧ getSegmentBase bumpHost t t.scp.es ≠ zext t.rmreg.es <<< 4 ∧
      ¬PointerLeft bumpHost 0x10 .font s t := by
  have none : result (msdosPreExtender bumpHost 0x10) (pointerClient 0x1130) = .none := by decide +kernel
  refine ⟨⟨rfl, by decide⟩, none, rfl, by decide +kernel, fun left => ?_⟩
  have goes := left.1
  rw [none] at goes
  cases goes

end Pmdapi
