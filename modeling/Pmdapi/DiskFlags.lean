import Pmdapi.SegmentCopy
import Pmdapi.CallbackStack
import Pmdapi.Segreg

/-! The flags that int 25h and 26h leave on the client's stack. The slot is one item too low, and the
stack pointer of a 16-bit client is lowered as a whole. -/

namespace Pmdapi
open Bytes Effect

variable {σ : Type} (h : DpmiHost σ)

/-! ## The client's stack -/

/-- Width of the stack; a GDT selector is taken as flat. -/
def stackIs32 (s : State σ) : Bool :=
  if s.scp.ss &&& 4 = 0 then true else dpmiMhpGetSelectorSize h s s.scp.ss

def stackBase (s : State σ) : Dword :=
  if s.scp.ss &&& 4 = 0 then 0 else getSegmentBase h s s.scp.ss

def stackSegment (s : State σ) : Block :=
  ⟨stackBase h s, (getSegmentLimit h s s.scp.ss).toNat + 1⟩

def stackItem (s : State σ) (n : Nat) : Block :=
  ⟨stackAddress s.client.is32 (stackBase h s) (lowerEsp s.client.is32 s.scp.esp n),
    itemSize s.client.is32⟩

def returnedSegment (s : State σ) : Block :=
  ⟨getSegmentBase h s s.scp.ds, segmentLen (getSegmentLimit h s s.scp.ds)⟩

/-- The client's POPF gets the flags of the service and gives it its stack pointer back. -/
structure FlagsLeft (s t : State σ) : Prop where
  esp : t.scp.esp = lowerEsp s.client.is32 s.scp.esp 1
  item : readItem s.client.is32 t.mem (stackAddress s.client.is32 (stackBase h s) t.scp.esp) =
    zext s.rmreg.flags
  others : ∀ a, (stackSegment h s).Covers a → ¬(stackItem h s 1).Covers a → t.mem a = s.mem a

/-! ## What the service switch does -/

section Disk

variable {h} {s : State σ}

theorem selAdr_stack {wide : Bool} (matching : stackIs32 h s = wide) (offset : Dword) :
    selAdr h s s.scp.ss offset wide = stackAddress wide (stackBase h s) offset := by
  unfold stackIs32 at matching
  unfold selAdr stackBase stackAddress
  by_cases flat : s.scp.ss &&& 4 = 0
  · rw [if_pos flat] at matching ⊢
    rw [if_pos flat, ← matching, if_pos rfl]
    exact (BitVec.zero_add offset).symm
  · rw [if_neg flat, if_neg flat]
    rfl

theorem loWord_slot (esp : Dword) :
    loWord (zext (loWord (esp - 2)) - 2) = loWord (lowerEsp false esp 2) := by
  simp only [lowerEsp, if_false, Bool.false_eq_true, loWord_setLoWord]
  rw [loWord_sub, loWord_zext, loWord_sub, BitVec.sub_sub]
  rfl

/-- The flags go two items below the old stack pointer. -/
theorem final_retDisk (matching : stackIs32 h s = s.client.is32) :
    final (retDisk h) s = { s with
      scp := { s.scp with esp := s.scp.esp - if s.client.is32 then 4 else 2 }
      mem := writeItem s.client.is32 s.mem (stackItem h s 2).start (zext s.rmreg.flags) } := by
  have slot := selAdr_stack matching
  have run : final (retDisk h) s = { s with
      scp := { s.scp with esp := s.scp.esp - if s.client.is32 then 4 else 2 }
      mem :=
        if s.client.is32 then
          writeDword s.mem (selAdr h s s.scp.ss
            ((s.scp.esp - if s.client.is32 then 4 else 2) - 4) s.client.is32) (zext s.rmreg.flags)
        else
          writeWord s.mem (selAdr h s s.scp.ss
            (zext (loWord (s.scp.esp - if s.client.is32 then 4 else 2)) - 2) s.client.is32)
            s.rmreg.flags } := rfl
  rw [run]
  congr 1
  rw [slot, slot, stackItem]
  cases s.client.is32 with
  | true =>
    have down : s.scp.esp - 4 - 4 = s.scp.esp - BitVec.ofNat 32 (4 * 2) := by bv_omega
    simp only [if_true, writeItem, lowerEsp]
    rw [down]
  | false =>
    simp only [if_false, Bool.false_eq_true, writeItem, stackAddress]
    rw [loWord_slot s.scp.esp]
    exact congrArg (writeWord s.mem _) (loWord_zext s.rmreg.flags).symm

def segmentBack (h : DpmiHost σ) (s : State σ) : Memory :=
  copy s.mem (returnedSegment h s).start (segoff2linear s.emmSeg 0) (returnedSegment h s).length

theorem post_disk {intr : Nat} (service : intr = 0x25 ∨ intr = 0x26)
    (matching : stackIs32 h s = s.client.is32) :
    (final (msdosPostExtender h intr) s).scp.esp = s.scp.esp - (if s.client.is32 then 4 else 2) ∧
      (final (msdosPostExtender h intr) s).mem =
        writeItem s.client.is32 (segmentBack h s) (stackItem h s 2).start (zext s.rmreg.flags) := by
  have dseg : needCopyDseg intr (s.scp.lword .eax) = true := by
    rcases service with rfl | rfl <;> rfl
  have copied : copiesSegment intr (s.scp.lword .eax) = true := by
    rw [copiesSegment, dseg, Bool.true_or]
  have selector : copiedSelector intr s = s.scp.ds := by
    rw [copiedSelector, dseg]
    rfl
  have disk : postSwitch h intr (s.scp.lword .eax) = retDisk h := by
    rcases service with rfl | rfl <;> rfl
  obtain ⟨trace, copies⟩ := postCopies_eq h copied
  rw [selector] at copies
  have switched := final_retDisk (h := h) (s := unpacked h intr s) (by rw [unpacked, copies]; exact matching)
  have pointer : (final (msdosPostExtender h intr) s).scp.esp =
      (final (postSwitch h intr (s.scp.lword .eax)) (unpacked h intr s)).scp.esp := by
    have rest : Moves (Keeps fun s : State σ => s.scp.esp) (do
        onlyIf (needXbuf intr (s.scp.lword .eax)) (restoreEmsFrame h)
        postRegs) := by
      refine Moves.bind (Moves.onlyIf fun _ => ?_) fun _ => fun _ => rfl
      exact Moves.restoreEmsFrame h (fun _ _ => rfl) (fun _ _ => rfl) fun _ _ => rfl
    rw [msdosPostExtender, final_reads_bind, final_bind, final_bind]
    exact rest _
  rw [pointer, mem_post, disk, switched, unpacked, copies]
  exact ⟨rfl, rfl⟩

/-! ## When the flags are where the client looks for them -/

/-- SP - 4 and SP - 2 name words that are apart, SP wrapping or not. -/
theorem wordSlots_apart {base a : Dword} {sp : Word} (below : (a - (base + zext (sp - 4))).toNat < 2)
    (top : (a - (base + zext (sp - 2))).toNat < 2) : False := by
  have low : (zext (sp - 4)).toNat = (sp - 4).toNat := BitVec.toNat_setWidth_of_le (by decide)
  have high : (zext (sp - 2)).toNat = (sp - 2).toNat := BitVec.toNat_setWidth_of_le (by decide)
  have wraps : (sp - 2).toNat = (sp - 4).toNat + 2 ∨ (sp - 2).toNat + 65534 = (sp - 4).toNat := by
    bv_omega
  have lowBound := (sp - 4).isLt
  have highBound := (sp - 2).isLt
  generalize zext (sp - 4) = p at *
  generalize zext (sp - 2) = q at *
  bv_omega

theorem stackItem_apart (h : DpmiHost σ) (s : State σ) : (stackItem h s 2).Apart (stackItem h s 1) := by
  intro a below top
  unfold stackItem Block.Covers offset at below top
  generalize s.client.is32 = is32 at below top
  cases is32 with
  | true =>
    simp only [stackAddress, lowerEsp, itemSize, if_true] at below top
    bv_omega
  | false =>
    simp only [stackAddress, lowerEsp, itemSize, if_false, Bool.false_eq_true, loWord_setLoWord] at below top
    exact wordSlots_apart below top

theorem esp_lowered_iff (is32 : Bool) (esp : Dword) :
    esp - (if is32 then 4 else 2) = lowerEsp is32 esp 1 ↔ (is32 = false → 2 ≤ (loWord esp).toNat) := by
  cases is32 with
  | true => exact iff_of_true rfl fun narrow => absurd narrow (by decide)
  | false =>
    simp only [lowerEsp, if_false, Bool.false_eq_true, forall_const]
    have sp : (loWord esp).toNat = esp.toNat % 2 ^ 16 := BitVec.toNat_setWidth ..
    rw [← BitVec.toNat_inj, toNat_setLoWord]
    have whole := Nat.div_add_mod esp.toNat (2 ^ 16)
    have bound := esp.isLt
    rw [← sp] at whole
    generalize esp.toNat / 2 ^ 16 = q at *
    generalize loWord esp = low at *
    have small := low.isLt
    by_cases room : 2 ≤ low.toNat
    · have kept : (low - BitVec.ofNat 16 (2 * 1)).toNat = low.toNat - 2 := by bv_omega
      have down : (esp - 2).toNat = esp.toNat - 2 := by bv_omega
      rw [kept, down]
      omega
    · have wrapped : (low - BitVec.ofNat 16 (2 * 1)).toNat = low.toNat + 65534 := by bv_omega
      rw [wrapped]
      bv_omega

theorem stackAddress_lowered (is32 : Bool) (base esp : Dword) :
    stackAddress is32 base (esp - if is32 then 4 else 2) = stackAddress is32 base (lowerEsp is32 esp 1) := by
  cases is32 with
  | true => rfl
  | false =>
    simp only [stackAddress, lowerEsp, if_false, Bool.false_eq_true, loWord_setLoWord, loWord_sub]
    rfl

/-- The bytes of the stack segment where the flags go already hold them. -/
def SlotHolds (h : DpmiHost σ) (s : State σ) : Prop :=
  ∀ a, (stackSegment h s).Covers a → (stackItem h s 2).Covers a →
    s.mem a = (zext s.rmreg.flags).extractLsb' (8 * offset (stackItem h s 2).start a) 8

/-- The client finds the flags just when they stood there before: the item above the slot holds them,
and so does the slot. -/
theorem disk_flags_iff {intr : Nat} (service : intr = 0x25 ∨ intr = 0x26)
    (matching : stackIs32 h s = s.client.is32)
    (apart : ∀ a, (stackSegment h s).Covers a ∨ (stackItem h s 1).Covers a →
      ¬(returnedSegment h s).Covers a) :
    FlagsLeft h s (final (msdosPostExtender h intr) s) ↔
      (s.client.is32 = false → 2 ≤ (loWord s.scp.esp).toNat) ∧
      readItem s.client.is32 s.mem (stackItem h s 1).start = zext s.rmreg.flags ∧ SlotHolds h s := by
  obtain ⟨esp, mem⟩ := post_disk (h := h) service matching
  have kept (a : Dword) (stack : (stackSegment h s).Covers a ∨ (stackItem h s 1).Covers a) :
      segmentBack h s a = s.mem a := if_neg (apart a stack)
  have written (a : Dword) (slot : (stackItem h s 2).Covers a) :
      (final (msdosPostExtender h intr) s).mem a =
        (zext s.rmreg.flags).extractLsb' (8 * offset (stackItem h s 2).start a) 8 := by
    rw [mem, writeItem_apply]
    exact if_pos slot
  have elsewhere (a : Dword) (other : ¬(stackItem h s 2).Covers a) :
      (final (msdosPostExtender h intr) s).mem a = segmentBack h s a := by
    rw [mem, writeItem_apply]
    exact if_neg other
  have pointer : stackAddress s.client.is32 (stackBase h s) (final (msdosPostExtender h intr) s).scp.esp =
      (stackItem h s 1).start := by
    rw [esp]
    exact stackAddress_lowered _ _ _
  have item : readItem s.client.is32 (final (msdosPostExtender h intr) s).mem (stackItem h s 1).start =
      readItem s.client.is32 s.mem (stackItem h s 1).start := by
    refine readItem_agree (P := (stackItem h s 1).Covers) (fun a inside => ?_) fun _ inside => inside
    rw [elsewhere a fun below => stackItem_apart h s a below inside]
    exact kept a (.inr inside)
  constructor
  · intro left
    refine ⟨(esp_lowered_iff _ _).mp (esp.symm.trans left.esp), ?_, fun a stack slot => ?_⟩
    · rw [← item, ← pointer]
      exact left.item
    · rw [← written a slot]
      exact (left.others a stack (stackItem_apart h s a slot)).symm
  · rintro ⟨room, above, slot⟩
    refine ⟨esp.trans ((esp_lowered_iff _ _).mpr room), ?_, fun a stack _ => ?_⟩
    · rw [pointer, item]
      exact above
    · by_cases below : (stackItem h s 2).Covers a
      · rw [written a below]
        exact (slot a stack below).symm
      · rw [elsewhere a below]
        exact kept a (.inl stack)

end Disk

def diskClient (flags : Word) : State Bump :=
  { bumpStart with
    host := ⟨0, fun sel => if sel = 0x0f then 0x20000 else 0⟩
    scp := { bumpStart.scp with ss := 0x0f, ds := 0x07, esp := 0x100 }
    rmreg := { RealModeCallStructure.zero with flags := flags } }

theorem diskClient_apart (flags : Word) (a : Dword)
    (stack : (stackSegment bumpHost (diskClient flags)).Covers a ∨
      (stackItem bumpHost (diskClient flags) 1).Covers a) :
    ¬(returnedSegment bumpHost (diskClient flags)).Covers a := by
  have segment : stackSegment bumpHost (diskClient flags) = ⟨0x20000, 0x10000⟩ := by
    show stackSegment bumpHost (diskClient 0) = _
    decide +kernel
  have item : stackItem bumpHost (diskClient flags) 1 = ⟨0x200fe, 2⟩ := by
    show stackItem bumpHost (diskClient 0) 1 = _
    decide +kernel
  have data : returnedSegment bumpHost (diskClient flags) = ⟨0, 0x10000⟩ := by
    show returnedSegment bumpHost (diskClient 0) = _
    decide +kernel
  rw [segment, item] at stack
  rw [data]
  unfold Block.Covers offset at stack ⊢
  dsimp only at stack ⊢
  bv_omega

/-- A client after two calls that ended with CF set: the flags are on its stack twice. -/
def diskAgain : State Bump := { diskClient 0x203 with mem := store (fun _ => 0) 0x200fc [0x03, 0x02, 0x03, 0x02] }

theorem disk_flags_again :
    FlagsLeft bumpHost diskAgain (final (msdosPostExtender bumpHost 0x25) diskAgain) := by
  refine (disk_flags_iff (s := diskAgain) (.inl rfl) (by decide +kernel) (diskClient_apart 0x203)).mpr
    ⟨fun _ => by decide +kernel, by decide +kernel, fun a _ slot => ?_⟩
  have item : stackItem bumpHost diskAgain 2 = ⟨0x200fc, 2⟩ := by decide +kernel
  rw [item] at slot ⊢
  have place : a = 0x200fc ∨ a = 0x200fd := by
    unfold Block.Covers offset at slot
    dsimp only at slot
    bv_omega
  rcases place with rfl | rfl
  · decide +kernel
  · decide +kernel

/-- An error that the client does not see: CF is set, the word that it pops is clear. -/
theorem disk_flags_misses_carry :
    stackIs32 bumpHost (diskClient 1) = (diskClient 1).client.is32 ∧
    (∀ a, (stackSegment bumpHost (diskClient 1)).Covers a ∨
      (stackItem bumpHost (diskClient 1) 1).Covers a → ¬(returnedSegment bumpHost (diskClient 1)).Covers a) ∧
    ¬FlagsLeft bumpHost (diskClient 1) (final (msdosPostExtender bumpHost 0x25) (diskClient 1)) := by
  refine ⟨by decide +kernel, diskClient_apart 1, fun left => ?_⟩
  exact absurd left.item (by decide +kernel)

end Pmdapi
