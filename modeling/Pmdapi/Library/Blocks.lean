import Pmdapi.Library.Bytes

/-!
Blocks of a byte-addressed memory, and which bytes a write leaves alone: those outside of the block it
is made to.
-/

namespace Pmdapi.Bytes

/-- Bytes upwards from `start`. -/
structure Block where
  start : Dword
  length : Nat
  deriving DecidableEq, Repr

def Block.Covers (b : Block) (a : Dword) : Prop := offset b.start a < b.length

instance (b : Block) (a : Dword) : Decidable (b.Covers a) :=
  inferInstanceAs (Decidable (offset b.start a < b.length))

def Block.Apart (b c : Block) : Prop := ∀ a, b.Covers a → ¬c.Covers a

def Block.Within (b c : Block) : Prop := ∀ a, b.Covers a → c.Covers a

theorem Block.Apart.symm {b c : Block} (apart : b.Apart c) : c.Apart b := fun a inside covered =>
  apart a covered inside

theorem Block.Within.apart {b c d : Block} (within : b.Within c) (apart : c.Apart d) : b.Apart d :=
  fun a inside => apart a (within a inside)

theorem Block.within_of_le {start : Dword} {n k : Nat} (shorter : n ≤ k) :
    (Block.mk start n).Within ⟨start, k⟩ := fun _ inside => Nat.lt_of_lt_of_le inside shorter

/-- Each block ends before the other one starts, once around. -/
theorem Block.apart_of_offset {b c : Block} (up : b.length ≤ offset b.start c.start)
    (down : c.length ≤ offset c.start b.start) : b.Apart c := by
  intro a inside covered
  simp only [Block.Covers, offset] at *
  bv_omega

def Clear (P : Dword → Prop) (blocks : List Block) : Prop := ∀ b ∈ blocks, ∀ a, P a → ¬ b.Covers a

def AgreeOn (P : Dword → Prop) (m n : Memory) : Prop := ∀ a, P a → n a = m a

theorem AgreeOn.refl {P : Dword → Prop} (m : Memory) : AgreeOn P m m := fun _ _ => rfl

theorem AgreeOn.trans {P : Dword → Prop} {m n k : Memory} (first : AgreeOn P m n)
    (second : AgreeOn P n k) : AgreeOn P m k := fun a inside => (second a inside).trans (first a inside)

section Clear

variable {P : Dword → Prop}

@[simp] theorem clear_nil : Clear P [] := by simp [Clear]

@[simp] theorem clear_cons {b : Block} {blocks : List Block} :
    Clear P (b :: blocks) ↔ (∀ a, P a → ¬ b.Covers a) ∧ Clear P blocks := List.forall_mem_cons

@[simp] theorem clear_append {one two : List Block} :
    Clear P (one ++ two) ↔ Clear P one ∧ Clear P two := List.forall_mem_append

end Clear

theorem Block.covers_of_inner {start a : Dword} {k n length : Nat} (inner : k + n ≤ length)
    (small : k < 2 ^ 32) (inside : (Block.mk (start + BitVec.ofNat 32 k) n).Covers a) :
    (Block.mk start length).Covers a := by
  simp only [Block.Covers, offset] at inside ⊢
  have wrap : (BitVec.ofNat 32 k).toNat = k := by simp only [BitVec.toNat_ofNat]; omega
  bv_omega

section Writes

variable {P : Dword → Prop} (m : Memory)

theorem copy_agree {dst src : Dword} {n : Nat} (clear : ∀ a, P a → ¬ (Block.mk dst n).Covers a) :
    AgreeOn P m (copy m dst src n) := fun a inside => if_neg (clear a inside)

theorem copyString_agree {dst src : Dword}
    (clear : ∀ a, P a → ¬ (Block.mk dst (strlen m src + 1)).Covers a) :
    AgreeOn P m (copyString m dst src) := copy_agree m clear

theorem fill_agree {dst : Dword} {v : Byte} {n : Nat}
    (clear : ∀ a, P a → ¬ (Block.mk dst n).Covers a) : AgreeOn P m (fill m dst v n) :=
  fun a inside => if_neg (clear a inside)

theorem store_agree {dst : Dword} {bytes : List Byte}
    (clear : ∀ a, P a → ¬ (Block.mk dst bytes.length).Covers a) : AgreeOn P m (store m dst bytes) :=
  fun a inside => List.getD_eq_default _ _ (Nat.not_lt.mp (clear a inside))

theorem writeWord_agree {a : Dword} {v : Word} (clear : ∀ x, P x → ¬ (Block.mk a 2).Covers x) :
    AgreeOn P m (writeWord m a v) := store_agree m clear

theorem writeDword_agree {a v : Dword} (clear : ∀ x, P x → ¬ (Block.mk a 4).Covers x) :
    AgreeOn P m (writeDword m a v) := store_agree m clear

end Writes

/-! ## Memory kept outside of blocks -/

def KeptOutside (blocks : List Block) (m n : Memory) : Prop := AgreeOn (fun a => ∀ b ∈ blocks, ¬b.Covers a) m n

namespace KeptOutside

variable {m n k : Memory} {one two : List Block}

theorem mono (kept : KeptOutside one m n) (sub : one ⊆ two) : KeptOutside two m n := fun a outside =>
  kept a fun b among => outside b (sub among)

theorem trans (first : KeptOutside one m n) (second : KeptOutside two n k) : KeptOutside (one ++ two) m k :=
  AgreeOn.trans (first.mono (List.subset_append_left _ _)) (second.mono (List.subset_append_right _ _))

theorem of_agree {b : Block} (agree : AgreeOn (¬b.Covers ·) m n) : KeptOutside [b] m n := fun x outside =>
  agree x (outside b List.mem_cons_self)

theorem copy (m : Memory) (dst src : Dword) (n : Nat) : KeptOutside [⟨dst, n⟩] m (copy m dst src n) :=
  of_agree (copy_agree m fun _ outside => outside)

theorem writeDword (m : Memory) (a v : Dword) : KeptOutside [⟨a, 4⟩] m (writeDword m a v) :=
  of_agree (writeDword_agree m fun _ outside => outside)

theorem writeWord (m : Memory) (a : Dword) (v : Word) : KeptOutside [⟨a, 4⟩] m (writeWord m a v) :=
  writeWord_agree m fun x outside covered =>
    outside _ List.mem_cons_self (Block.within_of_le (by decide) x covered)

theorem agree (kept : KeptOutside one m n) {b : Block} (apart : ∀ c ∈ one, b.Apart c) : AgreeOn b.Covers m n :=
  fun a inside => kept a fun c among => apart c among a inside

end KeptOutside

/-! ## Words -/

theorem readWord_writeWord (m : Memory) (a : Dword) (v : Word) : readWord (writeWord m a v) a = v := by
  have low : offset a a = 0 := by simp [offset]
  have high : offset a (a + 1) = 1 := offset_add a (by decide)
  rw [readWord, writeWord, store, store, low, high]
  show v.extractLsb' 8 8 ++ v.extractLsb' 0 8 = v
  apply BitVec.eq_of_getLsbD_eq
  intro i inside
  rw [BitVec.getLsbD_append, BitVec.getLsbD_extractLsb', BitVec.getLsbD_extractLsb']
  by_cases below : i < 8
  · simp [below]
  · have above : i - 8 < 8 := by omega
    have sum : 8 + (i - 8) = i := by omega
    simp [below, above, sum]

theorem readWord_agree {P : Dword → Prop} {m n : Memory} {a : Dword} (agree : AgreeOn P m n)
    (inside : ∀ x, (Block.mk a 2).Covers x → P x) : readWord n a = readWord m a := by
  have low : (Block.mk a 2).Covers a := by simp [Block.Covers, offset]
  have one : offset a (a + 1) = 1 := offset_add a (by decide)
  have high : (Block.mk a 2).Covers (a + 1) := by
    show offset a (a + 1) < 2
    rw [one]
    decide
  rw [readWord, readWord, agree _ (inside _ low), agree _ (inside _ high)]

end Pmdapi.Bytes
