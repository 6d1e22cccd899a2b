import Pmdapi.Library.Blocks

/-!
NUL-terminated strings that are copied to slots of a fixed size: what an unbounded copy writes, and what
a reader finds in the slot.
-/

namespace Pmdapi.Bytes

structure StringCopy where
  source : Memory
  src : Dword
  dst : Dword

namespace StringCopy

variable (c : StringCopy)

def length : Nat := strlen c.source c.src

def written : Block := ⟨c.dst, c.length + 1⟩

def slot (size : Nat) : Block := ⟨c.dst, size⟩

def copied : Memory := copyString c.source c.dst c.src

/-- The string, or as much of it as fits, is read at `dst` and ends inside of the slot, but for the bytes
of `other`. -/
def FoundIn (size : Nat) (m : Memory) (other : Dword → Prop) : Prop :=
  ∃ n < size, (n = c.length ∨ n + 1 = size ∧ n ≤ c.length) ∧
    (∀ i < n, ¬other (c.dst + BitVec.ofNat 32 i) →
      m (c.dst + BitVec.ofNat 32 i) = c.source (c.src + BitVec.ofNat 32 i)) ∧
    (¬other (c.dst + BitVec.ofNat 32 n) → m (c.dst + BitVec.ofNat 32 n) = 0)

variable {c}

theorem written_within {size : Nat} (short : c.length < size) : c.written.Within (c.slot size) :=
  Block.within_of_le short

/-- A string that fits is found as a whole, by a memory that has its slot as the copy left it. -/
theorem foundIn_of_agree {size : Nat} {m : Memory} {other : Dword → Prop} (short : c.length < size)
    (fits : size ≤ 2 ^ 32)
    (agree : AgreeOn (fun a => (c.slot size).Covers a ∧ ¬other a) c.copied m) :
    c.FoundIn size m other := by
  have read {i : Nat} (inside : i ≤ c.length) (elsewhere : ¬other (c.dst + BitVec.ofNat 32 i)) :
      m (c.dst + BitVec.ofNat 32 i) = c.source (c.src + BitVec.ofNat 32 i) := by
    have covered : (c.slot size).Covers (c.dst + BitVec.ofNat 32 i) := by
      show offset c.dst (c.dst + BitVec.ofNat 32 i) < size
      rw [offset_add _ (by omega)]
      omega
    have whole : c.length + 1 ≤ 2 ^ 32 := by omega
    rw [agree _ ⟨covered, elsewhere⟩]
    exact copy_inside c.source c.dst c.src whole (Nat.lt_succ_of_le inside)
  have ends : c.source (c.src + BitVec.ofNat 32 c.length) = 0 := strlen_ends (by
    have shorter : strlen c.source c.src < size := short
    omega)
  refine ⟨c.length, short, .inl rfl, fun i inside => read (Nat.le_of_lt inside), fun elsewhere => ?_⟩
  rw [read (Nat.le_refl _) elsewhere, ends]

/-- A longer one is not: the copy has no NUL at the end of the slot. -/
theorem not_foundIn_of_agree {size : Nat} {m : Memory} {other : Dword → Prop} (long : size ≤ c.length)
    (fits : size ≤ 2 ^ 32) (last : ¬other (c.dst + BitVec.ofNat 32 (size - 1)))
    (agree : AgreeOn (fun a => (c.slot size).Covers a ∧ ¬other a) c.copied m) :
    ¬c.FoundIn size m other := by
  rintro ⟨n, inside, whole | ⟨cut, -⟩, -, ends⟩
  · omega
  · obtain rfl : n = size - 1 := by omega
    have position : offset c.dst (c.dst + BitVec.ofNat 32 (size - 1)) = size - 1 := offset_add _ (by omega)
    have covered : (c.slot size).Covers (c.dst + BitVec.ofNat 32 (size - 1)) := by
      show offset c.dst _ < size
      rw [position]
      exact inside
    have copied : c.copied (c.dst + BitVec.ofNat 32 (size - 1)) =
        c.source (c.src + BitVec.ofNat 32 (size - 1)) := by
      have read : strlen c.source c.src = c.length := rfl
      rw [StringCopy.copied, copyString, copy, position, read, if_pos (by omega), BitVec.add_comm c.dst,
        BitVec.add_sub_cancel]
    have nul := ends last
    rw [agree _ ⟨covered, last⟩, copied] at nul
    have shorter : c.length ≤ size - 1 := strlen_le nul
    omega

theorem copied_agree : AgreeOn (¬c.written.Covers ·) c.source c.copied :=
  copyString_agree _ fun _ outside => outside

end StringCopy

end Pmdapi.Bytes
