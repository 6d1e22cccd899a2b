import Pmdapi.Library.Blocks

/-!
A block of a client that is filled from its start on, piece by piece, each piece stored in a buffer
first and copied from there.
-/

namespace Pmdapi.Bytes

/-- The `n` bytes at `ptr` have got `data` from byte `total` on, and besides only bytes of `via` may have
changed. -/
structure StoredVia (via : Block) (ptr : Dword) (n total : Nat) (data : List Byte) (m k : Memory) : Prop where
  inside : ∀ i < n, k (ptr + BitVec.ofNat 32 i) =
    if total ≤ i then data.getD (i - total) (m (ptr + BitVec.ofNat 32 i)) else m (ptr + BitVec.ofNat 32 i)
  outside : ∀ a, ¬via.Covers a → ¬(Block.mk ptr n).Covers a → k a = m a

section Pieces

variable {via : Block} {ptr : Dword} {n total : Nat} {data : List Byte} {m k : Memory}

theorem StoredVia.refl : StoredVia via ptr n total [] m m := ⟨fun i _ => by simp, fun _ _ _ => rfl⟩

theorem StoredVia.append {more : List Byte} {l : Memory} (first : StoredVia via ptr n total data m k)
    (second : StoredVia via ptr n (total + data.length) more k l) :
    StoredVia via ptr n total (data ++ more) m l := by
  constructor
  · intro i inside
    rw [second.inside i inside, first.inside i inside]
    by_cases started : total ≤ i
    · by_cases past : total + data.length ≤ i
      · rw [if_pos past, if_pos started, if_pos started, List.getD_append_right _ _ _ _ (by omega),
          List.getD_eq_default data _ (by omega), Nat.sub_add_eq]
      · rw [if_neg past, if_pos started, if_pos started, List.getD_append _ _ _ _ (by omega)]
    · rw [if_neg (by omega), if_neg started, if_neg started]
  · intro a other apart
    rw [second.outside a other apart, first.outside a other apart]

end Pieces

end Pmdapi.Bytes
