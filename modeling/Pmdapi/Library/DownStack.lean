import Pmdapi.Library.Blocks

/-!
Stacks that grow down in a byte-addressed memory. Items have one of two widths, and a narrow item keeps
the low word of its value.
-/

namespace Pmdapi.Bytes

def itemSize (wide : Bool) : Nat := if wide then 4 else 2

def itemAddress (wide : Bool) (top : Dword) (depth : Nat) : Dword :=
  top - BitVec.ofNat 32 (itemSize wide * depth)

def writeItem (wide : Bool) (m : Memory) (a v : Dword) : Memory :=
  if wide then writeDword m a v else writeWord m a (v.setWidth 16)

def readItem (wide : Bool) (m : Memory) (a : Dword) : Dword :=
  if wide then readDword m a else (readWord m a).setWidth 32

def cutItem (wide : Bool) (v : Dword) : Dword := if wide then v else (v.setWidth 16).setWidth 32

def stackItems (wide : Bool) (top : Dword) (n : Nat) : Block :=
  ⟨itemAddress wide top n, itemSize wide * n⟩

theorem itemSize_pos (wide : Bool) : 0 < itemSize wide := by cases wide <;> decide

theorem itemSize_le (wide : Bool) : itemSize wide ≤ 4 := by cases wide <;> decide

/-! ## Single items -/

theorem writeItem_apply (wide : Bool) (m : Memory) (a v x : Dword) :
    writeItem wide m a v x =
      if offset a x < itemSize wide then v.extractLsb' (8 * offset a x) 8 else m x := by
  cases wide with
  | true =>
    rw [writeItem, if_pos rfl, writeDword, store, itemSize, if_pos rfl]
    generalize offset a x = k
    split
    next inside =>
      obtain rfl | rfl | rfl | rfl : k = 0 ∨ k = 1 ∨ k = 2 ∨ k = 3 := by omega
      all_goals rfl
    next outside => exact List.getD_eq_default _ _ (Nat.not_lt.mp outside)
  | false =>
    rw [writeItem, if_neg Bool.false_ne_true, writeWord, store, itemSize, if_neg Bool.false_ne_true]
    generalize offset a x = k
    split
    next inside =>
      have kept (n : Nat) (low : n + 8 ≤ 16) : (v.setWidth 16).extractLsb' n 8 = v.extractLsb' n 8 := by
        apply BitVec.eq_of_getLsbD_eq
        intro i small
        simp only [BitVec.getLsbD_extractLsb', BitVec.getLsbD_setWidth, small, decide_true, Bool.true_and]
        rw [decide_eq_true (by omega), Bool.true_and]
      obtain rfl | rfl : k = 0 ∨ k = 1 := by omega
      · exact kept 0 (by decide)
      · exact kept 8 (by decide)
    next outside => exact List.getD_eq_default _ _ (Nat.not_lt.mp outside)

theorem readItem_of_bytes {wide : Bool} {m : Memory} {a v : Dword}
    (bytes : ∀ k < itemSize wide, m (a + BitVec.ofNat 32 k) = v.extractLsb' (8 * k) 8) :
    readItem wide m a = cutItem wide v := by
  have word (b : Dword) (k : Nat) (low : m b = v.extractLsb' (8 * k) 8)
      (high : m (b + 1) = v.extractLsb' (8 * k + 8) 8) : readWord m b = v.extractLsb' (8 * k) 16 := by
    rw [readWord, low, high]
    exact BitVec.extractLsb'_append_extractLsb'_eq_extractLsb' rfl
  cases wide with
  | true =>
    have zero := bytes 0 (by decide)
    have one := bytes 1 (by decide)
    have two := bytes 2 (by decide)
    have three := bytes 3 (by decide)
    rw [BitVec.add_zero] at zero
    have upper : a + 2 + 1 = a + BitVec.ofNat 32 3 := by rw [BitVec.add_assoc]; rfl
    rw [readItem, if_pos rfl, readDword, word a 0 zero one, word (a + 2) 2 two (upper ▸ three),
      cutItem, if_pos rfl]
    exact (BitVec.extractLsb'_append_extractLsb'_eq_extractLsb' rfl).trans BitVec.extractLsb'_eq_self
  | false =>
    have zero := bytes 0 (by decide)
    have one := bytes 1 (by decide)
    rw [BitVec.add_zero] at zero
    rw [readItem, if_neg Bool.false_ne_true, word a 0 zero one, cutItem, if_neg Bool.false_ne_true]
    exact congrArg (BitVec.setWidth 32) (BitVec.setWidth_eq_extractLsb' (by decide)).symm

theorem readItem_agree {P : Dword → Prop} {wide : Bool} {m n : Memory} {a : Dword} (agree : AgreeOn P m n)
    (inside : ∀ x, (Block.mk a (itemSize wide)).Covers x → P x) : readItem wide n a = readItem wide m a := by
  have part (k : Nat) (whole : k + 2 ≤ itemSize wide) (x : Dword)
      (covered : (Block.mk (a + BitVec.ofNat 32 k) 2).Covers x) : P x := by
    have small := itemSize_le wide
    refine inside x ?_
    have wrap : (BitVec.ofNat 32 k).toNat = k := Nat.mod_eq_of_lt (by omega)
    unfold Block.Covers offset at covered ⊢
    dsimp only at covered ⊢
    bv_omega
  cases wide with
  | true =>
    have low := readWord_agree agree (part 0 (by decide))
    have high := readWord_agree agree (part 2 (by decide))
    rw [BitVec.add_zero] at low
    rw [readItem, readItem, if_pos rfl, if_pos rfl, readDword, low]
    exact congrArg (· ++ readWord m a) high
  | false =>
    have low := readWord_agree agree (part 0 (by decide))
    rw [BitVec.add_zero] at low
    rw [readItem, readItem, if_neg Bool.false_ne_true, if_neg Bool.false_ne_true, low]

/-! ## Stacks -/

section Stack

variable {wide : Bool} {top : Dword} {n : Nat}

theorem offset_item (small : itemSize wide * (n + 1) < 2 ^ 32) (a : Dword) :
    offset (itemAddress wide top (n + 1)) a < itemSize wide ↔
      itemSize wide * n < offset a top ∧ offset a top ≤ itemSize wide * (n + 1) := by
  have positive := itemSize_pos wide
  unfold itemAddress offset
  rw [Nat.mul_succ] at small ⊢
  generalize itemSize wide * n = k at *
  generalize itemSize wide = size at *
  have wrap : (BitVec.ofNat 32 (k + size)).toNat = k + size := Nat.mod_eq_of_lt small
  bv_omega

theorem stackItems_covers (small : itemSize wide * n < 2 ^ 32) (a : Dword) :
    (stackItems wide top n).Covers a ↔ 0 < offset a top ∧ offset a top ≤ itemSize wide * n := by
  unfold stackItems Block.Covers itemAddress offset
  generalize itemSize wide * n = k at *
  have wrap : (BitVec.ofNat 32 k).toNat = k := Nat.mod_eq_of_lt small
  bv_omega

/-- `values` pushed below `top`, the first one highest. -/
structure Pushed (wide : Bool) (top : Dword) (m : Memory) (values : List Dword) (m' : Memory) : Prop where
  item : ∀ i v, values[i]? = some v → ∀ k < itemSize wide,
    m' (itemAddress wide top (i + 1) + BitVec.ofNat 32 k) = v.extractLsb' (8 * k) 8
  covered : ∀ a, (stackItems wide top values.length).Covers a →
    ∃ v ∈ values, ∃ k < itemSize wide, m' a = v.extractLsb' (8 * k) 8
  outside : ∀ a, ¬(stackItems wide top values.length).Covers a → m' a = m a

theorem Pushed.nil (wide : Bool) (top : Dword) (m : Memory) : Pushed wide top m [] m where
  item i v listed := by simp at listed
  covered a inside := by
    simp only [stackItems, Block.Covers, List.length_nil, Nat.mul_zero] at inside
    exact absurd inside (Nat.not_lt_zero _)
  outside _ _ := rfl

variable {m m' : Memory} {values : List Dword}

theorem Pushed.push (before : Pushed wide top m values m')
    (small : itemSize wide * (values.length + 1) < 2 ^ 32) (v : Dword) :
    Pushed wide top m (values ++ [v])
      (writeItem wide m' (itemAddress wide top (values.length + 1)) v) := by
  have fewer : itemSize wide * values.length < 2 ^ 32 :=
    Nat.lt_of_le_of_lt (Nat.mul_le_mul_left _ (Nat.le_succ _)) small
  have length : (values ++ [v]).length = values.length + 1 := List.length_append
  constructor
  · intro i w listed k inside
    rw [writeItem_apply]
    rcases Nat.lt_or_ge i values.length with earlier | last
    · rw [List.getElem?_append_left earlier] at listed
      have below : offset (itemAddress wide top (i + 1) + BitVec.ofNat 32 k) top ≤
          itemSize wide * values.length := by
        have bound : itemSize wide * (i + 1) ≤ itemSize wide * values.length :=
          Nat.mul_le_mul_left _ earlier
        have own := (offset_item (Nat.lt_of_le_of_lt bound fewer)
          (itemAddress wide top (i + 1) + BitVec.ofNat 32 k)).mp
            (by rw [offset_add _ (by have := itemSize_le wide; omega)]; exact inside)
        omega
      rw [if_neg fun here => absurd ((offset_item small _).mp here).1 (by omega)]
      exact before.item i w listed k inside
    · obtain ⟨rfl, rfl⟩ : i = values.length ∧ v = w := by
        rw [List.getElem?_append_right last, List.getElem?_singleton, Option.ite_none_right_eq_some] at listed
        exact ⟨by omega, Option.some.inj listed.2⟩
      have position : offset (itemAddress wide top (values.length + 1))
          (itemAddress wide top (values.length + 1) + BitVec.ofNat 32 k) = k :=
        offset_add _ (by have := itemSize_le wide; omega)
      rw [position, if_pos inside]
  · intro a inside
    rw [length] at inside
    rw [writeItem_apply]
    split
    next here => exact ⟨v, by simp, _, here, rfl⟩
    next elsewhere =>
      have older : (stackItems wide top values.length).Covers a := by
        rw [stackItems_covers fewer]
        rw [stackItems_covers small] at inside
        have apart := (not_congr (offset_item small a)).mp elsewhere
        omega
      obtain ⟨w, listed, k, few, byte⟩ := before.covered a older
      exact ⟨w, List.mem_append_left _ listed, k, few, byte⟩
  · intro a outside
    rw [length, stackItems_covers small] at outside
    rw [writeItem_apply, if_neg]
    · apply before.outside
      rw [stackItems_covers fewer]
      have grows : itemSize wide * values.length ≤ itemSize wide * (values.length + 1) :=
        Nat.mul_le_mul_left _ (Nat.le_succ _)
      omega
    · intro here
      have own := (offset_item small a).mp here
      omega

theorem Pushed.push_two (before : Pushed wide top m values m')
    (small : itemSize wide * (values.length + 2) < 2 ^ 32) (v w : Dword) :
    Pushed wide top m (values ++ [v, w])
      (writeItem wide (writeItem wide m' (itemAddress wide top (values.length + 1)) v)
        (itemAddress wide top (values.length + 2)) w) := by
  have fewer : itemSize wide * (values.length + 1) < 2 ^ 32 :=
    Nat.lt_of_le_of_lt (Nat.mul_le_mul_left _ (Nat.le_succ _)) small
  have length : (values ++ [v]).length = values.length + 1 := List.length_append
  have second := (before.push fewer v).push (length.symm ▸ small) w
  rw [length, List.append_assoc] at second
  exact second

theorem Pushed.read (pushed : Pushed wide top m values m') {i : Nat} {v : Dword}
    (listed : values[i]? = some v) : readItem wide m' (itemAddress wide top (i + 1)) = cutItem wide v :=
  readItem_of_bytes (pushed.item i v listed)

end Stack

end Pmdapi.Bytes
