import Mathlib.Data.List.Dedup
import Pmdapi.Library.Slots

/-!
A bounded table that remembers its answers: a key that was answered gets the same answer again, a new
one gets a fresh answer as long as there is room. Then such a table in an array of slots.
-/

namespace Pmdapi.Memo

variable {K V : Type}

abbrev Table (K V : Type) := List (K × V)

def keys (t : Table K V) : List K := t.map Prod.fst

def values (t : Table K V) : List V := t.map Prod.snd

/-- One question to a table with room for `n` keys. `none` is a refusal. -/
inductive Asks (n : Nat) (t : Table K V) (k : K) : Option V → Table K V → Prop where
  | known {v : V} (listed : (k, v) ∈ t) : Asks n t k (some v) t
  | entered {v : V} (new : k ∉ keys t) (fresh : v ∉ values t) (room : t.length < n) :
    Asks n t k (some v) (t ++ [(k, v)])
  | refused (new : k ∉ keys t) (full : t.length = n) : Asks n t k none t

/-- The questions of a run with their answers, latest first, and the table after them. -/
inductive Run (n : Nat) : List (K × Option V) → Table K V → Prop where
  | start : Run n [] []
  | ask {past : List (K × Option V)} {t t' : Table K V} {k : K} {a : Option V} (before : Run n past t)
    (step : Asks n t k a t') : Run n ((k, a) :: past) t'

structure Distinct (t : Table K V) : Prop where
  onKeys : (keys t).Nodup
  onValues : (values t).Nodup

section Table

variable {n : Nat} {t t' : Table K V} {k l : K} {v w : V} {a : Option V} {past : List (K × Option V)}

theorem Distinct.enter (distinct : Distinct t) (new : k ∉ keys t) (fresh : v ∉ values t) :
    Distinct (t ++ [(k, v)]) := by
  constructor
  · rw [keys, List.map_append]
    refine List.nodup_append.mpr ⟨distinct.onKeys, List.nodup_singleton k, ?_⟩
    intro l listed k' last same
    rw [same, List.mem_singleton.mp last] at listed
    exact new listed
  · rw [values, List.map_append]
    refine List.nodup_append.mpr ⟨distinct.onValues, List.nodup_singleton v, ?_⟩
    intro w listed v' last same
    rw [same, List.mem_singleton.mp last] at listed
    exact fresh listed

theorem Distinct.same (distinct : Distinct t) (first : (k, v) ∈ t) (second : (k, w) ∈ t) : v = w := by
  have same := List.inj_on_of_nodup_map distinct.onKeys first second rfl
  exact (Prod.mk.inj same).2

theorem Distinct.different (distinct : Distinct t) (first : (k, v) ∈ t) (second : (l, v) ∈ t) : k = l := by
  have same := List.inj_on_of_nodup_map distinct.onValues first second rfl
  exact (Prod.mk.inj same).1

theorem Asks.distinct (step : Asks n t k a t') (distinct : Distinct t) : Distinct t' := by
  cases step with
  | known => exact distinct
  | entered new fresh _ => exact distinct.enter new fresh
  | refused => exact distinct

theorem Asks.fits (step : Asks n t k a t') (fits : t.length ≤ n) : t'.length ≤ n := by
  cases step with
  | known => exact fits
  | entered _ _ room => simpa using Nat.succ_le_of_lt room
  | refused => exact fits

/-- A new key is refused just if the table is full. -/
theorem Asks.none_iff (step : Asks n t k a t') (new : k ∉ keys t) : a = none ↔ t.length = n := by
  cases step with
  | known listed => exact absurd (List.mem_map_of_mem listed) new
  | entered _ _ room => simp only [reduceCtorEq, false_iff]; omega
  | refused _ full => exact iff_of_true rfl full

theorem Run.distinct (run : Run n past t) : Distinct t := by
  induction run with
  | start => exact ⟨List.nodup_nil, List.nodup_nil⟩
  | ask _ step ih => exact step.distinct ih

theorem Run.fits (run : Run n past t) : t.length ≤ n := by
  induction run with
  | start => exact Nat.zero_le n
  | ask _ step ih => exact step.fits ih

theorem Run.mem_iff (run : Run n past t) : (k, v) ∈ t ↔ (k, some v) ∈ past := by
  induction run with
  | start => exact iff_of_false List.not_mem_nil List.not_mem_nil
  | ask _ step ih =>
    cases step with
    | known listed =>
      constructor
      · intro member
        exact List.mem_cons_of_mem _ (ih.mp member)
      · intro member
        rcases List.mem_cons.mp member with same | member
        · obtain ⟨rfl, rfl⟩ := by simpa using same
          exact listed
        · exact ih.mpr member
    | entered => simp [ih, or_comm]
    | refused => simp [ih]

theorem Run.refused (run : Run n past t) (refused : (k, none) ∈ past) : k ∉ keys t ∧ t.length = n := by
  induction run with
  | start => exact absurd refused List.not_mem_nil
  | ask _ step ih =>
    cases step with
    | known listed =>
      rcases List.mem_cons.mp refused with same | before
      · cases (Prod.mk.inj same).2
      · exact ih before
    | entered new fresh room =>
      rcases List.mem_cons.mp refused with same | before
      · cases (Prod.mk.inj same).2
      · have full := (ih before).2
        omega
    | refused new full =>
      rcases List.mem_cons.mp refused with same | before
      · rw [(Prod.mk.inj same).1]
        exact ⟨new, full⟩
      · exact ih before

/-- A key gets the same answer every time. -/
theorem Run.same {b : Option V} (run : Run n past t) (first : (k, a) ∈ past) (second : (k, b) ∈ past) :
    a = b := by
  have listed {c : V} (answered : (k, some c) ∈ past) : k ∈ keys t :=
    List.mem_map_of_mem (run.mem_iff.mpr answered)
  cases a with
  | none =>
    cases b with
    | none => rfl
    | some w => exact absurd (listed second) (run.refused first).1
  | some v =>
    cases b with
    | none => exact absurd (listed first) (run.refused second).1
    | some w => exact congrArg some (run.distinct.same (run.mem_iff.mpr first) (run.mem_iff.mpr second))

theorem Run.different (run : Run n past t) (first : (k, some v) ∈ past) (second : (l, some v) ∈ past) :
    k = l :=
  run.distinct.different (run.mem_iff.mpr first) (run.mem_iff.mpr second)

theorem Run.length_eq [DecidableEq K] (run : Run n past t) :
    t.length = ((past.filter fun c => c.2.isSome).map Prod.fst).dedup.length := by
  have sameKeys : (keys t).Perm ((past.filter fun c => c.2.isSome).map Prod.fst).dedup := by
    apply (List.perm_ext_iff_of_nodup run.distinct.onKeys (List.nodup_dedup _)).mpr
    intro k
    rw [List.mem_dedup]
    constructor
    · intro member
      obtain ⟨⟨k, v⟩, listed, rfl⟩ := List.mem_map.mp member
      exact List.mem_map_of_mem (List.mem_filter.mpr ⟨run.mem_iff.mp listed, rfl⟩)
    · intro member
      obtain ⟨⟨k, a⟩, answered, rfl⟩ := List.mem_map.mp member
      obtain ⟨answered, some⟩ := List.mem_filter.mp answered
      obtain ⟨v, rfl⟩ := Option.isSome_iff_exists.mp some
      exact List.mem_map_of_mem (run.mem_iff.mpr answered)
  rw [← sameKeys.length_eq, keys, List.length_map]

end Table

/-! ## In slots -/

section Slots

open Slots

variable {E : Type} {n : Nat}

/-- The slots hold the table from the first one on, and the others are free. -/
structure Holds (entry : E → Option (K × V)) (slots : Fin n → E) (t : Table K V) : Prop where
  fits : t.length ≤ n
  slot : ∀ i : Fin n, entry (slots i) = t[i.val]?

variable {entry : E → Option (K × V)} {slots : Fin n → E} {t : Table K V} {k : K} {v : V}

theorem Holds.mem_iff (holds : Holds entry slots t) : (k, v) ∈ t ↔ ∃ i, entry (slots i) = some (k, v) := by
  rw [List.mem_iff_getElem?]
  constructor
  · rintro ⟨j, found⟩
    have inside : j < n := (List.getElem?_eq_some_iff.mp found).choose.trans_le holds.fits
    exact ⟨⟨j, inside⟩, (holds.slot ⟨j, inside⟩).trans found⟩
  · rintro ⟨i, found⟩
    exact ⟨i.val, (holds.slot i).symm.trans found⟩

theorem Holds.used_iff (holds : Holds entry slots t) (i : Fin n) :
    entry (slots i) ≠ none ↔ i.val < t.length := by
  rw [holds.slot, Ne, List.getElem?_eq_none_iff, Nat.not_le]

theorem Holds.injective (holds : Holds entry slots t) (distinct : Distinct t) {i j : Fin n} {l : K} {w : V}
    (first : entry (slots i) = some (k, v)) (second : entry (slots j) = some (l, w))
    (same : k = l ∨ v = w) : i = j := by
  rw [holds.slot] at first second
  have key : (keys t)[i.val]? = some k := by rw [keys, List.getElem?_map, first]; rfl
  have key' : (keys t)[j.val]? = some l := by rw [keys, List.getElem?_map, second]; rfl
  have value : (values t)[i.val]? = some v := by rw [values, List.getElem?_map, first]; rfl
  have value' : (values t)[j.val]? = some w := by rw [values, List.getElem?_map, second]; rfl
  apply Fin.ext
  rcases same with rfl | rfl
  · exact (List.getElem?_inj (List.getElem?_eq_some_iff.mp key).choose distinct.onKeys).mp
      (key.trans key'.symm)
  · exact (List.getElem?_inj (List.getElem?_eq_some_iff.mp value).choose distinct.onValues).mp
      (value.trans value'.symm)

variable {p : E → Bool}

theorem Holds.find_known (holds : Holds entry slots t) (distinct : Distinct t)
    (search : ∀ e, p e = true ↔ ∀ l w, entry e = some (l, w) → l = k) (listed : (k, v) ∈ t) :
    ∃ i, firstWhere p slots = some i ∧ entry (slots i) = some (k, v) := by
  obtain ⟨i, here⟩ := holds.mem_iff.mp listed
  refine ⟨i, firstWhere_eq_some.mpr ⟨(search _).mpr ?_, ?_⟩, here⟩
  · intro l w found
    exact (Prod.mk.inj (Option.some.inj (found.symm.trans here))).1
  · intro j before
    have used : entry (slots j) ≠ none := by
      have last := (holds.used_iff i).mp (by rw [here]; exact Option.some_ne_none _)
      exact (holds.used_iff j).mpr (Nat.lt_trans before last)
    obtain ⟨⟨l, w⟩, found⟩ := Option.ne_none_iff_exists'.mp used
    rw [Bool.eq_false_iff]
    intro hit
    have same := (search _).mp hit l w found
    exact before.ne (holds.injective distinct found here (.inl same))

theorem Holds.find_free (holds : Holds entry slots t)
    (search : ∀ e, p e = true ↔ ∀ l w, entry e = some (l, w) → l = k) (new : k ∉ keys t)
    (room : t.length < n) : firstWhere p slots = some ⟨t.length, room⟩ := by
  have free : entry (slots ⟨t.length, room⟩) = none := by rw [holds.slot, List.getElem?_length]
  refine firstWhere_eq_some.mpr ⟨(search _).mpr ?_, ?_⟩
  · intro l w found
    rw [free] at found
    cases found
  · intro j before
    obtain ⟨⟨l, w⟩, found⟩ := Option.ne_none_iff_exists'.mp ((holds.used_iff j).mpr before)
    rw [Bool.eq_false_iff]
    intro hit
    have listed : (l, w) ∈ t := holds.mem_iff.mpr ⟨j, found⟩
    exact new ((search _).mp hit l w found ▸ List.mem_map_of_mem listed)

theorem Holds.find_none (holds : Holds entry slots t)
    (search : ∀ e, p e = true ↔ ∀ l w, entry e = some (l, w) → l = k) (new : k ∉ keys t)
    (full : t.length = n) : firstWhere p slots = none := by
  apply firstWhere_eq_none.mpr
  intro j
  obtain ⟨⟨l, w⟩, found⟩ := Option.ne_none_iff_exists'.mp ((holds.used_iff j).mpr (full ▸ j.isLt))
  rw [Bool.eq_false_iff]
  intro hit
  have listed : (l, w) ∈ t := holds.mem_iff.mpr ⟨j, found⟩
  exact new ((search _).mp hit l w found ▸ List.mem_map_of_mem listed)

theorem Holds.enter (holds : Holds entry slots t) (room : t.length < n) {e : E}
    (new : entry e = some (k, v)) :
    Holds entry (Function.update slots ⟨t.length, room⟩ e) (t ++ [(k, v)]) := by
  constructor
  · simpa using Nat.succ_le_of_lt room
  · intro i
    by_cases here : i = ⟨t.length, room⟩
    · rw [here, Function.update_self, new, List.getElem?_append_right (Nat.le_refl _), Nat.sub_self]
      rfl
    · rw [Function.update_of_ne here, holds.slot]
      have other : i.val ≠ t.length := fun same => here (Fin.ext same)
      by_cases below : i.val < t.length
      · rw [List.getElem?_append_left below]
      · rw [List.getElem?_eq_none_iff.mpr (by omega), List.getElem?_eq_none_iff.mpr (by simp; omega)]

end Slots

end Pmdapi.Memo
