import Mathlib.Logic.Function.Basic
import Mathlib.Data.Fin.Tuple.Basic
import Mathlib.Data.List.FinRange
import Mathlib.Data.List.OfFn
import Mathlib.Data.List.Perm.Basic

/-! Tables with a fixed number of slots that are searched from the first slot on. -/

namespace Pmdapi.Slots

variable {n : Nat} {α : Type}

def firstWhere (p : α → Bool) (t : Fin n → α) : Option (Fin n) := Fin.find? fun i => p (t i)

theorem firstWhere_eq_some {p : α → Bool} {t : Fin n → α} {i : Fin n} :
    firstWhere p t = some i ↔ p (t i) = true ∧ ∀ j < i, p (t j) = false := by
  simp [firstWhere]

theorem firstWhere_eq_none {p : α → Bool} {t : Fin n → α} :
    firstWhere p t = none ↔ ∀ i, p (t i) = false := by
  simp [firstWhere]

theorem firstWhere_holds {p : α → Bool} {t : Fin n → α} {i : Fin n}
    (found : firstWhere p t = some i) : p (t i) = true :=
  (firstWhere_eq_some.mp found).1

theorem firstWhere_isSome {p : α → Bool} {t : Fin n → α} {j : Fin n} (holds : p (t j) = true) :
    ∃ i, firstWhere p t = some i := by
  cases found : firstWhere p t with
  | none => simp [firstWhere_eq_none.mp found j] at holds
  | some i => exact ⟨i, rfl⟩

/-! ## The entries in use -/

def used (p : α → Bool) (t : Fin n → α) : List α := (List.ofFn t).filter p

theorem mem_used {p : α → Bool} {t : Fin n → α} {a : α} :
    a ∈ used p t ↔ (∃ i, t i = a) ∧ p a = true := by
  rw [used, List.mem_filter, List.mem_ofFn]

theorem used_of_forall {p : α → Bool} {t : Fin n → α} (unused : ∀ i, p (t i) = false) :
    used p t = [] := by
  apply List.filter_eq_nil_iff.mpr
  intro a member
  obtain ⟨i, rfl⟩ := (List.mem_ofFn' t a).mp member
  simp [unused i]

/-- Slot `i` apart, the entries in use stay the same when it is replaced. -/
theorem used_update (p : α → Bool) (t : Fin n → α) (i : Fin n) :
    ∃ rest, ∀ a, (used p (Function.update t i a)).Perm (if p a then a :: rest else rest) := by
  refine ⟨((List.ofFn t).eraseIdx i).filter p, ?_⟩
  intro a
  have inside : i.val < (List.ofFn t).length := by simp
  have replaced : List.ofFn (Function.update t i a) = (List.ofFn t).set i a := by
    apply List.ext_getElem
    · simp
    · intro j _ _
      simp only [List.getElem_ofFn, List.getElem_set, Function.update_apply, Fin.ext_iff, eq_comm]
  rw [used, replaced, ← List.filter_cons]
  exact (List.set_perm_cons_eraseIdx inside a).filter p

theorem used_fill {p : α → Bool} {t : Fin n → α} {i : Fin n} {a : α} (unused : p (t i) = false)
    (fills : p a = true) : (used p (Function.update t i a)).Perm (a :: used p t) := by
  obtain ⟨rest, entries⟩ := used_update p t i
  have before := entries (t i)
  have after := entries a
  rw [Function.update_eq_self, unused, if_neg (by decide)] at before
  rw [if_pos fills] at after
  exact after.trans (before.symm.cons a)

theorem used_clear {p : α → Bool} {t : Fin n → α} {i : Fin n} {a : α} (inUse : p (t i) = true)
    (clears : p a = false) : (used p t).Perm (t i :: used p (Function.update t i a)) := by
  obtain ⟨rest, entries⟩ := used_update p t i
  have before := entries (t i)
  have after := entries a
  rw [Function.update_eq_self, if_pos inUse] at before
  rw [clears, if_neg (by decide)] at after
  exact before.trans (after.symm.cons _)

theorem used_replace {p : α → Bool} {t : Fin n → α} {i : Fin n} {a : α} (inUse : p (t i) = true)
    (fills : p a = true) : ∃ rest, (used p t).Perm (t i :: rest) ∧
      (used p (Function.update t i a)).Perm (a :: rest) := by
  obtain ⟨rest, entries⟩ := used_update p t i
  have before := entries (t i)
  have after := entries a
  rw [Function.update_eq_self, if_pos inUse] at before
  rw [if_pos fills] at after
  exact ⟨rest, before, after⟩

theorem length_used {p : α → Bool} {t : Fin n → α} (full : ∀ i, p (t i) = true) :
    (used p t).length = n := by
  rw [used, List.filter_eq_self.mpr, List.length_ofFn]
  intro a member
  obtain ⟨i, rfl⟩ := (List.mem_ofFn' t a).mp member
  exact full i

theorem takeWhile_congr {p q : α → Bool} {xs : List α} (same : ∀ a ∈ xs, p a = q a) :
    xs.takeWhile p = xs.takeWhile q := by
  induction xs with
  | nil => rfl
  | cons a rest ih =>
    have others := ih fun b inside => same b (List.mem_cons_of_mem _ inside)
    rw [List.takeWhile_cons, List.takeWhile_cons, same a List.mem_cons_self, others]

theorem takeWhile_eq_filter {p : α → Bool} {xs : List α}
    (packed : xs.Pairwise fun a b => p b = true → p a = true) : xs.takeWhile p = xs.filter p := by
  induction xs with
  | nil => rfl
  | cons a rest ih =>
    obtain ⟨first, packed⟩ := List.pairwise_cons.mp packed
    by_cases inUse : p a = true
    · rw [List.takeWhile_cons_of_pos inUse, List.filter_cons_of_pos inUse, ih packed]
    · rw [List.takeWhile_cons_of_neg inUse, List.filter_cons_of_neg inUse]
      symm
      apply List.filter_eq_nil_iff.mpr
      intro b member used
      exact inUse (first b member used)

/-- If the entries in use come first, a sweep that stops at the first unused slot meets them all. -/
theorem takeWhile_used {p : α → Bool} {t : Fin n → α}
    (packed : ∀ i j, i ≤ j → p (t j) = true → p (t i) = true) :
    ((List.finRange n).map t).takeWhile p = used p t := by
  rw [← List.ofFn_eq_map, used]
  apply takeWhile_eq_filter
  rw [List.pairwise_ofFn]
  intro i j before
  exact packed i j before.le

end Pmdapi.Slots
