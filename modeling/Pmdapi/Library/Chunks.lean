import Mathlib.Algebra.GroupWithZero.Nat
import Mathlib.Data.List.Defs

/-!
A transfer of `n` units in requests of at most `max`. It ends with the last unit, with a request that
is answered short, or with one that fails. Requests are numbered; a reply may depend on the number.
-/

namespace Pmdapi.Chunks

variable {ε : Type}

inductive Exit (ε : Type) where
  | complete
  | short (count : Nat)
  | failed (e : ε)

/-- The transfer of `n` units from request `k` on: the counts answered, and the end. -/
inductive Transfer (reply : Nat → Nat → Except ε Nat) (max : Nat) :
    Nat → Nat → List Nat → Exit ε → Prop where
  | failed {k n : Nat} {e : ε} (answer : reply k (min n max) = .error e) :
      Transfer reply max k n [] (.failed e)
  | short {k n c : Nat} (answer : reply k (min n max) = .ok c) (less : c < min n max) :
      Transfer reply max k n [c] (.short c)
  | complete {k n : Nat} (answer : reply k n = .ok n) (last : n ≤ max) :
      Transfer reply max k n [n] .complete
  | more {k n : Nat} {cs : List Nat} {e : Exit ε} (answer : reply k max = .ok max) (left : max < n)
      (rest : Transfer reply max (k + 1) (n - max) cs e) :
      Transfer reply max k n (max :: cs) e

variable {reply : Nat → Nat → Except ε Nat} {max : Nat}

def Bounded (reply : Nat → Nat → Except ε Nat) : Prop := ∀ k n c, reply k n = .ok c → c ≤ n

theorem Transfer.exists (bounded : Bounded reply) (positive : 0 < max) (k n : Nat) :
    ∃ cs e, Transfer reply max k n cs e := by
  induction n using Nat.strongRecOn generalizing k with
  | ind n ih =>
    cases answer : reply k (min n max) with
    | error e => exact ⟨[], _, .failed answer⟩
    | ok c =>
      have most := bounded _ _ _ answer
      by_cases less : c < min n max
      · exact ⟨[c], _, .short answer less⟩
      · have full : c = min n max := by omega
        subst full
        by_cases left : max < n
        · rw [Nat.min_eq_right (Nat.le_of_lt left)] at answer
          obtain ⟨cs, e, rest⟩ := ih (n - max) (by omega) (k + 1)
          exact ⟨max :: cs, e, .more answer left rest⟩
        · rw [Nat.min_eq_left (Nat.not_lt.mp left)] at answer
          exact ⟨[n], _, .complete answer (Nat.not_lt.mp left)⟩

theorem Transfer.sum_le {k n : Nat} {cs : List Nat} {e : Exit ε}
    (transfer : Transfer reply max k n cs e) : cs.sum ≤ n := by
  induction transfer with
  | failed => exact Nat.zero_le _
  | short answer less =>
    rw [List.sum_singleton]
    omega
  | complete answer last => exact Nat.le_of_eq List.sum_singleton
  | more answer left rest ih =>
    rw [List.sum_cons]
    omega

/-- The first reply is an error, and then it is the end, or it is the first count. -/
theorem Transfer.first {k n : Nat} {cs : List Nat} {e : Exit ε}
    (transfer : Transfer reply max k n cs e) :
    (∃ err, reply k (min n max) = .error err ∧ cs = [] ∧ e = .failed err) ∨
      ∃ c rest, reply k (min n max) = .ok c ∧ cs = c :: rest := by
  cases transfer with
  | failed answer => exact .inl ⟨_, answer, rfl, rfl⟩
  | short answer less => exact .inr ⟨_, _, answer, rfl⟩
  | complete answer last =>
    rw [Nat.min_eq_left last]
    exact .inr ⟨_, _, answer, rfl⟩
  | more answer left rest =>
    rw [Nat.min_eq_right (Nat.le_of_lt left)]
    exact .inr ⟨_, _, answer, rfl⟩

theorem Transfer.failed_sum {k n : Nat} {cs : List Nat} {err : ε} (positive : 0 < max)
    (transfer : Transfer reply max k n cs (.failed err)) : cs = [] ∨ 0 < cs.sum := by
  cases transfer with
  | failed => exact .inl rfl
  | more answer left rest =>
    right
    rw [List.sum_cons]
    omega

def Full (reply : Nat → Nat → Except ε Nat) (max : Nat) : Prop := ∀ k, ∀ n ≤ max, reply k n = .ok n

/-- Request `j` is reached, after full answers to all before it, and is answered short. -/
def ShortAt (reply : Nat → Nat → Except ε Nat) (max k n j : Nat) : Prop :=
  (j = 0 ∨ max * j < n) ∧ (∀ i < j, reply (k + i) max = .ok max) ∧
    ∃ c < min (n - max * j) max, reply (k + j) (min (n - max * j) max) = .ok c

theorem shortAt_succ {k n j : Nat} (answer : reply k max = .ok max) (left : max < n) :
    ShortAt reply max k n (j + 1) ↔ ShortAt reply max (k + 1) (n - max) j := by
  have position : n - max * (j + 1) = n - max - max * j := by
    rw [Nat.mul_add]
    omega
  have request : k + 1 + j = k + (j + 1) := by omega
  unfold ShortAt
  rw [position, request]
  constructor
  · rintro ⟨reached, full, less⟩
    refine ⟨?_, ?_, less⟩
    · have : max * (j + 1) < n := reached.resolve_left (by omega)
      rw [Nat.mul_add] at this
      omega
    · intro i below
      have := full (i + 1) (by omega)
      rwa [show k + (i + 1) = k + 1 + i by omega] at this
  · rintro ⟨reached, full, less⟩
    refine ⟨?_, ?_, less⟩
    · right
      rw [Nat.mul_add]
      rcases reached with rfl | reached
      · omega
      · omega
    · intro i below
      cases i with
      | zero => exact answer
      | succ i =>
        rw [show k + (i + 1) = k + 1 + i by omega]
        exact full i (by omega)

/-- A full first answer rules out that the first request is the short one. -/
theorem not_shortAt_zero {k n c : Nat} (answer : reply k (min n max) = .ok c)
    (full : min n max ≤ c) : ¬ShortAt reply max k n 0 := by
  rintro ⟨_, _, d, less, same⟩
  simp only [Nat.mul_zero, Nat.sub_zero, Nat.add_zero, answer, Except.ok.injEq] at same less
  omega

theorem ShortAt.first_full {k n j : Nat} (short : ShortAt reply max k n (j + 1)) :
    reply k (min n max) = .ok max ∧ max < n := by
  obtain ⟨reached, full, _⟩ := short
  have left : max * (j + 1) < n := reached.resolve_left (by omega)
  have atLeast : max * 1 ≤ max * (j + 1) := Nat.mul_le_mul_left max (by omega)
  have above : max < n := by omega
  have first := full 0 (by omega)
  rw [Nat.add_zero] at first
  rw [Nat.min_eq_right (Nat.le_of_lt above)]
  exact ⟨first, above⟩

theorem Transfer.short_sum {k n c : Nat} {cs : List Nat}
    (transfer : Transfer reply max k n cs (.short c : Exit ε)) :
    0 < cs.length ∧ cs.sum = max * (cs.length - 1) + c := by
  generalize ended : (.short c : Exit ε) = e at transfer
  induction transfer with
  | failed => cases ended
  | short answer less =>
    cases ended
    exact ⟨Nat.one_pos, by simp⟩
  | complete => cases ended
  | @more k n cs e answer left rest ih =>
    obtain ⟨nonempty, total⟩ := ih ended
    refine ⟨Nat.succ_pos _, ?_⟩
    obtain ⟨m, size⟩ : ∃ m, cs.length = m + 1 := ⟨cs.length - 1, by omega⟩
    rw [List.sum_cons, total, List.length_cons, size, Nat.add_sub_cancel, Nat.add_sub_cancel,
      Nat.mul_succ]
    omega

/-- Which request a transfer ends short at can be read off the replies. -/
theorem Transfer.short_iff {k n : Nat} {cs : List Nat} {e : Exit ε}
    (transfer : Transfer reply max k n cs e) (j : Nat) :
    ShortAt reply max k n j ↔ (∃ c, e = .short c) ∧ cs.length = j + 1 := by
  induction transfer generalizing j with
  | @failed k n e answer =>
    constructor
    · intro short
      cases j with
      | zero =>
        obtain ⟨_, _, c, _, same⟩ := short
        rw [Nat.mul_zero, Nat.sub_zero, Nat.add_zero, answer] at same
        cases same
      | succ j =>
        rw [short.first_full.1] at answer
        cases answer
    · rintro ⟨⟨_, same⟩, _⟩
      cases same
  | @short k n c answer less =>
    cases j with
    | zero =>
      refine ⟨fun _ => ⟨⟨c, rfl⟩, rfl⟩, fun _ => ⟨.inl rfl, nofun, c, ?_⟩⟩
      simpa only [Nat.mul_zero, Nat.sub_zero, Nat.add_zero] using ⟨less, answer⟩
    | succ j =>
      constructor
      · intro short
        obtain ⟨first, above⟩ := short.first_full
        rw [first, Except.ok.injEq] at answer
        omega
      · rintro ⟨_, length⟩
        simp at length
  | @complete k n answer last =>
    constructor
    · intro short
      cases j with
      | zero =>
        rw [← Nat.min_eq_left last] at answer
        exact absurd short (not_shortAt_zero answer (by omega))
      | succ j =>
        have above := short.first_full.2
        omega
    · rintro ⟨⟨_, same⟩, _⟩
      cases same
  | @more k n cs e answer left rest ih =>
    cases j with
    | zero =>
      constructor
      · intro short
        rw [← Nat.min_eq_right (Nat.le_of_lt left)] at answer
        exact absurd short (not_shortAt_zero answer (by omega))
      · rintro ⟨⟨c, rfl⟩, length⟩
        have nonempty := rest.short_sum.1
        simp only [List.length_cons] at length
        omega
    | succ j =>
      rw [shortAt_succ answer left, ih j, List.length_cons, Nat.add_right_cancel_iff]

end Pmdapi.Chunks
