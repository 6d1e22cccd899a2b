import Mathlib.Order.Defs.Unbundled
import Mathlib.Logic.Relation

/-!
Effects of state programs. A program is read through its final state, and what it may do to the
state is a preorder: sequencing composes effects, so an effect is proved one primitive at a time.
-/

namespace Pmdapi.Effect

universe u
variable {S : Type u} {α β : Type u}

def reads (f : S → α) : StateM S α := fun s => (f s, s)

def updates (f : S → S) : StateM S PUnit := fun s => (⟨⟩, f s)

def answers (f : S → α × S) : StateM S α := f

def onlyIf (c : Bool) (m : StateM S PUnit) : StateM S PUnit := if c then m else pure ⟨⟩

/-- The state a program ends in. -/
def final (m : StateM S α) (s : S) : S := (m s).2

def result (m : StateM S α) (s : S) : α := (m s).1

theorem run_eq (m : StateM S α) (s : S) : m s = (result m s, final m s) := rfl

@[simp] theorem final_pure (a : α) (s : S) : final (pure a) s = s := rfl

@[simp] theorem result_pure (a : α) (s : S) : result (pure a : StateM S α) s = a := rfl

@[simp] theorem final_bind (m : StateM S α) (k : α → StateM S β) (s : S) :
    final (m >>= k) s = final (k (result m s)) (final m s) := rfl

@[simp] theorem result_bind (m : StateM S α) (k : α → StateM S β) (s : S) :
    result (m >>= k) s = result (k (result m s)) (final m s) := rfl

@[simp] theorem final_map (f : α → β) (m : StateM S α) (s : S) : final (f <$> m) s = final m s := rfl

@[simp] theorem result_map (f : α → β) (m : StateM S α) (s : S) :
    result (f <$> m) s = f (result m s) := rfl

@[simp] theorem final_reads (f : S → α) (s : S) : final (reads f) s = s := rfl

@[simp] theorem result_reads (f : S → α) (s : S) : result (reads f) s = f s := rfl

theorem final_reads_bind (f : S → α) (k : α → StateM S β) (s : S) :
    final (reads f >>= k) s = final (k (f s)) s := rfl

@[simp] theorem final_updates (f : S → S) (s : S) : final (updates f) s = f s := rfl

@[simp] theorem final_answers (f : S → α × S) (s : S) : final (answers f) s = (f s).2 := rfl

@[simp] theorem result_answers (f : S → α × S) (s : S) : result (answers f) s = (f s).1 := rfl

@[simp] theorem final_ite (c : Prop) [Decidable c] (m n : StateM S α) (s : S) :
    final (if c then m else n) s = if c then final m s else final n s := by
  split <;> rfl

@[simp] theorem result_ite (c : Prop) [Decidable c] (m n : StateM S α) (s : S) :
    result (if c then m else n) s = if c then result m s else result n s := by
  split <;> rfl

@[simp] theorem final_onlyIf (c : Bool) (m : StateM S PUnit) (s : S) :
    final (onlyIf c m) s = if c then final m s else s := by
  unfold onlyIf
  split <;> rfl

@[simp] theorem final_forM_nil {γ : Type u} (body : γ → StateM S PUnit) (s : S) :
    final (([] : List γ).forM body) s = s := rfl

@[simp] theorem final_forM_cons {γ : Type u} (x : γ) (xs : List γ) (body : γ → StateM S PUnit) (s : S) :
    final ((x :: xs).forM body) s = final (xs.forM body) (final (body x) s) := rfl

/-- Every run of `m` moves the state along `R`. -/
def Moves (R : S → S → Prop) (m : StateM S α) : Prop :=
  ∀ s, R s (final m s)

section Rules

variable {R : S → S → Prop}

theorem Moves.mono {Q : S → S → Prop} {m : StateM S α} (h : Moves R m)
    (weaker : ∀ s t, R s t → Q s t) : Moves Q m :=
  fun s => weaker _ _ (h s)

@[simp] theorem moves_updates (f : S → S) : Moves R (updates f) ↔ ∀ s, R s (f s) := Iff.rfl

@[simp] theorem moves_answers (f : S → α × S) : Moves R (answers f) ↔ ∀ s, R s (f s).2 := Iff.rfl

@[simp] theorem Moves.ite {c : Prop} [Decidable c] {m n : StateM S α} (hm : c → Moves R m)
    (hn : ¬c → Moves R n) : Moves R (if c then m else n) := by
  split
  next h => exact hm h
  next h => exact hn h

variable [IsPreorder S R]

@[simp] theorem moves_pure (a : α) : Moves R (pure a : StateM S α) := fun s => refl s

@[simp] theorem moves_reads (f : S → α) : Moves R (reads f) := fun s => refl s

@[simp] theorem Moves.bind {m : StateM S α} {k : α → StateM S β} (hm : Moves R m)
    (hk : ∀ a, Moves R (k a)) : Moves R (m >>= k) :=
  fun s => IsTrans.trans _ _ _ (hm s) (hk _ _)

@[simp] theorem Moves.map {m : StateM S α} {f : α → β} (hm : Moves R m) : Moves R (f <$> m) :=
  Moves.bind hm fun _ => moves_pure _

@[simp] theorem Moves.onlyIf {c : Bool} {m : StateM S PUnit} (hm : c = true → Moves R m) :
    Moves R (onlyIf c m) := by
  unfold Effect.onlyIf
  split
  next h => exact hm h
  next => exact moves_pure _

@[simp] theorem Moves.forM {γ : Type u} {xs : List γ} {body : γ → StateM S PUnit}
    (hbody : ∀ x ∈ xs, Moves R (body x)) : Moves R (xs.forM body) := by
  induction xs with
  | nil => exact moves_pure _
  | cons x xs ih =>
    refine Moves.bind (hbody x List.mem_cons_self) fun _ => ih fun y hy => ?_
    exact hbody y (List.mem_cons_of_mem _ hy)

theorem moved_bind {m : StateM S α} {k : α → StateM S β} {s : S} (first : R s (final m s))
    (rest : R (final m s) (final (k (result m s)) (final m s))) : R s (final (m >>= k) s) :=
  IsTrans.trans _ _ _ first rest

end Rules

def Returns (P : α → Prop) (m : StateM S α) : Prop := ∀ s, P (result m s)

section Returns

variable {P : β → Prop}

theorem Returns.pure {b : β} (holds : P b) : Returns P (pure b : StateM S β) := fun _ => holds

theorem Returns.bind {m : StateM S α} {k : α → StateM S β} (holds : ∀ a, Returns P (k a)) :
    Returns P (m >>= k) := fun _ => holds _ _

theorem Returns.ite {c : Prop} [Decidable c] {m n : StateM S β} (hm : c → Returns P m)
    (hn : ¬c → Returns P n) : Returns P (if c then m else n) := by
  split
  next h => exact hm h
  next h => exact hn h

/-- The runs of `m` that return a value with `P` move the state along `R`. -/
def MovesWhen (P : β → Prop) (R : S → S → Prop) (m : StateM S β) : Prop :=
  ∀ s, P (result m s) → R s (final m s)

variable {R : S → S → Prop}

theorem Moves.when {m : StateM S β} (moves : Moves R m) : MovesWhen P R m := fun s _ => moves s

theorem Returns.never {m : StateM S β} (never : Returns (¬ P ·) m) : MovesWhen P R m :=
  fun s holds => absurd holds (never s)

theorem MovesWhen.ite {c : Prop} [Decidable c] {m n : StateM S β} (hm : c → MovesWhen P R m)
    (hn : ¬c → MovesWhen P R n) : MovesWhen P R (if c then m else n) := by
  split
  next h => exact hm h
  next h => exact hn h

end Returns

def Keeps {γ : Type*} (f : S → γ) (s t : S) : Prop := f t = f s

instance {γ : Type*} (f : S → γ) : IsPreorder S (Keeps f) where
  refl _ := rfl
  trans _ _ _ first second := Eq.trans second first

theorem invariant_of_run {I : S → Prop} {step : S → S → Prop} {s t : S}
    (keeps : ∀ s t, I s → step s t → I t) (start : I s)
    (run : Relation.ReflTransGen step s t) : I t := by
  induction run with
  | refl => exact start
  | tail _ last ih => exact keeps _ _ ih last

end Pmdapi.Effect
