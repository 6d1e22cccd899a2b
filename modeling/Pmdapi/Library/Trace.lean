/-!
Runs of a step relation with the states they went through, and the rule that says along which runs a
property is never lost.
-/

namespace Pmdapi.Effect

variable {S L : Type} {Start : S → Prop} {Step : S → L → S → Prop}

/-- A run: the states it left with the steps taken there, latest first, and the state it reached. -/
inductive Trace (Start : S → Prop) (Step : S → L → S → Prop) : List (S × L) → S → Prop where
  | start {s : S} (initial : Start s) : Trace Start Step [] s
  | step {past : List (S × L)} {s t : S} {l : L} (before : Trace Start Step past s)
    (taken : Step s l t) : Trace Start Step ((s, l) :: past) t

def Throughout (Good : S → Prop) (past : List (S × L)) (s : S) : Prop :=
  Good s ∧ ∀ p ∈ past, Good p.1

variable {Good Aux : S → Prop} {Right : S → L → Prop} {past : List (S × L)} {s : S}

theorem Trace.invariant {I : S → Prop} (initial : ∀ s, Start s → I s)
    (step : ∀ s l t, I s → Step s l t → Right s l → I t)
    (run : Trace Start Step past s) (right : ∀ p ∈ past, Right p.1 p.2) : I s := by
  induction run with
  | start first => exact initial _ first
  | step before taken ih =>
    have here := ih fun p inside => right p (List.mem_cons_of_mem _ inside)
    exact step _ _ _ here taken (right _ List.mem_cons_self)

/-- An invariant that a step keeps wherever `Good` held before it. -/
theorem Trace.aux (initial : ∀ s, Start s → Aux s)
    (step : ∀ s l t, Good s → Aux s → Step s l t → Aux t)
    (run : Trace Start Step past s) (good : ∀ p ∈ past, Good p.1) : Aux s := by
  induction run with
  | start first => exact initial _ first
  | step before taken ih =>
    have here := ih fun p inside => good p (List.mem_cons_of_mem _ inside)
    exact step _ _ _ (good _ List.mem_cons_self) here taken

/-- If a step keeps `Good` exactly when it is `Right`, then a run is good throughout exactly when all
its steps are right. -/
theorem Trace.throughout_iff (Aux : S → Prop) (initial : ∀ s, Start s → Good s ∧ Aux s)
    (step : ∀ s l t, Good s → Aux s → Step s l t → (Good t ↔ Right s l) ∧ Aux t)
    (run : Trace Start Step past s) :
    Throughout Good past s ↔ ∀ p ∈ past, Right p.1 p.2 := by
  induction run with
  | start first => exact ⟨fun _ p inside => absurd inside List.not_mem_nil,
      fun _ => ⟨(initial _ first).1, fun p inside => absurd inside List.not_mem_nil⟩⟩
  | @step past s t l before taken ih =>
    have aux (good : Throughout Good past s) : Aux s :=
      Trace.aux (fun s first => (initial s first).2)
        (fun s l t good aux taken => (step s l t good aux taken).2) before good.2
    constructor
    · intro good p inside
      have earlier : Throughout Good past s :=
        ⟨good.2 _ List.mem_cons_self, fun p inside => good.2 p (List.mem_cons_of_mem _ inside)⟩
      rcases List.mem_cons.mp inside with rfl | inside
      · exact (step s l t earlier.1 (aux earlier) taken).1.mp good.1
      · exact ih.mp earlier p inside
    · intro right
      have earlier := ih.mpr fun p inside => right p (List.mem_cons_of_mem _ inside)
      refine ⟨(step s l t earlier.1 (aux earlier) taken).1.mpr (right _ List.mem_cons_self), ?_⟩
      intro p inside
      rcases List.mem_cons.mp inside with rfl | inside
      · exact earlier.1
      · exact earlier.2 p inside

end Pmdapi.Effect
