import Mathlib.Logic.Function.Basic
import Pmdapi.Library.Blocks

/-!
Windows of a client that are copied to a buffer, changed there and copied back. With two windows the
second copy back may undo what the first one delivered.
-/

namespace Pmdapi.Bytes

/-- A block of the client, and the block of the buffer that stands for it. -/
structure Window where
  client : Dword
  buffer : Dword
  length : Nat
  deriving DecidableEq, Repr

namespace Window

variable (w : Window)

def Shows (a : Dword) : Prop := (Block.mk w.client w.length).Covers a

def Holds (x : Dword) : Prop := (Block.mk w.buffer w.length).Covers x

instance (a : Dword) : Decidable (w.Shows a) :=
  inferInstanceAs (Decidable ((Block.mk w.client w.length).Covers a))

instance (x : Dword) : Decidable (w.Holds x) :=
  inferInstanceAs (Decidable ((Block.mk w.buffer w.length).Covers x))

def copyOf (a : Dword) : Dword := w.buffer + (a - w.client)

def down (m : Memory) : Memory := copy m w.buffer w.client w.length

def up (m : Memory) : Memory := copy m w.client w.buffer w.length

variable {w}

theorem holds_copyOf {a : Dword} (shown : w.Shows a) : w.Holds (w.copyOf a) := by
  have same : w.copyOf a - w.buffer = a - w.client := by
    rw [copyOf, BitVec.add_comm, BitVec.add_sub_cancel]
  unfold Holds Block.Covers offset
  rw [same]
  exact shown

theorem up_shown (m : Memory) {a : Dword} (shown : w.Shows a) : w.up m a = m (w.copyOf a) := if_pos shown

theorem up_other (m : Memory) {a : Dword} (other : ¬w.Shows a) : w.up m a = m a := if_neg other

theorem down_copyOf (m : Memory) {a : Dword} (shown : w.Shows a) : w.down m (w.copyOf a) = m a := by
  have same : w.client + (w.copyOf a - w.buffer) = a := by
    rw [copyOf, BitVec.add_comm w.buffer, BitVec.add_sub_cancel, BitVec.add_comm, BitVec.sub_add_cancel]
  have read : w.down m (w.copyOf a) = m (w.client + (w.copyOf a - w.buffer)) := if_pos (holds_copyOf shown)
  rw [read, same]

theorem down_other (m : Memory) {x : Dword} (other : ¬w.Holds x) : w.down m x = m x := if_neg other

end Window

/-! ## Two windows -/

section Two

variable (first second : Window)

def Buffered (x : Dword) : Prop := first.Holds x ∨ second.Holds x

instance (x : Dword) : Decidable (Buffered first second x) :=
  inferInstanceAs (Decidable (first.Holds x ∨ second.Holds x))

def IsCopy (a x : Dword) : Prop :=
  first.Shows a ∧ x = first.copyOf a ∨ second.Shows a ∧ x = second.copyOf a

def downBoth (m : Memory) : Memory := second.down (first.down m)

def upBoth (m : Memory) : Memory := second.up (first.up m)

/-- A byte of the client with a changed copy gets the value of one of its changed copies; any other one
stays. -/
structure KeepsUpdates (before passed served after : Memory) : Prop where
  changed : ∀ a, ¬Buffered first second a → ∀ x, IsCopy first second a x → served x ≠ passed x →
    ∃ y, IsCopy first second a y ∧ served y ≠ passed y ∧ after a = served y
  unchanged : ∀ a, ¬Buffered first second a → (∀ x, IsCopy first second a x → served x = passed x) →
    after a = before a

variable {first second}

theorem buffered_of_isCopy {a x : Dword} (copied : IsCopy first second a x) : Buffered first second x := by
  rcases copied with ⟨shown, rfl⟩ | ⟨shown, rfl⟩
  · exact .inl (Window.holds_copyOf shown)
  · exact .inr (Window.holds_copyOf shown)

/-- On the way down every copy of a byte gets the byte, if the parts of the buffer are apart. -/
theorem downBoth_copy (m : Memory) (apart : ∀ x, first.Holds x → ¬second.Holds x) {a x : Dword}
    (client : ¬Buffered first second a) (copied : IsCopy first second a x) :
    downBoth first second m x = m a := by
  rcases copied with ⟨shown, rfl⟩ | ⟨shown, rfl⟩
  · have elsewhere := apart _ (Window.holds_copyOf shown)
    rw [downBoth, Window.down_other _ elsewhere, Window.down_copyOf m shown]
  · have elsewhere : ¬first.Holds a := fun inside => client (.inl inside)
    rw [downBoth, Window.down_copyOf _ shown, Window.down_other m elsewhere]

theorem downBoth_client (m : Memory) {a : Dword} (client : ¬Buffered first second a) :
    downBoth first second m a = m a := by
  obtain ⟨one, two⟩ := not_or.mp client
  rw [downBoth, Window.down_other _ two, Window.down_other _ one]

/-- No byte of the second window is in the first one, nor is its copy. -/
def SecondApart (first second : Window) : Prop :=
  ∀ a, ¬Buffered first second a → second.Shows a → ¬first.Shows a ∧ ¬first.Shows (second.copyOf a)

theorem upBoth_eq (separate : SecondApart first second) (n : Memory) {a : Dword}
    (client : ¬Buffered first second a) :
    (∃ x, (∀ y, IsCopy first second a y ↔ y = x) ∧ upBoth first second n a = n x) ∨
      (∀ y, ¬IsCopy first second a y) ∧ upBoth first second n a = n a := by
  by_cases inSecond : second.Shows a
  · obtain ⟨other, copyOther⟩ := separate a client inSecond
    refine .inl ⟨second.copyOf a, fun y => ?_, ?_⟩
    · simp [IsCopy, other, inSecond]
    · rw [upBoth, Window.up_shown _ inSecond, Window.up_other n copyOther]
  · by_cases inFirst : first.Shows a
    · refine .inl ⟨first.copyOf a, fun y => ?_, ?_⟩
      · simp [IsCopy, inFirst, inSecond]
      · rw [upBoth, Window.up_other _ inSecond, Window.up_shown n inFirst]
    · refine .inr ⟨fun y => ?_, ?_⟩
      · simp [IsCopy, inFirst, inSecond]
      · rw [upBoth, Window.up_other _ inSecond, Window.up_other n inFirst]

theorem keepsUpdates_of_apart {m served : Memory} (apart : ∀ x, first.Holds x → ¬second.Holds x)
    (separate : SecondApart first second)
    (same : AgreeOn (¬Buffered first second ·) (downBoth first second m) served) :
    KeepsUpdates first second m (downBoth first second m) served (upBoth first second served) := by
  constructor
  · intro a client x copied changed
    rcases upBoth_eq separate served client with ⟨y, only, read⟩ | ⟨none, -⟩
    · obtain rfl := (only x).mp copied
      exact ⟨x, copied, changed, read⟩
    · exact absurd copied (none x)
  · intro a client unchanged
    rcases upBoth_eq separate served client with ⟨y, only, read⟩ | ⟨-, read⟩
    · have copied := (only y).mpr rfl
      rw [read, unchanged y copied, downBoth_copy m apart client copied]
    · rw [read, same a client, downBoth_client m client]

/-- A byte that is always read back from elsewhere loses what is written to its copy. -/
theorem lost_update (m : Memory) {a x z : Dword} (client : ¬Buffered first second a)
    (copied : IsCopy first second a x) (other : z ≠ x)
    (read : ∀ n, upBoth first second n a = n z) :
    ∃ served, AgreeOn (¬Buffered first second ·) (downBoth first second m) served ∧
      ¬KeepsUpdates first second m (downBoth first second m) served (upBoth first second served) := by
  obtain ⟨v, absent⟩ := exists_byte_notMem
    (l := [downBoth first second m x, downBoth first second m z]) (by simp)
  obtain ⟨new, elsewhere⟩ : v ≠ downBoth first second m x ∧ v ≠ downBoth first second m z := by
    simpa using absent
  refine ⟨Function.update (downBoth first second m) x v, ?_, fun keeps => ?_⟩
  · intro b outside
    apply Function.update_of_ne
    rintro rfl
    exact outside (buffered_of_isCopy copied)
  · have changed : Function.update (downBoth first second m) x v x ≠ downBoth first second m x := by
      rw [Function.update_self]
      exact new
    obtain ⟨y, -, written, value⟩ := keeps.changed a client x copied changed
    have here : y = x := by
      by_contra different
      exact written (Function.update_of_ne different _ _)
    rw [read, here, Function.update_self, Function.update_of_ne other] at value
    exact elsewhere value.symm

theorem ne_of_apart (apart : ∀ x, first.Holds x → ¬second.Holds x) {x y : Dword} (one : first.Holds x)
    (two : second.Holds y) : x ≠ y := by
  intro same
  rw [same] at one
  exact apart y one two

/-- No update is lost, whatever is written to the buffer, just if the second window is apart from the
first. -/
theorem keepsUpdates_iff (m : Memory) (apart : ∀ x, first.Holds x → ¬second.Holds x) :
    (∀ served, AgreeOn (¬Buffered first second ·) (downBoth first second m) served →
      KeepsUpdates first second m (downBoth first second m) served (upBoth first second served)) ↔
      SecondApart first second := by
  constructor
  · intro keeps a client shown
    have lost {x z : Dword} (copied : IsCopy first second a x) (other : z ≠ x)
        (read : ∀ n, upBoth first second n a = n z) : False := by
      obtain ⟨served, same, fails⟩ := lost_update m client copied other read
      exact fails (keeps served same)
    have twin : second.Holds (second.copyOf a) := Window.holds_copyOf shown
    have copyAside : ¬first.Shows (second.copyOf a) := by
      intro inFirst
      have inner : first.Holds (first.copyOf (second.copyOf a)) := Window.holds_copyOf inFirst
      have different := ne_of_apart apart inner twin
      refine lost (.inr ⟨shown, rfl⟩) different fun n => ?_
      rw [upBoth, Window.up_shown _ shown, Window.up_shown n inFirst]
    refine ⟨fun inFirst => ?_, copyAside⟩
    have inner : first.Holds (first.copyOf a) := Window.holds_copyOf inFirst
    have different := ne_of_apart apart inner twin
    refine lost (.inl ⟨inFirst, rfl⟩) different.symm fun n => ?_
    rw [upBoth, Window.up_shown _ shown, Window.up_other n copyAside]
  · intro separate served same
    exact keepsUpdates_of_apart apart separate same

end Two

/-! ## Windows copied back in turn -/

section InStep

def upAll (ws : List Window) (m : Memory) : Memory := ws.foldl (fun n w => w.up n) m

/-- The client's bytes `P` are in `n` as in `m`, and so are their copies for every window. -/
structure InStep (P : Dword → Prop) (ws : List Window) (m n : Memory) : Prop where
  client : AgreeOn P m n
  copies : ∀ w ∈ ws, ∀ a, w.Shows a → n (w.copyOf a) = m a

variable {P : Dword → Prop} {ws : List Window} {m n : Memory}

theorem InStep.nil (client : AgreeOn P m n) : InStep P [] m n := ⟨client, by simp⟩

theorem InStep.append {vs : List Window} (one : InStep P ws m n) (two : InStep P vs m n) :
    InStep P (ws ++ vs) m n := by
  refine ⟨one.client, fun w listed => ?_⟩
  rcases List.mem_append.mp listed with first | second
  · exact one.copies w first
  · exact two.copies w second

theorem InStep.up {w : Window} (step : InStep P ws m n) (listed : w ∈ ws)
    (apart : ∀ v ∈ ws, ∀ x, v.Holds x → ¬w.Shows x) : InStep P ws m (w.up n) := by
  constructor
  · intro a inside
    by_cases shown : w.Shows a
    · rw [Window.up_shown n shown, step.copies w listed a shown]
    · rw [Window.up_other n shown, step.client a inside]
  · intro v among a shown
    rw [Window.up_other n (apart v among _ (Window.holds_copyOf shown)), step.copies v among a shown]

theorem InStep.upAll (step : InStep P ws m n)
    (apart : ∀ w ∈ ws, ∀ v ∈ ws, ∀ x, v.Holds x → ¬w.Shows x) : InStep P ws m (upAll ws n) := by
  have run (vs : List Window) (among : ∀ w ∈ vs, w ∈ ws) (k : Memory) (there : InStep P ws m k) :
      InStep P ws m (Bytes.upAll vs k) := by
    induction vs generalizing k with
    | nil => exact there
    | cons w vs ih =>
      have listed := among w List.mem_cons_self
      exact ih (fun v later => among v (List.mem_cons_of_mem _ later)) _
        (there.up listed (apart w listed))
  exact run ws (fun _ listed => listed) n step

end InStep

end Pmdapi.Bytes
