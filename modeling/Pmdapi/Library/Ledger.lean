import Mathlib.Data.List.Induction
import Mathlib.Data.List.Nodup
import Mathlib.Data.List.Perm.Basic

/-!
A ledger of what was acquired and given back. Things go by names; a thing that is exchanged goes on
under another name. Every name owed is released once, if only what is held is released.
-/

namespace Pmdapi.Ledger

variable {κ β : Type} [DecidableEq κ] (key : β → κ)

inductive Entry (κ β : Type) where
  | acquire (b : β)
  | release (k : κ)
  | exchange (k : κ) (b : β)

def settle (held : List β) : Entry κ β → List β
  | .acquire b => b :: held
  | .release k => held.filter fun c => key c ≠ k
  | .exchange k b => held.map fun c => if key c = k then b else c

def held (log : List (Entry κ β)) : List β := log.foldl (settle key) []

def charge (owed : List κ) : Entry κ β → List κ
  | .acquire b => key b :: owed
  | .release _ => owed
  | .exchange k b => owed.map fun c => if c = k then key b else c

/-- Everything ever acquired, under the name it has in the end. -/
def owed (log : List (Entry κ β)) : List κ := log.foldl (charge key) []

def released (log : List (Entry κ β)) : List κ :=
  log.filterMap fun
    | .release k => some k
    | _ => none

def names (log : List (Entry κ β)) : List κ :=
  log.filterMap fun
    | .acquire b => some (key b)
    | .exchange _ b => some (key b)
    | .release _ => none

/-- A name for `e` that was not given out before; an exchange may also keep its name. -/
def Fresh (before : List (Entry κ β)) : Entry κ β → Prop
  | .acquire b => key b ∉ names key before
  | .exchange k b => key b = k ∨ key b ∉ names key before
  | .release _ => True

def NeverReuses (log : List (Entry κ β)) : Prop :=
  ∀ before e, before ++ [e] <+: log → Fresh key before e

theorem held_concat (log : List (Entry κ β)) (e : Entry κ β) :
    held key (log ++ [e]) = settle key (held key log) e := List.foldl_concat _ _ _ _

theorem owed_concat (log : List (Entry κ β)) (e : Entry κ β) :
    owed key (log ++ [e]) = charge key (owed key log) e := List.foldl_concat _ _ _ _

theorem owed_releases (log : List (Entry κ β)) (ks : List κ) :
    owed key (log ++ ks.map .release) = owed key log := by
  induction ks generalizing log with
  | nil => simp
  | cons k rest ih =>
    have split : log ++ (k :: rest).map .release = (log ++ [.release k]) ++ rest.map .release := by simp
    rw [split, ih, owed_concat]
    rfl

omit [DecidableEq κ] in
theorem released_append (first second : List (Entry κ β)) :
    released (first ++ second) = released first ++ released second := List.filterMap_append

omit [DecidableEq κ] in
theorem names_append (first second : List (Entry κ β)) :
    names key (first ++ second) = names key first ++ names key second := List.filterMap_append

variable {key}

omit [DecidableEq κ] in
theorem NeverReuses.fresh {log : List (Entry κ β)} {e : Entry κ β}
    (never : NeverReuses key (log ++ [e])) : Fresh key log e := never log e (List.prefix_refl _)

omit [DecidableEq κ] in
theorem NeverReuses.of_append {log later : List (Entry κ β)}
    (never : NeverReuses key (log ++ later)) : NeverReuses key log := by
  intro before e early
  exact never before e (early.trans (List.prefix_append log later))

omit [DecidableEq κ] in
theorem neverReuses_nil : NeverReuses key ([] : List (Entry κ β)) := by
  intro before e early
  simp at early

omit [DecidableEq κ] in
theorem NeverReuses.concat {log : List (Entry κ β)} {e : Entry κ β} (never : NeverReuses key log)
    (fresh : Fresh key log e) : NeverReuses key (log ++ [e]) := by
  intro before f early
  rcases List.prefix_concat_iff.mp early with whole | early
  · obtain ⟨rfl, last⟩ := List.append_inj' whole rfl
    obtain rfl := List.singleton_inj.mp last
    exact fresh
  · exact never before f early

omit [DecidableEq κ] in
theorem NeverReuses.releases {log : List (Entry κ β)} (never : NeverReuses key log) (ks : List κ) :
    NeverReuses key (log ++ ks.map .release) := by
  induction ks using List.reverseRecOn with
  | nil => simpa using never
  | append_singleton ks k ih =>
    rw [List.map_append, ← List.append_assoc]
    exact ih.concat trivial

/-! ## What is held -/

theorem settle_release {holding rest : List β} {b : β} (split : holding.Perm (b :: rest))
    (nodup : (holding.map key).Nodup) : (settle key holding (.release (key b))).Perm rest := by
  have apart : ((b :: rest).map key).Nodup := (split.map key).nodup_iff.mp nodup
  rw [List.map_cons, List.nodup_cons] at apart
  apply (split.filter _).trans
  rw [List.filter_cons, if_neg (by simp), List.filter_eq_self.mpr]
  intro c member
  have other : key c ≠ key b := fun same => apart.1 (same ▸ List.mem_map_of_mem member)
  simpa using other

theorem settle_exchange {holding rest : List β} {b c : β} (split : holding.Perm (b :: rest))
    (nodup : (holding.map key).Nodup) :
    (settle key holding (.exchange (key b) c)).Perm (c :: rest) := by
  have apart : ((b :: rest).map key).Nodup := (split.map key).nodup_iff.mp nodup
  rw [List.map_cons, List.nodup_cons] at apart
  apply (split.map _).trans
  rw [List.map_cons, if_pos rfl]
  apply List.Perm.cons
  have same : rest.map (fun d => if key d = key b then c else d) = rest.map id := by
    apply List.map_congr_left
    intro d member
    have other : key d ≠ key b := fun same => apart.1 (same ▸ List.mem_map_of_mem member)
    exact if_neg other
  rw [same, List.map_id]

/-! ## The account -/

variable (key) in
/-- What is owed was released or is among the names `holding`, each once. -/
structure Accounts (log : List (Entry κ β)) (holding : List κ) : Prop where
  balance : (owed key log).Perm (released log ++ holding)
  named : ∀ k ∈ owed key log, k ∈ names key log
  nodup : (owed key log).Nodup

namespace Accounts

variable {log : List (Entry κ β)} {holding rest : List κ} {b : β} {k : κ}

theorem nil : Accounts key ([] : List (Entry κ β)) [] := ⟨List.Perm.nil, nofun, List.nodup_nil⟩

theorem perm (accounts : Accounts key log holding) (same : holding.Perm rest) :
    Accounts key log rest :=
  ⟨accounts.balance.trans (same.append_left _), accounts.named, accounts.nodup⟩

theorem acquire (accounts : Accounts key log holding) (fresh : key b ∉ names key log) :
    Accounts key (log ++ [.acquire b]) (key b :: holding) where
  balance := by
    rw [owed_concat, released_append]
    change (key b :: owed key log).Perm (released log ++ [] ++ key b :: holding)
    rw [List.append_nil]
    exact (accounts.balance.cons _).trans List.perm_middle.symm
  named := by
    intro k member
    rw [owed_concat] at member
    rw [names_append, List.mem_append]
    rcases List.mem_cons.mp member with rfl | before
    · exact .inr List.mem_cons_self
    · exact .inl (accounts.named k before)
  nodup := by
    rw [owed_concat]
    exact List.nodup_cons.mpr ⟨fun before => fresh (accounts.named _ before), accounts.nodup⟩

theorem release (accounts : Accounts key log holding) (split : holding.Perm (k :: rest)) :
    Accounts key (log ++ [.release k]) rest where
  balance := by
    rw [owed_concat, released_append]
    change (owed key log).Perm (released log ++ [k] ++ rest)
    rw [List.append_assoc]
    exact accounts.balance.trans (split.append_left _)
  named := by
    intro k member
    rw [owed_concat] at member
    rw [names_append, List.mem_append]
    exact .inl (accounts.named k member)
  nodup := by
    rw [owed_concat]
    exact accounts.nodup

theorem releases (accounts : Accounts key log holding) :
    Accounts key (log ++ holding.map .release) [] := by
  induction holding generalizing log with
  | nil => simpa using accounts
  | cons k rest ih =>
    have after := ih (accounts.release (List.Perm.refl _))
    rwa [List.append_assoc] at after

theorem exchange (accounts : Accounts key log holding) (split : holding.Perm (k :: rest))
    (fresh : key b = k ∨ key b ∉ names key log) :
    Accounts key (log ++ [.exchange k b]) (key b :: rest) := by
  have whole : (owed key log).Perm (k :: (released log ++ rest)) :=
    (accounts.balance.trans (split.append_left _)).trans List.perm_middle
  obtain ⟨once, apart⟩ := List.nodup_cons.mp (whole.nodup_iff.mp accounts.nodup)
  have others : (released log ++ rest).map (fun c => if c = k then key b else c) =
      released log ++ rest := by
    rw [List.map_congr_left (g := id), List.map_id]
    intro c member
    have other : c ≠ k := fun same => once (same ▸ member)
    exact if_neg other
  have charged : (owed key (log ++ [.exchange k b])).Perm (key b :: (released log ++ rest)) := by
    rw [owed_concat, charge]
    apply (whole.map _).trans
    rw [List.map_cons, if_pos rfl, others]
  refine ⟨?_, ?_, ?_⟩
  · rw [released_append]
    change (owed key (log ++ [.exchange k b])).Perm (released log ++ [] ++ key b :: rest)
    rw [List.append_nil]
    exact charged.trans List.perm_middle.symm
  · intro c member
    rw [names_append, List.mem_append]
    rcases List.mem_cons.mp (charged.mem_iff.mp member) with rfl | before
    · exact .inr List.mem_cons_self
    · exact .inl (accounts.named c (whole.mem_iff.mpr (List.mem_cons_of_mem _ before)))
  · apply charged.nodup_iff.mpr
    refine List.nodup_cons.mpr ⟨?_, apart⟩
    intro before
    rcases fresh with rfl | fresh
    · exact once before
    · exact fresh (accounts.named _ (whole.mem_iff.mpr (List.mem_cons_of_mem _ before)))

/-- With nothing held, everything owed was released, once. -/
theorem released_once (accounts : Accounts key log []) (k : κ) (member : k ∈ owed key log) :
    (released log).count k = 1 := by
  have balance := accounts.balance
  rw [List.append_nil] at balance
  rw [← balance.count_eq]
  exact List.count_eq_one_of_mem accounts.nodup member

theorem owed_of_released (accounts : Accounts key log holding) (k : κ) (member : k ∈ released log) :
    k ∈ owed key log := accounts.balance.mem_iff.mpr (List.mem_append_left _ member)

end Accounts

/-! ## Names that come back -/

variable (key) in
def GivesFree (log : List (Entry κ β)) : Prop :=
  ∀ before b, before ++ [.acquire b] <+: log → key b ∉ (held key before).map key

variable (key) in
def ReleasesHeld (log : List (Entry κ β)) : Prop :=
  ∀ before k, before ++ [.release k] <+: log → k ∈ (held key before).map key

theorem GivesFree.of_append {log later : List (Entry κ β)} (gives : GivesFree key (log ++ later)) :
    GivesFree key log := by
  intro before b early
  exact gives before b (early.trans (List.prefix_append log later))

theorem mem_names_of_mem_held {log : List (Entry κ β)} {k : κ} (member : k ∈ (held key log).map key) :
    k ∈ names key log := by
  induction log using List.reverseRecOn generalizing k with
  | nil => simp [held] at member
  | append_singleton log e ih =>
    rw [held_concat] at member
    rw [names_append, List.mem_append]
    obtain ⟨c, inside, rfl⟩ := List.mem_map.mp member
    cases e with
    | acquire b =>
      rcases List.mem_cons.mp inside with rfl | before
      · exact .inr List.mem_cons_self
      · exact .inl (ih (List.mem_map_of_mem before))
    | release k =>
      have before : c ∈ held key log := List.mem_of_mem_filter inside
      exact .inl (ih (List.mem_map_of_mem before))
    | exchange k b =>
      obtain ⟨d, before, rfl⟩ := List.mem_map.mp inside
      by_cases same : key d = k
      · rw [if_pos same]
        exact .inr List.mem_cons_self
      · rw [if_neg same]
        exact .inl (ih (List.mem_map_of_mem before))

/-- A name that is never given out twice is not given out while it is held. -/
theorem givesFree_of_nodup {log : List (Entry κ β)} (once : (names key log).Nodup) :
    GivesFree key log := by
  intro before b early member
  obtain ⟨later, rfl⟩ := early
  rw [names_append, names_append] at once
  have first := (List.nodup_append.mp once).1
  have apart := (List.nodup_append.mp first).2.2
  exact apart _ (mem_names_of_mem_held member) (key b) List.mem_cons_self rfl

variable (key) in
/-- What is held is `holding`, everything else that was given out came back, and nothing was released
that was not held. -/
structure Holds (log : List (Entry κ β)) (holding : List β) : Prop where
  held : (held key log).Perm holding
  nodup : (holding.map key).Nodup
  balance : (names key log).Perm (released log ++ holding.map key)
  releases : ReleasesHeld key log

namespace Holds

variable {log : List (Entry κ β)} {holding rest : List β} {b : β}

theorem nil : Holds key ([] : List (Entry κ β)) [] where
  held := List.Perm.nil
  nodup := List.nodup_nil
  balance := List.Perm.nil
  releases := by
    intro before k early
    simp at early

theorem perm (holds : Holds key log holding) (same : holding.Perm rest) : Holds key log rest where
  held := holds.held.trans same
  nodup := (same.map key).nodup_iff.mp holds.nodup
  balance := holds.balance.trans ((same.map key).append_left _)
  releases := holds.releases

theorem acquire (holds : Holds key log holding) (gives : GivesFree key (log ++ [.acquire b])) :
    Holds key (log ++ [.acquire b]) (b :: holding) where
  held := by
    rw [held_concat]
    exact holds.held.cons b
  nodup := by
    rw [List.map_cons, List.nodup_cons]
    refine ⟨?_, holds.nodup⟩
    intro member
    exact gives log b (List.prefix_refl _) ((holds.held.map key).mem_iff.mpr member)
  balance := by
    rw [names_append, released_append]
    change (names key log ++ [key b]).Perm (released log ++ [] ++ key b :: holding.map key)
    rw [List.append_nil]
    exact List.perm_append_comm.trans ((holds.balance.cons _).trans List.perm_middle.symm)
  releases := by
    intro before k early
    rcases List.prefix_concat_iff.mp early with whole | early
    · have last := List.append_inj_right' whole rfl
      simp at last
    · exact holds.releases before k early

theorem release (holds : Holds key log holding) (split : holding.Perm (b :: rest)) :
    Holds key (log ++ [.release (key b)]) rest where
  held := by
    rw [held_concat]
    apply settle_release (holds.held.trans split)
    exact (holds.held.map key).nodup_iff.mpr holds.nodup
  nodup := by
    have apart := (split.map key).nodup_iff.mp holds.nodup
    rw [List.map_cons, List.nodup_cons] at apart
    exact apart.2
  balance := by
    rw [names_append, released_append]
    change (names key log ++ []).Perm (released log ++ [key b] ++ rest.map key)
    rw [List.append_nil, List.append_assoc]
    exact holds.balance.trans ((split.map key).append_left _)
  releases := by
    intro before k early
    rcases List.prefix_concat_iff.mp early with whole | early
    · obtain ⟨rfl, last⟩ := List.append_inj' whole rfl
      obtain rfl : k = key b := by simpa using last
      exact (holds.held.map key).mem_iff.mpr ((split.map key).mem_iff.mpr List.mem_cons_self)
    · exact holds.releases before k early

theorem acquires {bs : List β} (holds : Holds key log holding)
    (gives : GivesFree key (log ++ bs.map .acquire)) :
    Holds key (log ++ bs.map .acquire) (bs ++ holding) := by
  induction bs using List.reverseRecOn with
  | nil => simpa using holds
  | append_singleton bs b ih =>
    rw [List.map_append, ← List.append_assoc] at gives ⊢
    apply ((ih gives.of_append).acquire gives).perm
    rw [List.append_assoc]
    exact List.perm_middle.symm

theorem releases_row {bs : List β} (holds : Holds key log holding)
    (split : holding.Perm (bs ++ rest)) :
    Holds key (log ++ (bs.map key).map .release) rest := by
  induction bs generalizing log holding with
  | nil => simpa using holds.perm split
  | cons b bs ih =>
    have after := ih (holds.release split) (List.Perm.refl _)
    rwa [List.append_assoc] at after

theorem mem (holds : Holds key log holding) (b : β) : b ∈ Ledger.held key log ↔ b ∈ holding :=
  holds.held.mem_iff

end Holds

end Pmdapi.Ledger
