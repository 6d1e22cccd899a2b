import Pmdapi.Handlers
import Pmdapi.Library.Trace

/-!
The registry of the resident service over whole runs: clients that start, end and are switched to.
The host keeps a table of vectors for each client.
-/

namespace Pmdapi
open Bytes Effect

inductive EntryCall where
  | start (e : EntryEnv) (handle inh : Word)
  | terminate (e : EntryEnv) (handle prev : Word)
  | switch (e : EntryEnv) (handle inh : Word)

def depth (s : Registry) : Nat := (List.range maxClients).countP fun n => (s.sr n).used

section

variable (dos32Int21 dos16Int21 : Dword) (moduleCs : Word → Prop) (hostInt21 : PAddr)

/-- The host makes the table of a new client: a copy of its parent's, or the defaults. -/
def hostTable (handle : Nat) (inh : Word) (s : Registry) : Registry :=
  s.withVector handle
    (if inh ≠ 0 ∧ (s.sr s.currentClient).used = true then s.vectors s.currentClient else hostInt21)

/-- The calls the host makes: handles are the nesting depth, clients that end name a live client or
none, and only live clients are switched to. Its own calls succeed. -/
def EntryCall.Allowed (s : Registry) : EntryCall → Prop
  | .start e handle _ => handle.toNat = depth s ∧ e.Succeeds ∧ moduleCs e.myCs
  | .terminate _ handle prev => (s.sr handle.toNat).used = true ∧
      (prev = -1 ∨ prev ≠ handle ∧ (s.sr prev.toNat).used = true)
  | .switch _ handle _ => (s.sr handle.toNat).used = true

def EntryCall.run (s : Registry) : EntryCall → Option Registry
  | .start e handle inh =>
    entry dos32Int21 dos16Int21 e 0 handle inh (hostTable hostInt21 handle.toNat inh s)
  | .terminate e handle prev => entry dos32Int21 dos16Int21 e 1 handle prev s
  | .switch e handle inh => entry dos32Int21 dos16Int21 e 2 handle inh s

def RegistryStep (s : Registry) (call : EntryCall) (t : Registry) : Prop :=
  call.Allowed moduleCs s ∧ call.run dos32Int21 dos16Int21 hostInt21 s = some t

def NoClients (s : Registry) : Prop := ∀ n, (s.sr n).used = false

def OfModule (v : PAddr) : Prop :=
  moduleCs v.selector ∧ (v.offset32 = dos32Int21 ∨ v.offset32 = dos16Int21)

/-- The data selector is the current client's, and every client's calls of int 21h end at the host. -/
structure RegistryRight (s : Registry) : Prop where
  dseg : (s.sr s.currentClient).used = true → s.dseg32 = (s.sr s.currentClient).ds.setWidth 32
  foreign : ∀ n, (s.sr n).used = true → ¬ OfModule dos32Int21 dos16Int21 moduleCs (s.sr n).oldInt21
  chain : ∀ n, (s.sr n).used = true → (s.sr n).oldInt21 = hostInt21
  calls : (s.sr s.currentClient).used = true → ∀ clntIs32,
    ¬ OfModule dos32Int21 dos16Int21 moduleCs (int21Target clntIs32 s)

/-- The calls that keep the registry right. A switch finds the data selector it needs in place; a
client that inherits has the slot before its own in use, or a parent whose vector is not this
module's. -/
def EntryRight (s : Registry) : EntryCall → Prop
  | .start _ handle inh => inh ≠ 0 → (s.sr s.currentClient).used = true →
      (0 < handle.toNat ∧ (s.sr (handle.toNat - 1)).used = true) ∨
        ¬ OfModule dos32Int21 dos16Int21 moduleCs (s.vectors s.currentClient)
  | .terminate _ _ _ => True
  | .switch _ handle _ => s.dseg32 = (s.sr handle.toNat).ds.setWidth 32

def VectorsKnown (s : Registry) : Prop :=
  ∀ n, (s.sr n).used = true →
    OfModule dos32Int21 dos16Int21 moduleCs (s.vectors n) ∨ s.vectors n = hostInt21

/-! ## What the calls do -/

/-- The slot made, its descriptors set, and the vector not yet looked at. -/
theorem start_slot {e : EntryEnv} (succeeds : e.Succeeds) (handle : Nat) (inh : Word) (s : Registry) :
    ∃ c : Clnt, c.ds = e.myDs ∧ c.used = true ∧
      start dos32Int21 dos16Int21 e handle inh s = chainInt21 dos32Int21 dos16Int21 e inh
        { s.withClient handle c with dseg32 := e.myDs.setWidth 32, currentClient := handle } := by
  obtain ⟨setFs, setGs, -, -⟩ := succeeds
  refine ⟨{ s.sr handle with
    ds := e.myDs, used := true,
    fs := if e.haveFs then e.allocatedFs else (s.sr handle).fs,
    gs := if e.haveGs then e.allocatedGs else (s.sr handle).gs }, rfl, rfl, ?_⟩
  unfold start
  rw [setFs, setGs]
  cases e.haveFs <;> cases e.haveGs <;> simp

def InheritsSlot (handle : Nat) (inh : Word) (s : Registry) : Prop :=
  inh ≠ 0 ∧ 0 < handle ∧ (s.sr (handle - 1)).used = true

/-- The new client takes over what the slot before its own passes calls on to. -/
theorem start_inherits {e : EntryEnv} (succeeds : e.Succeeds) {handle : Nat} {inh : Word} {s : Registry}
    (inherits : InheritsSlot handle inh s) :
    ∃ c : Clnt, c.ds = e.myDs ∧ c.used = true ∧ c.oldInt21 = (s.sr (handle - 1)).oldInt21 ∧
      start dos32Int21 dos16Int21 e handle inh s =
        { s.withClient handle c with dseg32 := e.myDs.setWidth 32, currentClient := handle } := by
  obtain ⟨c, ds, used, slot⟩ := start_slot dos32Int21 dos16Int21 succeeds handle inh s
  obtain ⟨wanted, positive, before⟩ := inherits
  have same : (s.withClient handle c).sr (handle - 1) = s.sr (handle - 1) :=
    s.withClient_other c (by omega)
  refine ⟨{ c with oldInt21 := (s.sr (handle - 1)).oldInt21 }, ds, used, rfl, ?_⟩
  rw [slot, chainInt21]
  simp only [same]
  rw [if_pos ⟨wanted, positive, before⟩]
  simp only [Registry.withClient_self]
  exact congrArg (fun t : Registry => { t with dseg32 := e.myDs.setWidth 32, currentClient := handle })
    (s.withClient_withClient handle c _)

/-- The new client takes over the vector of its own table, and its module's handler is put there. -/
theorem start_installs {e : EntryEnv} (succeeds : e.Succeeds) {handle : Nat} {inh : Word} {s : Registry}
    (own : ¬ InheritsSlot handle inh s) :
    ∃ (c : Clnt) (offset : Dword), c.ds = e.myDs ∧ c.used = true ∧ c.oldInt21 = s.vectors handle ∧
      (offset = dos32Int21 ∨ offset = dos16Int21) ∧
      start dos32Int21 dos16Int21 e handle inh s =
        { (s.withClient handle c).withVector handle ⟨offset, e.myCs⟩ with
          dseg32 := e.myDs.setWidth 32, currentClient := handle } := by
  obtain ⟨c, ds, used, slot⟩ := start_slot dos32Int21 dos16Int21 succeeds handle inh s
  obtain ⟨-, -, getVector, setVector⟩ := succeeds
  have inherited : ¬ (inh ≠ 0 ∧ 0 < handle ∧ ((s.withClient handle c).sr (handle - 1)).used = true) := by
    rintro ⟨wanted, positive, before⟩
    rw [s.withClient_other c (by omega)] at before
    exact own ⟨wanted, positive, before⟩
  refine ⟨{ c with oldInt21 := s.vectors handle }, if e.clntIs32 then dos32Int21 else dos16Int21,
    ds, used, rfl, ?_, ?_⟩
  · cases e.clntIs32
    · exact Or.inr rfl
    · exact Or.inl rfl
  · rw [slot, chainInt21]
    simp only []
    rw [if_neg inherited, getVector, setVector]
    simp only [Bool.true_eq_false, if_false, Registry.withClient_self]
    exact congrArg (fun t : Registry =>
      { t.withVector handle ⟨if e.clntIs32 then dos32Int21 else dos16Int21, e.myCs⟩ with
        dseg32 := e.myDs.setWidth 32, currentClient := handle })
      (s.withClient_withClient handle c _)

def vacated (s : Registry) : Registry :=
  (s.withVector s.currentClient (s.sr s.currentClient).oldInt21).withClient s.currentClient
    { s.sr s.currentClient with used := false }

theorem vacated_used {s : Registry} {n : Nat} (used : ((vacated s).sr n).used = true) :
    n ≠ s.currentClient ∧ (vacated s).sr n = s.sr n ∧ (s.sr n).used = true ∧
      (vacated s).vectors n = s.vectors n := by
  have other : n ≠ s.currentClient := by
    rintro rfl
    rw [vacated, Registry.withClient_self] at used
    cases used
  have same : (vacated s).sr n = s.sr n := Registry.withClient_other _ _ other
  rw [same] at used
  exact ⟨other, same, used, Registry.withVector_other s _ other⟩

/-! ## One call -/

variable (hostCs : ¬ moduleCs hostInt21.selector)

include hostCs

/-- The data selector and the chain say it all, for the host's code is not this module's. -/
theorem registered_iff (s : Registry) : RegistryRight dos32Int21 dos16Int21 moduleCs hostInt21 s ↔
    ((s.sr s.currentClient).used = true → s.dseg32 = (s.sr s.currentClient).ds.setWidth 32) ∧
      ∀ n, (s.sr n).used = true → (s.sr n).oldInt21 = hostInt21 := by
  constructor
  · exact fun registered => ⟨registered.dseg, registered.chain⟩
  · rintro ⟨dseg, chain⟩
    refine ⟨dseg, ?_, chain, ?_⟩
    · intro n used own
      rw [chain n used] at own
      exact hostCs own.1
    · intro used clntIs32 own
      have selector : (int21Target clntIs32 s).selector = hostInt21.selector := by
        rw [int21Target, chain _ used]
        cases clntIs32 <;> rfl
      exact hostCs (selector ▸ own.1)

structure Joined (handle : Nat) (c : Clnt) (s t : Registry) : Prop where
  current : t.currentClient = handle
  used : c.used = true
  dseg : t.dseg32 = c.ds.setWidth 32
  slot : t.sr handle = c
  others : ∀ n, n ≠ handle → t.sr n = s.sr n
  vectors : ∀ n, n ≠ handle → t.vectors n = s.vectors n

variable {s t : Registry} {handle : Nat} {c : Clnt}

theorem Joined.registered_iff (joined : Joined handle c s t)
    (registered : RegistryRight dos32Int21 dos16Int21 moduleCs hostInt21 s) :
    RegistryRight dos32Int21 dos16Int21 moduleCs hostInt21 t ↔ c.oldInt21 = hostInt21 := by
  rw [Pmdapi.registered_iff dos32Int21 dos16Int21 moduleCs hostInt21 hostCs, joined.current,
    joined.slot]
  constructor
  · rintro ⟨-, chain⟩
    have own := chain handle (by rw [joined.slot, joined.used])
    rwa [joined.slot] at own
  · intro own
    refine ⟨fun _ => joined.dseg, fun n used => ?_⟩
    by_cases here : n = handle
    · rw [here, joined.slot, own]
    · rw [joined.others n here] at used ⊢
      exact registered.chain n used

omit hostCs in
theorem Joined.vectorsKnown (joined : Joined handle c s t)
    (vectors : VectorsKnown dos32Int21 dos16Int21 moduleCs hostInt21 s)
    (own : OfModule dos32Int21 dos16Int21 moduleCs (t.vectors handle) ∨ t.vectors handle = hostInt21) :
    VectorsKnown dos32Int21 dos16Int21 moduleCs hostInt21 t := by
  intro n used
  by_cases here : n = handle
  · rw [here]
    exact own
  · rw [joined.others n here] at used
    rw [joined.vectors n here]
    exact vectors n used

omit hostCs in
/-- What the host puts into a new client's table is this module's handler or its own. -/
theorem hostTable_known (vectors : VectorsKnown dos32Int21 dos16Int21 moduleCs hostInt21 s)
    (handle : Nat) (inh : Word) :
    OfModule dos32Int21 dos16Int21 moduleCs ((hostTable hostInt21 handle inh s).vectors handle) ∨
      (hostTable hostInt21 handle inh s).vectors handle = hostInt21 := by
  rw [hostTable, Registry.withVector_self]
  split
  next parent => exact vectors _ parent.2
  next => exact Or.inr rfl

variable (vectors : VectorsKnown dos32Int21 dos16Int21 moduleCs hostInt21 s)

include vectors

/-- A client that starts with a vector of its own keeps the registry right unless it copies this
module's handler from its parent. -/
theorem vector_right_iff {handle inh : Word}
    (own : ¬ InheritsSlot handle.toNat inh s) (e : EntryEnv) :
    (hostTable hostInt21 handle.toNat inh s).vectors handle.toNat = hostInt21 ↔
      EntryRight dos32Int21 dos16Int21 moduleCs s (.start e handle inh) := by
  have known := hostTable_known dos32Int21 dos16Int21 moduleCs hostInt21 vectors handle.toNat inh
  rw [hostTable, Registry.withVector_self] at known ⊢
  by_cases parent : inh ≠ 0 ∧ (s.sr s.currentClient).used = true
  · rw [if_pos parent] at known ⊢
    constructor
    · intro host _ _
      right
      rw [host]
      exact fun module => hostCs module.1
    · intro right
      rcases right parent.1 parent.2 with before | foreign
      · exact absurd ⟨parent.1, before⟩ own
      · exact known.resolve_left foreign
  · rw [if_neg parent]
    exact iff_of_true rfl fun wanted live => absurd ⟨wanted, live⟩ parent

variable (registered : RegistryRight dos32Int21 dos16Int21 moduleCs hostInt21 s)

include registered

theorem start_step {e : EntryEnv} (succeeds : e.Succeeds) (cs : moduleCs e.myCs) (handle inh : Word) :
    (RegistryRight dos32Int21 dos16Int21 moduleCs hostInt21
        (start dos32Int21 dos16Int21 e handle.toNat inh (hostTable hostInt21 handle.toNat inh s)) ↔
      EntryRight dos32Int21 dos16Int21 moduleCs s (.start e handle inh)) ∧
    VectorsKnown dos32Int21 dos16Int21 moduleCs hostInt21
      (start dos32Int21 dos16Int21 e handle.toNat inh (hostTable hostInt21 handle.toNat inh s)) := by
  have table : ∀ n, n ≠ handle.toNat → (hostTable hostInt21 handle.toNat inh s).vectors n = s.vectors n :=
    fun n other => s.withVector_other _ other
  by_cases inherits : InheritsSlot handle.toNat inh s
  · obtain ⟨c, ds, used, old, started⟩ := start_inherits dos32Int21 dos16Int21 succeeds
      (s := hostTable hostInt21 handle.toNat inh s) inherits
    have joined : Joined handle.toNat c s
        (start dos32Int21 dos16Int21 e handle.toNat inh (hostTable hostInt21 handle.toNat inh s)) := by
      rw [started]
      exact ⟨rfl, used, by rw [ds], Registry.withClient_self _ _ c,
        fun n other => Registry.withClient_other _ c other, table⟩
    have host : c.oldInt21 = hostInt21 := old.trans (registered.chain _ inherits.2.2)
    constructor
    · rw [joined.registered_iff dos32Int21 dos16Int21 moduleCs hostInt21 hostCs registered]
      exact iff_of_true host fun _ _ => Or.inl inherits.2
    · apply joined.vectorsKnown dos32Int21 dos16Int21 moduleCs hostInt21 vectors
      rw [started]
      exact hostTable_known dos32Int21 dos16Int21 moduleCs hostInt21 vectors handle.toNat inh
  · obtain ⟨c, offset, ds, used, old, known, started⟩ := start_installs dos32Int21 dos16Int21 succeeds
      (s := hostTable hostInt21 handle.toNat inh s) inherits
    have joined : Joined handle.toNat c s
        (start dos32Int21 dos16Int21 e handle.toNat inh (hostTable hostInt21 handle.toNat inh s)) := by
      rw [started]
      exact ⟨rfl, used, by rw [ds], Registry.withClient_self _ _ c,
        fun n other => Registry.withClient_other _ c other,
        fun n other => (Registry.withVector_other _ _ other).trans (table n other)⟩
    constructor
    · rw [joined.registered_iff dos32Int21 dos16Int21 moduleCs hostInt21 hostCs registered, old]
      exact vector_right_iff dos32Int21 dos16Int21 moduleCs hostInt21 hostCs vectors inherits e
    · apply joined.vectorsKnown dos32Int21 dos16Int21 moduleCs hostInt21 vectors
      left
      have installed : (start dos32Int21 dos16Int21 e handle.toNat inh
          (hostTable hostInt21 handle.toNat inh s)).vectors handle.toNat = ⟨offset, e.myCs⟩ := by
        rw [started]
        exact Registry.withVector_self _ _ _
      rw [installed]
      exact ⟨cs, known⟩

theorem done_step {prev : Word} (ended : Registry.done prev s = some t) :
    RegistryRight dos32Int21 dos16Int21 moduleCs hostInt21 t ∧
      VectorsKnown dos32Int21 dos16Int21 moduleCs hostInt21 t := by
  have chain : ∀ n, ((vacated s).sr n).used = true → ((vacated s).sr n).oldInt21 = hostInt21 := by
    intro n used
    obtain ⟨-, same, was, -⟩ := vacated_used used
    rw [same]
    exact registered.chain n was
  have known : VectorsKnown dos32Int21 dos16Int21 moduleCs hostInt21 (vacated s) := by
    intro n used
    obtain ⟨-, -, was, vector⟩ := vacated_used used
    rw [vector]
    exact vectors n was
  rw [registered_iff dos32Int21 dos16Int21 moduleCs hostInt21 hostCs]
  rw [Registry.done] at ended
  by_cases none : prev = -1
  · rw [if_pos none] at ended
    obtain rfl : vacated s = t := Option.some.inj ended
    exact ⟨⟨fun used => absurd rfl (vacated_used used).1, chain⟩, known⟩
  · rw [if_neg none] at ended
    obtain ⟨-, ended⟩ := Option.ite_none_right_eq_some.mp ended
    obtain rfl := Option.some.inj ended
    exact ⟨⟨fun _ => rfl, chain⟩, known⟩

omit vectors registered in
theorem switch_step (registered : RegistryRight dos32Int21 dos16Int21 moduleCs hostInt21 s)
    (handle : Nat) (live : (s.sr handle).used = true) :
    RegistryRight dos32Int21 dos16Int21 moduleCs hostInt21 { s with currentClient := handle } ↔
      s.dseg32 = (s.sr handle).ds.setWidth 32 := by
  rw [registered_iff dos32Int21 dos16Int21 moduleCs hostInt21 hostCs]
  exact ⟨fun all => all.1 live, fun same => ⟨fun _ => same, registered.chain⟩⟩

theorem entry_step {call : EntryCall}
    (taken : RegistryStep dos32Int21 dos16Int21 moduleCs hostInt21 s call t) :
    (RegistryRight dos32Int21 dos16Int21 moduleCs hostInt21 t ↔
      EntryRight dos32Int21 dos16Int21 moduleCs s call) ∧
    VectorsKnown dos32Int21 dos16Int21 moduleCs hostInt21 t := by
  obtain ⟨allowed, run⟩ := taken
  cases call with
  | start e handle inh =>
    obtain ⟨-, succeeds, cs⟩ := allowed
    obtain ⟨-, run⟩ := Option.ite_none_left_eq_some.mp run
    obtain rfl := Option.some.inj run
    exact start_step dos32Int21 dos16Int21 moduleCs hostInt21 hostCs vectors registered succeeds cs
      handle inh
  | terminate e handle prev =>
    obtain ⟨-, run⟩ := Option.ite_none_left_eq_some.mp run
    obtain ⟨kept, known⟩ := done_step dos32Int21 dos16Int21 moduleCs hostInt21 hostCs vectors registered run
    exact ⟨iff_of_true kept trivial, known⟩
  | switch e handle inh =>
    obtain ⟨-, run⟩ := Option.ite_none_left_eq_some.mp run
    obtain rfl := Option.some.inj run
    exact ⟨switch_step dos32Int21 dos16Int21 moduleCs hostInt21 hostCs registered handle.toNat allowed,
      vectors⟩

/-! ## Whole runs -/

omit registered vectors in
/-- The registry is right throughout a run if and only if all its calls are right ones. -/
theorem registry_right_iff {past : List (Registry × EntryCall)}
    (run : Trace NoClients (RegistryStep dos32Int21 dos16Int21 moduleCs hostInt21) past s) :
    Throughout (RegistryRight dos32Int21 dos16Int21 moduleCs hostInt21) past s ↔
      ∀ p ∈ past, EntryRight dos32Int21 dos16Int21 moduleCs p.1 p.2 := by
  apply Trace.throughout_iff (VectorsKnown dos32Int21 dos16Int21 moduleCs hostInt21) _ _ run
  · intro s none
    have unused : ∀ n, (s.sr n).used ≠ true := fun n => by simp [none n]
    refine ⟨?_, fun n used => absurd used (unused n)⟩
    rw [registered_iff dos32Int21 dos16Int21 moduleCs hostInt21 hostCs]
    exact ⟨fun used => absurd used (unused _), fun n used => absurd used (unused n)⟩
  · intro s call t registered vectors taken
    exact entry_step dos32Int21 dos16Int21 moduleCs hostInt21 hostCs vectors registered taken

end

/-- While the live clients are the innermost ones, a client that starts finds the slot before its own
in use. -/
theorem nested_start_right (dos32Int21 dos16Int21 : Dword) (moduleCs : Word → Prop) {s : Registry}
    (nested : ∀ n, (s.sr n).used = true ↔ n < depth s) {e : EntryEnv} {handle inh : Word}
    (allowed : (EntryCall.start e handle inh).Allowed moduleCs s) :
    EntryRight dos32Int21 dos16Int21 moduleCs s (.start e handle inh) := by
  intro _ parent
  have some := (nested _).mp parent
  have here : handle.toNat = depth s := allowed.1
  left
  rw [here, nested]
  omega

/-! ### A switch back -/

def hostHandler : PAddr := ⟨0x21, 0xff⟩

def unusedClnt : Clnt := ⟨0, 0, 0, ⟨0, 0⟩, false⟩

def clientEnv (ds : Word) : EntryEnv where
  myDs := ds
  myCs := 0x8f
  clntIs32 := true
  haveFs := false
  haveGs := false
  allocatedFs := 0
  allocatedGs := 0
  setFs := true
  setGs := true
  getVector := true
  setVector := true

def loaded : Registry := ⟨0, fun _ => unusedClnt, 0, fun _ => hostHandler⟩

def firstLoaded : Registry := start 0x1000 0x2000 (clientEnv 0x97) 0 0 (hostTable hostHandler 0 0 loaded)

def secondLoaded : Registry :=
  start 0x1000 0x2000 (clientEnv 0xa7) 1 1 (hostTable hostHandler 1 1 firstLoaded)

theorem loaded_starts :
    RegistryStep 0x1000 0x2000 (· = 0x8f) hostHandler loaded (.start (clientEnv 0x97) 0 0) firstLoaded :=
  ⟨⟨by decide, by decide, rfl⟩, rfl⟩

theorem first_starts :
    RegistryStep 0x1000 0x2000 (· = 0x8f) hostHandler firstLoaded (.start (clientEnv 0xa7) 1 1) secondLoaded :=
  ⟨⟨by decide, by decide, rfl⟩, rfl⟩

theorem loaded_none : NoClients loaded := fun _ => rfl

theorem registry_right_two : Throughout (RegistryRight 0x1000 0x2000 (· = 0x8f) hostHandler)
    [(firstLoaded, EntryCall.start (clientEnv 0xa7) 1 1), (loaded, EntryCall.start (clientEnv 0x97) 0 0)]
    secondLoaded := by
  apply (registry_right_iff 0x1000 0x2000 (· = 0x8f) hostHandler (by decide)
    (.step (.step (.start loaded_none) loaded_starts) first_starts)).mpr
  intro p inside
  simp only [List.mem_cons, List.not_mem_nil, or_false] at inside
  rcases inside with rfl | rfl
  · exact fun _ _ => Or.inl ⟨by decide, by decide⟩
  · exact fun inherited => absurd rfl inherited

/-- Back in the first client the data selector is still the second's. -/
theorem registry_wrong_switch : ¬ ∀ (dos32Int21 dos16Int21 : Dword) (moduleCs : Word → Prop)
    (hostInt21 : PAddr), ¬ moduleCs hostInt21.selector →
    ∀ (past : List (Registry × EntryCall)) (s : Registry),
      Trace NoClients (RegistryStep dos32Int21 dos16Int21 moduleCs hostInt21) past s →
      Throughout (RegistryRight dos32Int21 dos16Int21 moduleCs hostInt21) past s := by
  intro always
  have switched : RegistryStep 0x1000 0x2000 (· = 0x8f) hostHandler secondLoaded
      (.switch (clientEnv 0xa7) 0 0) { secondLoaded with currentClient := 0 } :=
    ⟨(by decide : (secondLoaded.sr 0).used = true), rfl⟩
  have throughout := always 0x1000 0x2000 (· = 0x8f) hostHandler (by decide) _ _
    (.step (.step (.step (.start loaded_none) loaded_starts) first_starts) switched)
  have dseg := throughout.1.dseg (by decide)
  revert dseg
  decide

end Pmdapi
