import Pmdapi.ClientRegistry

/-! A start of a client in which a call of the host fails: what `entry` leaves behind. -/

namespace Pmdapi
open Bytes

/-- A host call of `entry` with the answer. An allocation gives a selector or -1. -/
inductive StartCall where
  | allocate (sel : Option Word)
  | setDescriptor (sel : Word) (ok : Bool)
  | getVector (ok : Bool)
  | setVector (ok : Bool)
  | free (sel : Word)
  deriving DecidableEq

def StartCall.Failed : StartCall → Prop
  | .allocate sel => sel = none
  | .setDescriptor _ ok => ok = false
  | .getVector ok => ok = false
  | .setVector ok => ok = false
  | .free _ => False

def StartCall.held (held : List Word) : StartCall → List Word
  | .allocate (some sel) => sel :: held
  | .free sel => held.erase sel
  | _ => held

def stillAllocated (calls : List StartCall) : List Word := calls.foldl StartCall.held []

structure Allocations where
  fs : Option Word
  gs : Option Word

def storedSelector (sel : Option Word) : Word := sel.getD 0xffff

def EntryEnv.answered (e : EntryEnv) (a : Allocations) : EntryEnv :=
  { e with allocatedFs := storedSelector a.fs, allocatedGs := storedSelector a.gs }

variable (dos32Int21 dos16Int21 : Dword) (e : EntryEnv) (a : Allocations) (handle : Nat) (inh : Word)
  (s : Registry)

def vectorCalls : List StartCall :=
  if inh ≠ 0 ∧ 0 < handle ∧ (s.sr (handle - 1)).used = true then []
  else if e.getVector = false then [.getVector false]
  else [.getVector true, .setVector e.setVector]

def startCalls : List StartCall :=
  let fsCalls : List StartCall :=
    if e.haveFs then [.allocate a.fs, .setDescriptor (storedSelector a.fs) e.setFs] else []
  if e.haveFs && !e.setFs then fsCalls
  else
    let gsCalls : List StartCall :=
      if e.haveGs then [.allocate a.gs, .setDescriptor (storedSelector a.gs) e.setGs] else []
    if e.haveGs && !e.setGs then fsCalls ++ gsCalls
    else fsCalls ++ gsCalls ++ vectorCalls e handle inh s

/-- The state is as before the call, and no descriptor of the call is left. -/
structure ChangesNothing (s t : Registry) (calls : List StartCall) : Prop where
  sr : t.sr = s.sr
  current : t.currentClient = s.currentClient
  dseg : t.dseg32 = s.dseg32
  descriptors : stillAllocated calls = []
  vectors : t.vectors = s.vectors

/-- Every allocation fails, the descriptor of FFFFh cannot be set, and the slot already has the FFFFh of
an earlier failure. -/
def StaleFailure (c : Clnt) : Prop :=
  e.haveFs = true ∧ a.fs = none ∧ e.setFs = false ∧ c.fs = 0xffff ∨
    (e.haveFs = true → a.fs = none ∧ e.setFs = true ∧ c.fs = 0xffff) ∧
      e.haveGs = true ∧ a.gs = none ∧ e.setGs = false ∧ c.gs = 0xffff

def StartFails : Prop := ∃ call ∈ startCalls e a handle inh s, call.Failed

section

variable {e a handle inh s}

theorem withClient_sr_self {c : Clnt} : (s.withClient handle c).sr = s.sr ↔ c = s.sr handle := by
  constructor
  · intro same
    have here := congrFun same handle
    rwa [Registry.withClient_self] at here
  · rintro rfl
    funext k
    by_cases here : k = handle
    · rw [here, Registry.withClient_self]
    · exact Registry.withClient_other s _ here

theorem chainInt21_used (t : Registry) (used : (t.sr t.currentClient).used = true) :
    ((chainInt21 dos32Int21 dos16Int21 e inh t).sr t.currentClient).used = true := by
  simp only [chainInt21]
  by_cases inherits : inh ≠ 0 ∧ 0 < t.currentClient ∧ (t.sr (t.currentClient - 1)).used = true
  · rw [if_pos inherits, Registry.withClient_self]
    exact used
  · rw [if_neg inherits]
    by_cases got : e.getVector = false
    · rw [if_pos got]
      exact used
    · rw [if_neg got]
      by_cases given : e.setVector = false
      · rw [if_pos given, Registry.withClient_self]
        exact used
      · rw [if_neg given, Registry.withVector_sr, Registry.withClient_self]
        exact used

section

variable (a handle inh s)

theorem start_used (fs : (e.haveFs && !e.setFs) = false) (gs : (e.haveGs && !e.setGs) = false) :
    ((start dos32Int21 dos16Int21 e handle inh s).sr handle).used = true := by
  rw [start]
  simp only [fs, gs, Bool.false_eq_true, if_false]
  exact chainInt21_used dos32Int21 dos16Int21 _ (by simp)

/-- A start that ends with the descriptor for FS. -/
theorem start_ends_fs (haveFs : e.haveFs = true) (fails : e.setFs = false) :
    start dos32Int21 dos16Int21 (e.answered a) handle inh s =
        s.withClient handle { s.sr handle with fs := storedSelector a.fs } ∧
      startCalls e a handle inh s = [.allocate a.fs, .setDescriptor (storedSelector a.fs) false] := by
  constructor
  · simp [start, EntryEnv.answered, haveFs, fails]
  · simp [startCalls, haveFs, fails]

theorem start_ends_gs (haveFs : e.haveFs = true) (sets : e.setFs = true) (haveGs : e.haveGs = true)
    (fails : e.setGs = false) :
    start dos32Int21 dos16Int21 (e.answered a) handle inh s =
        s.withClient handle
          { s.sr handle with fs := storedSelector a.fs, gs := storedSelector a.gs } ∧
      startCalls e a handle inh s =
        [.allocate a.fs, .setDescriptor (storedSelector a.fs) true,
          .allocate a.gs, .setDescriptor (storedSelector a.gs) false] := by
  constructor
  · simp [start, EntryEnv.answered, haveFs, sets, haveGs, fails]
  · simp [startCalls, haveFs, sets, haveGs, fails]

theorem start_ends_gs_alone (noFs : e.haveFs = false) (haveGs : e.haveGs = true)
    (fails : e.setGs = false) :
    start dos32Int21 dos16Int21 (e.answered a) handle inh s =
        s.withClient handle { s.sr handle with gs := storedSelector a.gs } ∧
      startCalls e a handle inh s = [.allocate a.gs, .setDescriptor (storedSelector a.gs) false] := by
  constructor
  · simp [start, EntryEnv.answered, noFs, haveGs, fails]
  · simp [startCalls, noFs, haveGs, fails]

end

theorem changesNothing_withClient {c : Clnt} {calls : List StartCall} :
    ChangesNothing s (s.withClient handle c) calls ↔ c = s.sr handle ∧ stillAllocated calls = [] := by
  constructor
  · intro same
    exact ⟨withClient_sr_self.mp same.sr, same.descriptors⟩
  · rintro ⟨same, none⟩
    exact ⟨withClient_sr_self.mpr same, rfl, rfl, none, rfl⟩

/-- A start that stores FS leaves its slot and the selectors alone just if the allocation failed, and
an earlier one had. -/
theorem stored_fs_iff {c : Clnt} {ok : Bool} :
    { c with fs := storedSelector a.fs } = c ∧
        stillAllocated [.allocate a.fs, .setDescriptor (storedSelector a.fs) ok] = [] ↔
      a.fs = none ∧ c.fs = 0xffff := by
  cases c with
  | mk ds fs gs old used =>
    cases sel : a.fs with
    | none => simp [stillAllocated, StartCall.held, storedSelector, eq_comm]
    | some v => simp [stillAllocated, StartCall.held]

theorem stored_gs_iff {c : Clnt} {ok : Bool} :
    { c with gs := storedSelector a.gs } = c ∧
        stillAllocated [.allocate a.gs, .setDescriptor (storedSelector a.gs) ok] = [] ↔
      a.gs = none ∧ c.gs = 0xffff := by
  cases c with
  | mk ds fs gs old used =>
    cases sel : a.gs with
    | none => simp [stillAllocated, StartCall.held, storedSelector, eq_comm]
    | some v => simp [stillAllocated, StartCall.held]

theorem stored_both_iff {c : Clnt} {fsOk gsOk : Bool} :
    { c with fs := storedSelector a.fs, gs := storedSelector a.gs } = c ∧
        stillAllocated [.allocate a.fs, .setDescriptor (storedSelector a.fs) fsOk, .allocate a.gs,
          .setDescriptor (storedSelector a.gs) gsOk] = [] ↔
      (a.fs = none ∧ c.fs = 0xffff) ∧ a.gs = none ∧ c.gs = 0xffff := by
  cases c with
  | mk ds fs gs old used =>
    cases fsSel : a.fs with
    | none =>
      cases gsSel : a.gs with
      | none => simp [stillAllocated, StartCall.held, storedSelector, eq_comm]
      | some v => simp [stillAllocated, StartCall.held]
    | some v => cases gsSel : a.gs <;> simp [stillAllocated, StartCall.held]

theorem changesNothing_iff (free : (s.sr handle).used = false) :
    ChangesNothing s (start dos32Int21 dos16Int21 (e.answered a) handle inh s)
      (startCalls e a handle inh s) ↔ StaleFailure e a (s.sr handle) := by
  by_cases fs : e.haveFs = true ∧ e.setFs = false
  · obtain ⟨haveFs, fails⟩ := fs
    obtain ⟨left, calls⟩ := start_ends_fs dos32Int21 dos16Int21 a handle inh s haveFs fails
    rw [left, calls, changesNothing_withClient, stored_fs_iff]
    simp [StaleFailure, haveFs, fails]
  · by_cases gs : e.haveGs = true ∧ e.setGs = false
    · obtain ⟨haveGs, fails⟩ := gs
      cases haveFs : e.haveFs with
      | true =>
        have sets : e.setFs = true := by simpa [haveFs] using fs
        obtain ⟨left, calls⟩ := start_ends_gs dos32Int21 dos16Int21 a handle inh s haveFs sets haveGs
          fails
        rw [left, calls, changesNothing_withClient, stored_both_iff]
        simp [StaleFailure, haveFs, sets, haveGs, fails]
      | false =>
        obtain ⟨left, calls⟩ := start_ends_gs_alone dos32Int21 dos16Int21 a handle inh s haveFs haveGs
          fails
        rw [left, calls, changesNothing_withClient, stored_gs_iff]
        simp [StaleFailure, haveFs, haveGs, fails]
    · have past := start_used (e := e.answered a) dos32Int21 dos16Int21 handle inh s
        (by simpa [EntryEnv.answered] using fs) (by simpa [EntryEnv.answered] using gs)
      constructor
      · intro same
        rw [same.sr, free] at past
        cases past
      · rintro (⟨haveFs, -, fails, -⟩ | ⟨-, haveGs, -, fails, -⟩)
        · exact absurd ⟨haveFs, fails⟩ fs
        · exact absurd ⟨haveGs, fails⟩ gs

/-- A start on a free slot in which a call of the host fails changes nothing just if it fails as it failed
before. -/
theorem failed_start_iff (e : EntryEnv) (a : Allocations) (handle inh : Word) (s t : Registry)
    (below : handle.toNat < maxClients) (free : (s.sr handle.toNat).used = false)
    (ran : entry dos32Int21 dos16Int21 (e.answered a) 0 handle inh s = some t) :
    (StartFails e a handle.toNat inh s → ChangesNothing s t (startCalls e a handle.toNat inh s)) ↔
      (StartFails e a handle.toNat inh s → StaleFailure e a (s.sr handle.toNat)) := by
  have accepted : ¬¬(handle.toNat < maxClients ∧ (handle.toNat = s.currentClient ∨ (0 : Word) ≠ 1)) :=
    not_not_intro ⟨below, .inr (by decide)⟩
  rw [entry, if_neg accepted, if_neg (by decide), if_neg (by decide)] at ran
  rw [← Option.some.inj ran]
  exact imp_congr_right fun _ => changesNothing_iff dos32Int21 dos16Int21 free

end

/-- The second of two starts that fail in the same way: FS already holds FFFFh. -/
def failsAgain : Registry :=
  loaded.withClient 0 { unusedClnt with fs := 0xffff }

def exhausted : EntryEnv := { clientEnv 0x97 with haveFs := true, setFs := false }

theorem failed_start_again :
    StartFails exhausted ⟨none, none⟩ 0 0 failsAgain ∧
      ChangesNothing failsAgain (start 0x1000 0x2000 (exhausted.answered ⟨none, none⟩) 0 0 failsAgain)
        (startCalls exhausted ⟨none, none⟩ 0 0 failsAgain) := by
  have fails : StartFails exhausted ⟨none, none⟩ 0 0 failsAgain :=
    ⟨.allocate none, by decide +kernel, rfl⟩
  have stale : StaleFailure exhausted ⟨none, none⟩ (failsAgain.sr 0) :=
    .inl ⟨rfl, rfl, rfl, rfl⟩
  exact ⟨fails, (failed_start_iff 0x1000 0x2000 exhausted ⟨none, none⟩ 0 0 failsAgain _ (by decide) rfl
    rfl).mpr (fun _ => stale) fails⟩

/-- The first client cannot get the vector of int 21h, and is in use all the same. -/
theorem failed_start_misses_vector :
    let e := { clientEnv 0x97 with getVector := false }
    let t := start 0x1000 0x2000 (e.answered ⟨none, none⟩) 0 0 loaded
    (loaded.sr 0).used = false ∧ entry 0x1000 0x2000 (e.answered ⟨none, none⟩) 0 0 0 loaded = some t ∧
      StartFails e ⟨none, none⟩ 0 0 loaded ∧
      ¬ChangesNothing loaded t (startCalls e ⟨none, none⟩ 0 0 loaded) := by
  refine ⟨rfl, rfl, ⟨.getVector false, by decide +kernel, rfl⟩, ?_⟩
  intro same
  have used := congrArg (fun sr => (sr 0).used) same.sr
  exact absurd used (by decide +kernel)

end Pmdapi
