import Pmdapi.Library.Bytes

/-!
`handlers.c`: the clients of the resident service. What a client loads into FS and GS on the way is
left out, and so are the messages.
-/

namespace Pmdapi
open Bytes

structure PAddr where
  offset32 : Dword
  selector : Word
  deriving DecidableEq, Repr

structure Clnt where
  ds : Word
  fs : Word
  gs : Word
  oldInt21 : PAddr
  used : Bool
  deriving DecidableEq, Repr

def maxClients : Nat := 32

/-- The statics of the module with `dseg32`, and the vector of int 21h in each client's own table. -/
structure Registry where
  currentClient : Nat
  sr : Nat → Clnt
  dseg32 : Dword
  vectors : Nat → PAddr

/-- What `entry` finds: `_my_ds`, `_my_cs`, the flags of the program, and the host's answers. An
allocation always answers a selector here, for `fs` and `gs` are unsigned and never equal -1. -/
structure EntryEnv where
  myDs : Word
  myCs : Word
  clntIs32 : Bool
  haveFs : Bool
  haveGs : Bool
  allocatedFs : Word
  allocatedGs : Word
  setFs : Bool
  setGs : Bool
  getVector : Bool
  setVector : Bool

def EntryEnv.Succeeds (e : EntryEnv) : Prop :=
  e.setFs = true ∧ e.setGs = true ∧ e.getVector = true ∧ e.setVector = true

instance (e : EntryEnv) : Decidable e.Succeeds :=
  inferInstanceAs (Decidable (e.setFs = true ∧ e.setGs = true ∧ e.getVector = true ∧ e.setVector = true))

namespace Registry

def withClient (s : Registry) (n : Nat) (c : Clnt) : Registry :=
  { s with sr := fun k => if k = n then c else s.sr k }

def withVector (s : Registry) (n : Nat) (v : PAddr) : Registry :=
  { s with vectors := fun k => if k = n then v else s.vectors k }

@[simp] theorem withClient_currentClient (s : Registry) (n : Nat) (c : Clnt) :
    (s.withClient n c).currentClient = s.currentClient := rfl

@[simp] theorem withClient_dseg32 (s : Registry) (n : Nat) (c : Clnt) :
    (s.withClient n c).dseg32 = s.dseg32 := rfl

@[simp] theorem withClient_vectors (s : Registry) (n : Nat) (c : Clnt) :
    (s.withClient n c).vectors = s.vectors := rfl

@[simp] theorem withClient_self (s : Registry) (n : Nat) (c : Clnt) : (s.withClient n c).sr n = c :=
  if_pos rfl

theorem withClient_other (s : Registry) {n k : Nat} (c : Clnt) (other : k ≠ n) :
    (s.withClient n c).sr k = s.sr k :=
  if_neg other

@[simp] theorem withClient_withClient (s : Registry) (n : Nat) (c d : Clnt) :
    (s.withClient n c).withClient n d = s.withClient n d := by
  unfold withClient
  congr
  funext k
  simp only []
  split <;> rfl

@[simp] theorem withVector_sr (s : Registry) (n : Nat) (v : PAddr) : (s.withVector n v).sr = s.sr := rfl

theorem withVector_other (s : Registry) {n k : Nat} (v : PAddr) (other : k ≠ n) :
    (s.withVector n v).vectors k = s.vectors k :=
  if_neg other

@[simp] theorem withVector_self (s : Registry) (n : Nat) (v : PAddr) :
    (s.withVector n v).vectors n = v :=
  if_pos rfl

end Registry

section

variable (dos32Int21 dos16Int21 : Dword)

/-- The end of `entry`: the vector that the new client's handler passes its calls on to. -/
def chainInt21 (e : EntryEnv) (inh : Word) (s : Registry) : Registry :=
  let here := s.currentClient
  if inh ≠ 0 ∧ 0 < here ∧ (s.sr (here - 1)).used = true then
    s.withClient here { s.sr here with oldInt21 := (s.sr (here - 1)).oldInt21 }
  else
    let addr : PAddr := ⟨if e.clntIs32 then dos32Int21 else dos16Int21, e.myCs⟩
    if e.getVector = false then s
    else
      let s := s.withClient here { s.sr here with oldInt21 := s.vectors here }
      if e.setVector = false then s else s.withVector here addr

def start (e : EntryEnv) (handle : Nat) (inh : Word) (s : Registry) : Registry :=
  let s := if e.haveFs then s.withClient handle { s.sr handle with fs := e.allocatedFs } else s
  if e.haveFs && !e.setFs then s
  else
    let s := if e.haveGs then s.withClient handle { s.sr handle with gs := e.allocatedGs } else s
    if e.haveGs && !e.setGs then s
    else
      let s := s.withClient handle { s.sr handle with ds := e.myDs, used := true }
      chainInt21 dos32Int21 dos16Int21 e inh
        { s with dseg32 := e.myDs.setWidth 32, currentClient := handle }

/-- `done`. A `prev` that is no slot is outside the array. -/
def Registry.done (prev : Word) (s : Registry) : Option Registry :=
  let here := s.currentClient
  let s := s.withVector here (s.sr here).oldInt21
  let s := s.withClient here { s.sr here with used := false }
  if prev = -1 then some s
  else if prev.toNat < maxClients then
    some { s with dseg32 := (s.sr prev.toNat).ds.setWidth 32, currentClient := prev.toNat }
  else none

/-- `entry`. `none` where its assertion fails. -/
def entry (e : EntryEnv) (term handle inhOrPrev : Word) (s : Registry) : Option Registry :=
  if ¬ (handle.toNat < maxClients ∧ (handle.toNat = s.currentClient ∨ term ≠ 1)) then none
  else if term = 1 then Registry.done inhOrPrev s
  else if term = 2 then some { s with currentClient := handle.toNat }
  else some (start dos32Int21 dos16Int21 e handle.toNat inhOrPrev s)

end

/-- Where `int21_handler` passes a call on to; a 16-bit far pointer keeps the low word of the offset. -/
def int21Target (clntIs32 : Bool) (s : Registry) : PAddr :=
  let old := (s.sr s.currentClient).oldInt21
  if clntIs32 then old else ⟨(old.offset32.setWidth 16).setWidth 32, old.selector⟩

end Pmdapi
