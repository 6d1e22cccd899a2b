import Pmdapi.PostExtender

/-! Runs of `set_io_buffer`, `unset_io_buffer` and `rmcb_handler`: what is copied to or from the
client's buffer, and which error is reported. -/

namespace Pmdapi
open Bytes

/-- `is_io_error(&code)`: the code is stored only with an error. -/
def isIoError (io : IoBuffer) (code : Word) : Bool × Word :=
  (io.error, if io.error then io.errorCode else code)

theorem retIoError_eq {σ : Type} (io : IoBuffer) (err : Word) :
    (retIoError io : M σ Unit) =
      if (isIoError io err).1 then do
        setRegEflags (· ||| CF)
        setReg .eax (zext (isIoError io err).2)
      else setRegEflags (· &&& ~~~CF) := by
  cases io with
  | mk ptr size error errorCode => cases error <;> rfl

/-! ## One call -/

structure Transfer where
  dst : Dword
  src : Dword
  len : Nat
  deriving DecidableEq

def Transfer.apply (mem : Memory) (c : Transfer) : Memory := copy mem c.dst c.src c.len

def rmcbTransfer (io : IoBuffer) (rmreg : RealModeCallStructure) : Option Transfer :=
  let buffer := io.ptr + rmreg.gpr .edi
  let dosPtr := segoff2linear rmreg.ds (rmreg.lword .edx)
  let size := (rmreg.gpr .ecx).toNat
  if rmreg.gpr .edi + rmreg.gpr .ecx ≤ io.size then
    if loByte (rmreg.lword .eax) = 0 then some ⟨buffer, dosPtr, size⟩
    else if loByte (rmreg.lword .eax) = 1 then some ⟨dosPtr, buffer, size⟩
    else none
  else none

def rmcbError (rmreg : RealModeCallStructure) : Option Word :=
  if loByte (rmreg.lword .eax) = 2 then some (rmreg.lword .ecx) else none

section Call

variable (io : IoBuffer) (mem : Memory) (rmreg : RealModeCallStructure)

theorem rmcbHandler_memory : (rmcbHandler io mem rmreg).2 =
    (rmcbTransfer io rmreg).elim mem (Transfer.apply mem) := by
  unfold rmcbHandler rmcbTransfer
  by_cases fits : rmreg.gpr .edi + rmreg.gpr .ecx ≤ io.size
  · by_cases read : loByte (rmreg.lword .eax) = 0
    · simp [fits, read, Transfer.apply]
    · by_cases write : loByte (rmreg.lword .eax) = 1
      · simp [fits, write, Transfer.apply]
      · simp only [fits, read, write, if_true, if_false]
        split <;> rfl
  · simp only [fits, if_false]
    split
    · rfl
    · split
      · rfl
      · split <;> rfl

theorem rmcbHandler_io : (rmcbHandler io mem rmreg).1 =
    (rmcbError rmreg).elim io fun code => { io with error := true, errorCode := code } := by
  unfold rmcbError
  split
  next al => rw [rmcbHandler_error io mem al, Option.elim_some]
  next other =>
    unfold rmcbHandler
    simp only [other, if_false]
    split
    · split <;> rfl
    · split
      · split <;> rfl
      · rfl

end Call

/-! ## Runs -/

inductive IoCall where
  | set (ptr size : Dword)
  | unset
  | callback (rmreg : RealModeCallStructure)

def IoCall.step : IoCall → IoBuffer × Memory → IoBuffer × Memory
  | .set ptr size, s => (s.1.set ptr size, s.2)
  | .unset, s => (s.1.unset, s.2)
  | .callback rmreg, s => rmcbHandler s.1 s.2 rmreg

def IoBuffer.zero : IoBuffer := ⟨0, 0, false, 0⟩

/-- The state after the calls, latest first. -/
def ioRun (mem : Memory) : List IoCall → IoBuffer × Memory
  | [] => (.zero, mem)
  | call :: past => call.step (ioRun mem past)

def lastSet : List IoCall → Dword × Dword
  | [] => (0, 0)
  | .set ptr size :: _ => (ptr, size)
  | .unset :: past => lastSet past
  | .callback _ :: past => lastSet past

def bufferClosed : List IoCall → Bool
  | [] => true
  | .set _ _ :: _ => false
  | .unset :: _ => true
  | .callback _ :: past => bufferClosed past

def lastError : List IoCall → Option Word
  | [] => none
  | .set _ _ :: _ => none
  | .unset :: past => lastError past
  | .callback rmreg :: past => rmcbError rmreg <|> lastError past

def openSize (past : List IoCall) : Dword := if bufferClosed past then 0 else (lastSet past).2

structure IoRecorded (past : List IoCall) (io : IoBuffer) : Prop where
  ptr : io.ptr = (lastSet past).1
  size : io.size = openSize past
  error : (if io.error then some io.errorCode else none) = lastError past

theorem ioRecorded_step {past : List IoCall} {s : IoBuffer × Memory} (recorded : IoRecorded past s.1)
    (call : IoCall) : IoRecorded (call :: past) (call.step s).1 := by
  cases call with
  | set ptr size => exact ⟨rfl, rfl, rfl⟩
  | unset => exact ⟨recorded.ptr, rfl, recorded.error⟩
  | callback rmreg =>
    show IoRecorded (.callback rmreg :: past) (rmcbHandler s.1 s.2 rmreg).1
    rw [rmcbHandler_io]
    have error : lastError (.callback rmreg :: past) = (rmcbError rmreg <|> lastError past) := rfl
    cases reported : rmcbError rmreg with
    | some code =>
      refine ⟨recorded.ptr, recorded.size, ?_⟩
      rw [error, reported]
      rfl
    | none =>
      refine ⟨recorded.ptr, recorded.size, ?_⟩
      rw [error, reported]
      exact recorded.error

theorem ioRecorded_run (mem : Memory) (past : List IoCall) : IoRecorded past (ioRun mem past).1 := by
  induction past with
  | nil => exact ⟨rfl, rfl, rfl⟩
  | cons call past ih => exact ioRecorded_step ih call

/-! ## The bounds -/

structure InsideBuffer (past : List IoCall) (rmreg : RealModeCallStructure) (c : Transfer) : Prop where
  length : c.len = (rmreg.gpr .ecx).toNat
  place : (if loByte (rmreg.lword .eax) = 0 then c.dst else c.src) = (lastSet past).1 + rmreg.gpr .edi
  bound : (rmreg.gpr .edi).toNat + (rmreg.gpr .ecx).toNat ≤ (lastSet past).2.toNat
  closed : bufferClosed past = true → c.len = 0

/-- A callback made after `past` changes memory by no copy, or by one inside of the buffer. -/
structure CallbackSafe (past : List IoCall) (io : IoBuffer) (rmreg : RealModeCallStructure) : Prop where
  memory : ∀ mem, (rmcbHandler io mem rmreg).2 = (rmcbTransfer io rmreg).elim mem (Transfer.apply mem)
  inside : ∀ c, rmcbTransfer io rmreg = some c → InsideBuffer past rmreg c

structure IoRunSafe (mem : Memory) (calls : List IoCall) : Prop where
  callbacks : ∀ rmreg past, IoCall.callback rmreg :: past <:+ calls →
    CallbackSafe past (ioRun mem past).1 rmreg
  errors : ∀ past, past <:+ calls → ∀ code,
    isIoError (ioRun mem past).1 code = ((lastError past).isSome, (lastError past).getD code)

/-- The sum of EDI and ECX does not wrap, or is too large even then. -/
def SumFits (past : List IoCall) (rmreg : RealModeCallStructure) : Prop :=
  loByte (rmreg.lword .eax) = 0 ∨ loByte (rmreg.lword .eax) = 1 →
    (rmreg.gpr .edi).toNat + (rmreg.gpr .ecx).toNat < 2 ^ 32 ∨
      openSize past < rmreg.gpr .edi + rmreg.gpr .ecx

section Bounds

variable {past : List IoCall} {io : IoBuffer} {rmreg : RealModeCallStructure} {c : Transfer}

theorem rmcbTransfer_some (copied : rmcbTransfer io rmreg = some c) :
    (loByte (rmreg.lword .eax) = 0 ∨ loByte (rmreg.lword .eax) = 1) ∧
      rmreg.gpr .edi + rmreg.gpr .ecx ≤ io.size ∧ c.len = (rmreg.gpr .ecx).toNat ∧
      (if loByte (rmreg.lword .eax) = 0 then c.dst else c.src) = io.ptr + rmreg.gpr .edi := by
  obtain ⟨fits, copied⟩ := Option.ite_none_right_eq_some.mp copied
  by_cases read : loByte (rmreg.lword .eax) = 0
  · rw [if_pos read] at copied
    obtain rfl := Option.some.inj copied
    exact ⟨.inl read, fits, rfl, if_pos read⟩
  · rw [if_neg read] at copied
    obtain ⟨write, copied⟩ := Option.ite_none_right_eq_some.mp copied
    obtain rfl := Option.some.inj copied
    exact ⟨.inr write, fits, rfl, if_neg read⟩

theorem exists_rmcbTransfer (transfers : loByte (rmreg.lword .eax) = 0 ∨ loByte (rmreg.lword .eax) = 1)
    (fits : rmreg.gpr .edi + rmreg.gpr .ecx ≤ io.size) : ∃ c, rmcbTransfer io rmreg = some c := by
  unfold rmcbTransfer
  simp only [fits, if_true]
  rcases transfers with read | write
  · exact ⟨_, if_pos read⟩
  · have other : loByte (rmreg.lword .eax) ≠ 0 := by rw [write]; decide
    exact ⟨_, (if_neg other).trans (if_pos write)⟩

theorem callbackSafe_iff (recorded : IoRecorded past io) :
    CallbackSafe past io rmreg ↔ SumFits past rmreg := by
  have total := BitVec.toNat_add (rmreg.gpr .edi) (rmreg.gpr .ecx)
  constructor
  · intro safe transfers
    by_contra wraps
    rw [not_or, BitVec.not_lt, ← recorded.size] at wraps
    obtain ⟨large, small⟩ := wraps
    obtain ⟨c, copied⟩ := exists_rmcbTransfer transfers small
    have bound := (safe.inside c copied).bound
    have size := (lastSet past).2.isLt
    omega
  · intro fits
    refine ⟨fun mem => rmcbHandler_memory io mem rmreg, fun c copied => ?_⟩
    obtain ⟨transfers, small, length, place⟩ := rmcbTransfer_some copied
    rw [recorded.size] at small
    rcases fits transfers with noWrap | large
    · rw [Nat.mod_eq_of_lt noWrap] at total
      have here := BitVec.le_def.mp small
      rw [total, openSize] at here
      constructor
      · exact length
      · exact place.trans (congrArg (· + rmreg.gpr .edi) recorded.ptr)
      · split at here
        · have none : (0 : Dword).toNat = 0 := rfl
          omega
        · exact here
      · intro closed
        rw [if_pos closed] at here
        have none : (0 : Dword).toNat = 0 := rfl
        omega
    · exact absurd small (BitVec.not_le.mpr large)

theorem isIoError_recorded (recorded : IoRecorded past io) (code : Word) :
    isIoError io code = ((lastError past).isSome, (lastError past).getD code) := by
  rw [← recorded.error, isIoError]
  cases io.error <;> rfl

/-- A run is safe just if none of its callbacks gets by with a sum that wraps. -/
theorem io_bounds_iff (mem : Memory) (calls : List IoCall) : IoRunSafe mem calls ↔
    ∀ rmreg past, IoCall.callback rmreg :: past <:+ calls → SumFits past rmreg := by
  constructor
  · intro safe rmreg past made
    exact (callbackSafe_iff (ioRecorded_run mem past)).mp (safe.callbacks rmreg past made)
  · intro fits
    constructor
    · intro rmreg past made
      exact (callbackSafe_iff (ioRecorded_run mem past)).mpr (fits rmreg past made)
    · intro past _ code
      exact isIoError_recorded (ioRecorded_run mem past) code

end Bounds

/-- A read of 4G - 1 bytes at offset 1, with no buffer set any more: the first of them is what DOS has at 0. -/
theorem io_bounds_misses_unset :
    let calls : List IoCall := [.callback { RealModeCallStructure.zero with
        gpr := setGpr (setGpr (fun _ => 0) .edi 1) .ecx 0xffffffff },
      .unset, .set 0x1000 0x10]
    let mem := store (fun _ => 0) 0 [0x41]
    (ioRun mem calls.tail).2 0x1001 = 0 ∧ (ioRun mem calls).2 0x1001 = 0x41 ∧ ¬IoRunSafe mem calls := by
  refine ⟨by decide +kernel, by decide +kernel, fun safe => ?_⟩
  have callback := safe.callbacks _ _ List.suffix_rfl
  have bound := (callback.inside ⟨0x1001, 0, 0xffffffff⟩ (by decide +kernel)).bound
  exact absurd bound (by decide +kernel)

end Pmdapi
