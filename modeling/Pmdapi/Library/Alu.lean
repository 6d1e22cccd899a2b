import Pmdapi.Library.Bytes

/-!
The binary operations of the x86 ALU at any width, with the status flags they leave.
-/

namespace Pmdapi.X86
open Bytes

inductive FlagEffect where
  | becomes (value : Bool)
  | kept
  | undefined
  deriving DecidableEq, Repr

structure AluResult (w : Nat) where
  value : BitVec w
  carry : FlagEffect
  adjust : FlagEffect
  overflow : Bool
  deriving DecidableEq

namespace AluResult

variable {w : Nat} (r : AluResult w)

/-- An even number of ones in the low byte. -/
def parity : Bool := (List.range 8).countP (r.value.getLsbD ·) % 2 = 0

def zero : Bool := r.value = 0

def sign : Bool := r.value.msb

end AluResult

section Operations

variable {w : Nat} (a b : BitVec w) (c : Bool)

/-- Flags come from what the exact sum or difference loses. -/
def addWithCarry : AluResult w :=
  let value := BitVec.ofNat w (a.toNat + b.toNat + c.toNat)
  { value := value
    carry := .becomes (decide (2 ^ w ≤ a.toNat + b.toNat + c.toNat))
    adjust := .becomes (decide (16 ≤ a.toNat % 16 + b.toNat % 16 + c.toNat))
    overflow := decide (value.toInt ≠ a.toInt + b.toInt + c.toNat) }

def subWithBorrow : AluResult w :=
  let value := a - b - BitVec.ofNat w c.toNat
  { value := value
    carry := .becomes (decide (a.toNat < b.toNat + c.toNat))
    adjust := .becomes (decide (a.toNat % 16 < b.toNat % 16 + c.toNat))
    overflow := decide (value.toInt ≠ a.toInt - b.toInt - c.toNat) }

def logic (value : BitVec w) : AluResult w := ⟨value, .becomes false, .undefined, false⟩

def increment : AluResult w := { addWithCarry a 1 false with carry := .kept }

def decrement : AluResult w := { subWithBorrow a 1 false with carry := .kept }

end Operations

inductive AluOp where
  | add | or | adc | sbb | and | sub | xor | cmp
  deriving DecidableEq, Repr

def AluOp.ofNumber (n : BitVec 3) : AluOp :=
  [AluOp.add, .or, .adc, .sbb, .and, .sub, .xor, .cmp].getD n.toNat .add

def AluOp.run {w : Nat} (op : AluOp) (a b : BitVec w) (carry : Bool) : AluResult w :=
  match op with
  | .add => addWithCarry a b false
  | .or => logic (a ||| b)
  | .adc => addWithCarry a b carry
  | .sbb => subWithBorrow a b carry
  | .and => logic (a &&& b)
  | .sub | .cmp => subWithBorrow a b false
  | .xor => logic (a ^^^ b)

/-! ## Flags in their register -/

/-- The bits of EFLAGS that hold the status flags: CF, PF, AF, ZF, SF and OF. -/
def statusBits : List Nat := [0, 2, 4, 6, 7, 11]

def FlagEffect.Leaves (effect : FlagEffect) (before after : Bool) : Prop :=
  match effect with
  | .becomes value => after = value
  | .kept => after = before
  | .undefined => True

instance (effect : FlagEffect) (before after : Bool) : Decidable (effect.Leaves before after) := by
  cases effect <;> unfold FlagEffect.Leaves <;> infer_instance

structure AluResult.Leaves {w : Nat} (r : AluResult w) (before after : Dword) : Prop where
  carry : r.carry.Leaves (before.getLsbD 0) (after.getLsbD 0)
  parity : after.getLsbD 2 = r.parity
  adjust : r.adjust.Leaves (before.getLsbD 4) (after.getLsbD 4)
  zero : after.getLsbD 6 = r.zero
  sign : after.getLsbD 7 = r.sign
  overflow : after.getLsbD 11 = r.overflow
  others : ∀ i, i ∉ statusBits → after.getLsbD i = before.getLsbD i

end Pmdapi.X86
