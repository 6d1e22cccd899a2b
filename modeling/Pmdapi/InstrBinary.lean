import Pmdapi.Cpu
import Pmdapi.Library.Alu

/-! `instremu.c`: the "RISC" core functions. Their inline assembly is the processor's own instruction. -/

namespace Pmdapi
open Bytes X86

def PF : Dword := 0x4
def AF : Dword := 0x10
def ZF : Dword := 0x40
def SF : Dword := 0x80
def DF : Dword := 0x400
def OF : Dword := 0x800

def flagBit (value : Bool) (bit : Dword) : Dword := if value then bit else 0

/-- `pushf; pop`: the flags after an instruction. Those it leaves undefined are not looked at. -/
def pushf {w : Nat} (r : AluResult w) : Dword :=
  flagBit (r.carry = .becomes true) CF ||| flagBit r.parity PF ||| flagBit (r.adjust = .becomes true) AF |||
    flagBit r.zero ZF ||| flagBit r.sign SF ||| flagBit r.overflow OF

def logicMask : Dword := OF ||| ZF ||| SF ||| PF ||| CF

def arithMask : Dword := OF ||| ZF ||| SF ||| AF ||| PF ||| CF

/-- `*eflags = (*eflags & ~mask) | (flags & mask)`. -/
def takeFlags (mask eflags flags : Dword) : Dword := eflags &&& ~~~mask ||| flags &&& mask

/-- The body that `instr_binary_byte`, `_word` and `_dword` share. -/
def instrBinary {w : Nat} (op : Byte) (op1 op2 : BitVec w) (eflags : Dword) : BitVec w × Dword :=
  let logic (r : AluResult w) := (r.value, takeFlags logicMask eflags (pushf r))
  -- `adc` and `sbb` get their carry from the flags shifted right
  let adc (eflags : Dword) :=
    let r := addWithCarry op1 op2 (eflags.getLsbD 0)
    (r.value, takeFlags arithMask eflags (pushf r))
  let sbb (eflags : Dword) :=
    let r := subWithBorrow op1 op2 (eflags.getLsbD 0)
    (r.value, takeFlags arithMask eflags (pushf r))
  match (op &&& 7).toNat with
  | 1 => logic (X86.logic (op1 ||| op2))
  | 4 => logic (X86.logic (op1 &&& op2))
  | 6 => logic (X86.logic (op1 ^^^ op2))
  | 0 => adc (eflags &&& ~~~CF)
  | 2 => adc eflags
  | 5 | 7 => sbb (eflags &&& ~~~CF)
  | 3 => sbb eflags
  | _ => (0, eflags)

def instrBinaryByte (op op1 op2 : Byte) (eflags : Dword) : Byte × Dword := instrBinary op op1 op2 eflags

/-- The operands are taken as `unsigned short`. -/
def instrBinaryWord (op : Byte) (op1 op2 : Dword) (eflags : Dword) : Dword × Dword :=
  let r := instrBinary op (loWord op1) (loWord op2) eflags
  (zext r.1, r.2)

def instrBinaryDword (op : Byte) (op1 op2 : Dword) (eflags : Dword) : Dword × Dword :=
  instrBinary op op1 op2 eflags

/-! ## What they leave -/

theorem takeFlags_bit (mask eflags flags : Dword) (i : Nat) : (takeFlags mask eflags flags).getLsbD i =
    if mask.getLsbD i then flags.getLsbD i else eflags.getLsbD i := by
  rw [takeFlags, BitVec.getLsbD_or, BitVec.getLsbD_and, BitVec.getLsbD_and, BitVec.getLsbD_not]
  by_cases inside : i < 32
  · cases mask.getLsbD i <;> simp [inside]
  · simp [BitVec.getLsbD_of_ge _ i (Nat.not_lt.mp inside)]

theorem pushf_bits {w : Nat} (r : AluResult w) :
    (pushf r).getLsbD 0 = decide (r.carry = .becomes true) ∧ (pushf r).getLsbD 2 = r.parity ∧
    (pushf r).getLsbD 4 = decide (r.adjust = .becomes true) ∧ (pushf r).getLsbD 6 = r.zero ∧
    (pushf r).getLsbD 7 = r.sign ∧ (pushf r).getLsbD 11 = r.overflow := by
  unfold pushf
  generalize decide (r.carry = .becomes true) = c
  generalize decide (r.adjust = .becomes true) = a
  generalize r.parity = p
  generalize r.zero = z
  generalize r.sign = s
  generalize r.overflow = o
  revert c p a z s o
  decide

theorem arithMask_others {i : Nat} (other : i ∉ statusBits) : arithMask.getLsbD i = false := by
  by_cases inside : i < 32
  · have all : ∀ j : Fin 32, j.val ∉ statusBits → arithMask.getLsbD j.val = false := by decide
    exact all ⟨i, inside⟩ other
  · exact BitVec.getLsbD_of_ge _ i (Nat.not_lt.mp inside)

theorem logicMask_others {i : Nat} (other : i ∉ statusBits) : logicMask.getLsbD i = false := by
  by_cases inside : i < 32
  · have all : ∀ j : Fin 32, j.val ∉ statusBits → logicMask.getLsbD j.val = false := by decide
    exact all ⟨i, inside⟩ other
  · exact BitVec.getLsbD_of_ge _ i (Nat.not_lt.mp inside)

/-- Carry is in the mask, so clearing it before makes no difference to the flags after. -/
theorem arith_leaves {w : Nat} {r : AluResult w} {c a : Bool} (carry : r.carry = .becomes c)
    (adjust : r.adjust = .becomes a) {before eflags : Dword}
    (others : ∀ i, i ∉ statusBits → eflags.getLsbD i = before.getLsbD i) :
    r.Leaves before (takeFlags arithMask eflags (pushf r)) := by
  obtain ⟨b0, b2, b4, b6, b7, b11⟩ := pushf_bits r
  have bit : ∀ i ∈ statusBits,
      (takeFlags arithMask eflags (pushf r)).getLsbD i = (pushf r).getLsbD i := by
    have masked : ∀ i ∈ statusBits, arithMask.getLsbD i = true := by decide
    intro i known
    rw [takeFlags_bit, masked i known, if_pos rfl]
  refine ⟨?_, (bit 2 (by decide)).trans b2, ?_, (bit 6 (by decide)).trans b6,
    (bit 7 (by decide)).trans b7, (bit 11 (by decide)).trans b11, ?_⟩
  · rw [carry, bit 0 (by decide), b0, carry]
    cases c <;> rfl
  · rw [adjust, bit 4 (by decide), b4, adjust]
    cases a <;> rfl
  · intro i other
    rw [takeFlags_bit, arithMask_others other, if_neg Bool.false_ne_true]
    exact others i other

theorem logic_leaves {w : Nat} (value : BitVec w) (eflags : Dword) :
    (X86.logic value).Leaves eflags (takeFlags logicMask eflags (pushf (X86.logic value))) := by
  obtain ⟨b0, b2, -, b6, b7, b11⟩ := pushf_bits (X86.logic value)
  have bit : ∀ i ∈ statusBits, i ≠ 4 →
      (takeFlags logicMask eflags (pushf (X86.logic value))).getLsbD i =
        (pushf (X86.logic value)).getLsbD i := by
    have masked : ∀ i ∈ statusBits, i ≠ 4 → logicMask.getLsbD i = true := by decide
    intro i known adjust
    rw [takeFlags_bit, masked i known adjust, if_pos rfl]
  refine ⟨(bit 0 (by decide) (by decide)).trans b0, (bit 2 (by decide) (by decide)).trans b2, trivial,
    (bit 6 (by decide) (by decide)).trans b6, (bit 7 (by decide) (by decide)).trans b7,
    (bit 11 (by decide) (by decide)).trans b11, ?_⟩
  intro i other
  rw [takeFlags_bit, logicMask_others other, if_neg Bool.false_ne_true]

theorem clearCF_bit (eflags : Dword) {i : Nat} (other : i ∉ statusBits) :
    (eflags &&& ~~~CF).getLsbD i = eflags.getLsbD i := by
  have notCF : CF.getLsbD i = false := by
    have first : i ≠ 0 := fun zero => other (zero ▸ by decide)
    rw [show CF = 1#32 from rfl, BitVec.getLsbD_one]
    simp [first]
  rw [BitVec.getLsbD_and, BitVec.getLsbD_not, notCF]
  by_cases inside : i < 32
  · simp [inside]
  · simp [BitVec.getLsbD_of_ge _ i (Nat.not_lt.mp inside)]

theorem clearCF_carry (eflags : Dword) : (eflags &&& ~~~CF).getLsbD 0 = false := by
  rw [BitVec.getLsbD_and, BitVec.getLsbD_not]
  simp [CF]

/-- The functions are the processor's operation with that number, flags and all. -/
theorem instrBinary_run {w : Nat} (op : Byte) (a b : BitVec w) (eflags : Dword) :
    (instrBinary op a b eflags).1 =
        ((AluOp.ofNumber (op.extractLsb' 0 3)).run a b (eflags.getLsbD 0)).value ∧
      ((AluOp.ofNumber (op.extractLsb' 0 3)).run a b (eflags.getLsbD 0)).Leaves eflags
        (instrBinary op a b eflags).2 := by
  have number : ∀ op : Byte, (op &&& 7).toNat = (op.extractLsb' 0 3).toNat := by decide
  have kept : ∀ i, i ∉ statusBits → eflags.getLsbD i = eflags.getLsbD i := fun _ _ => rfl
  have cleared : ∀ i, i ∉ statusBits → (eflags &&& ~~~CF).getLsbD i = eflags.getLsbD i :=
    fun _ => clearCF_bit eflags
  have difference : (subWithBorrow a b ((eflags &&& ~~~CF).getLsbD 0)).value =
        (subWithBorrow a b false).value ∧
      (subWithBorrow a b false).Leaves eflags (takeFlags arithMask (eflags &&& ~~~CF)
        (pushf (subWithBorrow a b ((eflags &&& ~~~CF).getLsbD 0)))) := by
    rw [clearCF_carry]
    exact ⟨rfl, arith_leaves rfl rfl cleared⟩
  have sum : (addWithCarry a b ((eflags &&& ~~~CF).getLsbD 0)).value = (addWithCarry a b false).value ∧
      (addWithCarry a b false).Leaves eflags (takeFlags arithMask (eflags &&& ~~~CF)
        (pushf (addWithCarry a b ((eflags &&& ~~~CF).getLsbD 0)))) := by
    rw [clearCF_carry]
    exact ⟨rfl, arith_leaves rfl rfl cleared⟩
  rw [instrBinary, number, AluOp.ofNumber]
  have bound := (op.extractLsb' 0 3).isLt
  generalize (op.extractLsb' 0 3).toNat = n at bound ⊢
  match n, bound with
  | 0, _ => exact sum
  | 1, _ => exact ⟨rfl, logic_leaves _ eflags⟩
  | 2, _ => exact ⟨rfl, arith_leaves rfl rfl kept⟩
  | 3, _ => exact ⟨rfl, arith_leaves rfl rfl kept⟩
  | 4, _ => exact ⟨rfl, logic_leaves _ eflags⟩
  | 5, _ => exact difference
  | 6, _ => exact ⟨rfl, logic_leaves _ eflags⟩
  | 7, _ => exact difference

end Pmdapi
