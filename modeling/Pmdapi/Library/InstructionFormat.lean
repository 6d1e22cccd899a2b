import Pmdapi.Library.Bytes

/-!
The format of x86 instructions in 16-bit and 32-bit code: legacy prefixes, one opcode byte, ModRM with
SIB and displacement, and the immediate. The one-byte opcode map, without the coprocessor's escapes.
-/

namespace Pmdapi.X86
open Bytes

inductive Immediate where
  | none
  | byte
  | word
  | operand
  | wordAndByte
  | address
  | farPointer
  | testByte
  | testOperand
  deriving DecidableEq, Repr

structure OpcodeForm where
  modrm : Bool
  immediate : Immediate
  deriving DecidableEq, Repr

/-- The bytes that change an instruction and are none. -/
def legacyPrefixes : List Byte := [0x26, 0x2e, 0x36, 0x3e, 0x64, 0x65, 0x66, 0x67, 0xf0, 0xf2, 0xf3]

/-- The ALU operations fill the first quarter of the map with one pattern. -/
def aluForm (op : Byte) : OpcodeForm :=
  if op &&& 7 ≤ 3 then ⟨true, .none⟩
  else if op &&& 7 = 4 then ⟨false, .byte⟩
  else if op &&& 7 = 5 then ⟨false, .operand⟩
  else ⟨false, .none⟩

/-- The one-byte opcode map. Prefixes, escapes and the undefined opcode have no form. -/
def opcodeForm (op : Byte) : Option OpcodeForm :=
  if op ∈ legacyPrefixes || op = 0x0f || op = 0xd6 || (0xd8 ≤ op && op ≤ 0xdf) then none
  else if op < 0x40 then some (aluForm op)
  else if op = 0x62 || op = 0x63 || (0x84 ≤ op && op ≤ 0x8f) || op = 0xc4 || op = 0xc5 ||
      (0xd0 ≤ op && op ≤ 0xd3) || op = 0xfe || op = 0xff then some ⟨true, .none⟩
  else if op = 0x6b || op = 0x80 || op = 0x82 || op = 0x83 || op = 0xc0 || op = 0xc1 ||
      op = 0xc6 then some ⟨true, .byte⟩
  else if op = 0x69 || op = 0x81 || op = 0xc7 then some ⟨true, .operand⟩
  else if op = 0xf6 then some ⟨true, .testByte⟩
  else if op = 0xf7 then some ⟨true, .testOperand⟩
  else if op = 0x6a || (0x70 ≤ op && op ≤ 0x7f) || op = 0xa8 || (0xb0 ≤ op && op ≤ 0xb7) ||
      op = 0xcd || op = 0xd4 || op = 0xd5 || (0xe0 ≤ op && op ≤ 0xe7) || op = 0xeb then
    some ⟨false, .byte⟩
  else if op = 0x68 || op = 0xa9 || (0xb8 ≤ op && op ≤ 0xbf) || op = 0xe8 || op = 0xe9 then
    some ⟨false, .operand⟩
  else if op = 0xc2 || op = 0xca then some ⟨false, .word⟩
  else if op = 0xc8 then some ⟨false, .wordAndByte⟩
  else if 0xa0 ≤ op && op ≤ 0xa3 then some ⟨false, .address⟩
  else if op = 0x9a || op = 0xea then some ⟨false, .farPointer⟩
  else some ⟨false, .none⟩

/-- The opcodes of the map behind 0Fh that push, pop or load a segment register. -/
def twoByteForm (op : Byte) : Option OpcodeForm :=
  if op = 0xa0 || op = 0xa1 || op = 0xa8 || op = 0xa9 then some ⟨false, .none⟩
  else if op = 0xb2 || op = 0xb4 || op = 0xb5 then some ⟨true, .none⟩
  else none

inductive Opcode where
  | oneByte (op : Byte)
  | twoByte (op : Byte)
  deriving DecidableEq, Repr

def Opcode.bytes : Opcode → List Byte
  | .oneByte op => [op]
  | .twoByte op => [0x0f, op]

def Opcode.form : Opcode → Option OpcodeForm
  | .oneByte op => opcodeForm op
  | .twoByte op => twoByteForm op

/-! ## Fields of ModRM and SIB -/

def modField (modrm : Byte) : BitVec 2 := modrm.extractLsb' 6 2

def regField (modrm : Byte) : BitVec 3 := modrm.extractLsb' 3 3

def rmField (modrm : Byte) : BitVec 3 := modrm.extractLsb' 0 3

def scaleField (sib : Byte) : BitVec 2 := sib.extractLsb' 6 2

def indexField (sib : Byte) : BitVec 3 := sib.extractLsb' 3 3

def baseField (sib : Byte) : BitVec 3 := sib.extractLsb' 0 3

/-- With 32-bit addresses, r/m = 4 of a memory operand announces a SIB byte. -/
def hasSib (modrm : Byte) : Bool := modField modrm ≠ 3 && rmField modrm = 4

def displacementLength (addr32 : Bool) (modrm sib : Byte) : Nat :=
  let wide := if addr32 then 4 else 2
  if modField modrm = 0 then
    if addr32 then
      if rmField modrm = 5 || (hasSib modrm && baseField sib = 5) then wide else 0
    else if rmField modrm = 6 then wide else 0
  else if modField modrm = 1 then 1
  else if modField modrm = 2 then wide
  else 0

/-- Bytes of ModRM, SIB and displacement. `sib` is the byte after ModRM, whatever it is. -/
def modrmLength (addr32 : Bool) (modrm sib : Byte) : Nat :=
  1 + (if addr32 && hasSib modrm then 1 else 0) + displacementLength addr32 modrm sib

def Immediate.length (operand32 addr32 : Bool) (modrm : Byte) : Immediate → Nat
  | .none => 0
  | .byte => 1
  | .word => 2
  | .operand => if operand32 then 4 else 2
  | .wordAndByte => 3
  | .address => if addr32 then 4 else 2
  | .farPointer => if operand32 then 6 else 4
  | .testByte => if regField modrm ≤ 1 then 1 else 0
  | .testOperand => if regField modrm ≤ 1 then if operand32 then 4 else 2 else 0

/-- Bytes after the opcode; `b` and `c` are the first two. -/
def OpcodeForm.length (form : OpcodeForm) (operand32 addr32 : Bool) (b c : Byte) : Nat :=
  (if form.modrm then modrmLength addr32 b c else 0) + form.immediate.length operand32 addr32 b

def Begins (p : Nat → Byte) (bytes : List Byte) : Prop :=
  ∀ i < bytes.length, p i = bytes.getD i 0

instance (p : Nat → Byte) (bytes : List Byte) : Decidable (Begins p bytes) :=
  inferInstanceAs (Decidable (∀ i < bytes.length, p i = bytes.getD i 0))

theorem Begins.left {p : Nat → Byte} {front back : List Byte} (begins : Begins p (front ++ back)) :
    Begins p front := by
  intro i inside
  rw [begins i (by rw [List.length_append]; omega), List.getD_append _ _ _ _ inside]

theorem Begins.right {p : Nat → Byte} {front back : List Byte} (begins : Begins p (front ++ back)) :
    Begins (fun i => p (front.length + i)) back := by
  intro i inside
  show p (front.length + i) = _
  rw [begins _ (by rw [List.length_append]; omega),
    List.getD_append_right _ _ _ _ (Nat.le_add_right _ _), Nat.add_sub_cancel_left]

theorem Begins.head {p : Nat → Byte} {b : Byte} {rest : List Byte} (begins : Begins p (b :: rest)) :
    p 0 = b :=
  begins 0 (Nat.zero_lt_succ _)

theorem Begins.tail {p : Nat → Byte} {b : Byte} {rest : List Byte} (begins : Begins p (b :: rest)) :
    Begins (fun i => p (i + 1)) rest :=
  fun i inside => begins (i + 1) (Nat.succ_lt_succ inside)

/-- A size attribute is toggled by its prefix, however often it is written. -/
def sizeAttribute (is32 : Bool) (toggle : Byte) (prefixes : List Byte) : Bool :=
  is32 ^^ decide (toggle ∈ prefixes)

/-- A complete instruction, taken apart. -/
structure Encoding (is32 : Bool) (instr : List Byte) where
  prefixes : List Byte
  opcode : Opcode
  operands : List Byte
  form : OpcodeForm
  split : instr = prefixes ++ (opcode.bytes ++ operands)
  legacy : ∀ b ∈ prefixes, b ∈ legacyPrefixes
  defined : opcode.form = some form
  complete : operands.length = form.length (sizeAttribute is32 0x66 prefixes)
    (sizeAttribute is32 0x67 prefixes) (operands.getD 0 0) (operands.getD 1 0)

theorem noPrefix_legacy : ∀ b ∈ ([] : List Byte), b ∈ legacyPrefixes := List.forall_mem_nil _

theorem operandPrefix_legacy : ∀ b ∈ [(0x66 : Byte)], b ∈ legacyPrefixes := by decide

theorem modrm_complete : [(0x07 : Byte)].length = OpcodeForm.length ⟨true, .none⟩
    (sizeAttribute false 0x66 []) (sizeAttribute false 0x67 []) ([(0x07 : Byte)].getD 0 0)
    ([(0x07 : Byte)].getD 1 0) := by decide

namespace Encoding

variable {is32 : Bool} {instr : List Byte} (enc : Encoding is32 instr)

def operand32 : Bool := sizeAttribute is32 0x66 enc.prefixes

def addr32 : Bool := sizeAttribute is32 0x67 enc.prefixes

def modrm : Byte := enc.operands.getD 0 0

def sib : Byte := enc.operands.getD 1 0

theorem length_eq : instr.length = enc.prefixes.length + enc.opcode.bytes.length +
    enc.form.length enc.operand32 enc.addr32 enc.modrm enc.sib := by
  have complete : enc.operands.length =
      enc.form.length enc.operand32 enc.addr32 enc.modrm enc.sib := enc.complete
  have split := congrArg List.length enc.split
  rw [List.length_append, List.length_append] at split
  omega

end Encoding

end Pmdapi.X86
