import Pmdapi.Library.Alu
import Pmdapi.Library.Processor

/-!
The instructions that write to memory: what they store, how they leave the registers and the flags.
Code and stack are 16 bits wide, but for the bytes that are written.
-/

namespace Pmdapi.X86
open Bytes

inductive Width where
  | byte
  | operand
  deriving DecidableEq, Repr

inductive Source where
  | register
  | immediate
  /-- An immediate byte, extended to the operand. -/
  | signExtended
  | accumulator
  deriving DecidableEq, Repr

inductive Store where
  | alu (op : AluOp) (width : Width) (source : Source)
  | mov (width : Width) (source : Source)
  | pop
  | movs (width : Width)
  | stos (width : Width)
  | inc
  | dec
  deriving DecidableEq, Repr

def Store.width : Store → Width
  | .alu _ width _ | .mov width _ | .movs width | .stos width => width
  | .pop => .operand
  | .inc | .dec => .byte

def Store.immediate : Store → Bool
  | .alu _ _ source | .mov _ source => source = .immediate || source = .signExtended
  | _ => false

/-- A group of opcodes that ModRM divides; CMP stores nothing. -/
def aluGroup (modrm : Byte) (width : Width) (source : Source) : Option Store :=
  if regField modrm = 7 then none
  else some (.alu (AluOp.ofNumber (regField modrm)) width source)

theorem aluGroup_some {modrm : Byte} {width : Width} {source : Source} {store : Store}
    (kind : aluGroup modrm width source = some store) :
    .alu (AluOp.ofNumber (regField modrm)) width source = store := by
  rw [aluGroup] at kind
  split at kind
  · cases kind
  · exact Option.some.inj kind

/-- The stores of the one-byte map, but for exchanges, shifts, NOT, NEG, INC and DEC of an operand,
and moves from segment registers. -/
def storeOf (op : Byte) (modrm : Byte) : Option Store :=
  let first (store : Store) := if regField modrm = 0 then some store else none
  if op ∈ [0x00, 0x08, 0x10, 0x18, 0x20, 0x28, 0x30] then
    some (.alu (AluOp.ofNumber (regField op)) .byte .register)
  else if op ∈ [0x01, 0x09, 0x11, 0x19, 0x21, 0x29, 0x31] then
    some (.alu (AluOp.ofNumber (regField op)) .operand .register)
  else if op = 0x80 || op = 0x82 then aluGroup modrm .byte .immediate
  else if op = 0x81 then aluGroup modrm .operand .immediate
  else if op = 0x83 then aluGroup modrm .operand .signExtended
  else if op = 0x88 then some (.mov .byte .register)
  else if op = 0x89 then some (.mov .operand .register)
  else if op = 0x8f then first .pop
  else if op = 0xa2 then some (.mov .byte .accumulator)
  else if op = 0xa3 then some (.mov .operand .accumulator)
  else if op = 0xa4 then some (.movs .byte)
  else if op = 0xa5 then some (.movs .operand)
  else if op = 0xaa then some (.stos .byte)
  else if op = 0xab then some (.stos .operand)
  else if op = 0xc6 then first (.mov .byte .immediate)
  else if op = 0xc7 then first (.mov .operand .immediate)
  else if op = 0xfe then
    if regField modrm = 1 then some .dec else first .inc
  else none

inductive StoreOpcode (op modrm : Byte) : Store → Prop where
  | aluByte (opcode : op ∈ [0x00, 0x08, 0x10, 0x18, 0x20, 0x28, 0x30]) :
    StoreOpcode op modrm (.alu (AluOp.ofNumber (regField op)) .byte .register)
  | aluOperand (opcode : op ∈ [0x01, 0x09, 0x11, 0x19, 0x21, 0x29, 0x31]) :
    StoreOpcode op modrm (.alu (AluOp.ofNumber (regField op)) .operand .register)
  | groupByte (opcode : op = 0x80 ∨ op = 0x82) :
    StoreOpcode op modrm (.alu (AluOp.ofNumber (regField modrm)) .byte .immediate)
  | group (opcode : op = 0x81) :
    StoreOpcode op modrm (.alu (AluOp.ofNumber (regField modrm)) .operand .immediate)
  | groupSigned (opcode : op = 0x83) :
    StoreOpcode op modrm (.alu (AluOp.ofNumber (regField modrm)) .operand .signExtended)
  | movByte (opcode : op = 0x88) : StoreOpcode op modrm (.mov .byte .register)
  | movOperand (opcode : op = 0x89) : StoreOpcode op modrm (.mov .operand .register)
  | pop (opcode : op = 0x8f) : StoreOpcode op modrm .pop
  | storeByte (opcode : op = 0xa2) : StoreOpcode op modrm (.mov .byte .accumulator)
  | storeOperand (opcode : op = 0xa3) : StoreOpcode op modrm (.mov .operand .accumulator)
  | movsByte (opcode : op = 0xa4) : StoreOpcode op modrm (.movs .byte)
  | movs (opcode : op = 0xa5) : StoreOpcode op modrm (.movs .operand)
  | stosByte (opcode : op = 0xaa) : StoreOpcode op modrm (.stos .byte)
  | stos (opcode : op = 0xab) : StoreOpcode op modrm (.stos .operand)
  | movImmediateByte (opcode : op = 0xc6) : StoreOpcode op modrm (.mov .byte .immediate)
  | movImmediate (opcode : op = 0xc7) : StoreOpcode op modrm (.mov .operand .immediate)
  | dec (opcode : op = 0xfe) (second : regField modrm = 1) : StoreOpcode op modrm .dec
  | inc (opcode : op = 0xfe) (first : regField modrm = 0) : StoreOpcode op modrm .inc

theorem storeOf_opcode {op modrm : Byte} {store : Store} (kind : storeOf op modrm = some store) :
    StoreOpcode op modrm store := by
  unfold storeOf at kind
  rcases ite_eq_iff.mp kind with ⟨opcode, is⟩ | ⟨-, kind⟩
  · obtain rfl := Option.some.inj is
    exact .aluByte opcode
  rcases ite_eq_iff.mp kind with ⟨opcode, is⟩ | ⟨-, kind⟩
  · obtain rfl := Option.some.inj is
    exact .aluOperand opcode
  rcases ite_eq_iff.mp kind with ⟨opcode, is⟩ | ⟨-, kind⟩
  · obtain rfl := aluGroup_some is
    exact .groupByte (by simpa using opcode)
  rcases ite_eq_iff.mp kind with ⟨opcode, is⟩ | ⟨-, kind⟩
  · obtain rfl := aluGroup_some is
    exact .group opcode
  rcases ite_eq_iff.mp kind with ⟨opcode, is⟩ | ⟨-, kind⟩
  · obtain rfl := aluGroup_some is
    exact .groupSigned opcode
  rcases ite_eq_iff.mp kind with ⟨opcode, is⟩ | ⟨-, kind⟩
  · obtain rfl := Option.some.inj is
    exact .movByte opcode
  rcases ite_eq_iff.mp kind with ⟨opcode, is⟩ | ⟨-, kind⟩
  · obtain rfl := Option.some.inj is
    exact .movOperand opcode
  rcases ite_eq_iff.mp kind with ⟨opcode, is⟩ | ⟨-, kind⟩
  · obtain rfl := Option.some.inj (Option.ite_none_right_eq_some.mp is).2
    exact .pop opcode
  rcases ite_eq_iff.mp kind with ⟨opcode, is⟩ | ⟨-, kind⟩
  · obtain rfl := Option.some.inj is
    exact .storeByte opcode
  rcases ite_eq_iff.mp kind with ⟨opcode, is⟩ | ⟨-, kind⟩
  · obtain rfl := Option.some.inj is
    exact .storeOperand opcode
  rcases ite_eq_iff.mp kind with ⟨opcode, is⟩ | ⟨-, kind⟩
  · obtain rfl := Option.some.inj is
    exact .movsByte opcode
  rcases ite_eq_iff.mp kind with ⟨opcode, is⟩ | ⟨-, kind⟩
  · obtain rfl := Option.some.inj is
    exact .movs opcode
  rcases ite_eq_iff.mp kind with ⟨opcode, is⟩ | ⟨-, kind⟩
  · obtain rfl := Option.some.inj is
    exact .stosByte opcode
  rcases ite_eq_iff.mp kind with ⟨opcode, is⟩ | ⟨-, kind⟩
  · obtain rfl := Option.some.inj is
    exact .stos opcode
  rcases ite_eq_iff.mp kind with ⟨opcode, is⟩ | ⟨-, kind⟩
  · obtain rfl := Option.some.inj (Option.ite_none_right_eq_some.mp is).2
    exact .movImmediateByte opcode
  rcases ite_eq_iff.mp kind with ⟨opcode, is⟩ | ⟨-, kind⟩
  · obtain rfl := Option.some.inj (Option.ite_none_right_eq_some.mp is).2
    exact .movImmediate opcode
  rcases ite_eq_iff.mp kind with ⟨opcode, is⟩ | ⟨-, kind⟩
  · rcases ite_eq_iff.mp is with ⟨second, is⟩ | ⟨-, is⟩
    · obtain rfl := Option.some.inj is
      exact .dec opcode second
    · obtain ⟨first, is⟩ := Option.ite_none_right_eq_some.mp is
      obtain rfl := Option.some.inj is
      exact .inc opcode first
  cases kind

theorem StoreOpcode.modrm {op a b : Byte} {store : Store} (kind : StoreOpcode op a store)
    (same : ∀ form, opcodeForm op = some form → form.modrm = true → b = a) : StoreOpcode op b store := by
  have grouped : op ∈ [0x80, 0x82, 0x81, 0x83, 0xfe] → b = a := by
    have known : ∀ op ∈ [0x80, 0x82, 0x81, 0x83, 0xfe],
        ∃ form, opcodeForm op = some form ∧ form.modrm = true := by decide
    intro inside
    obtain ⟨form, defined, withModrm⟩ := known op inside
    exact same form defined withModrm
  cases kind with
  | aluByte opcode => exact .aluByte opcode
  | aluOperand opcode => exact .aluOperand opcode
  | groupByte opcode => exact grouped (by rcases opcode with rfl | rfl <;> decide) ▸ .groupByte opcode
  | group opcode => exact grouped (by simp [opcode]) ▸ .group opcode
  | groupSigned opcode => exact grouped (by simp [opcode]) ▸ .groupSigned opcode
  | movByte opcode => exact .movByte opcode
  | movOperand opcode => exact .movOperand opcode
  | pop opcode => exact .pop opcode
  | storeByte opcode => exact .storeByte opcode
  | storeOperand opcode => exact .storeOperand opcode
  | movsByte opcode => exact .movsByte opcode
  | movs opcode => exact .movs opcode
  | stosByte opcode => exact .stosByte opcode
  | stos opcode => exact .stos opcode
  | movImmediateByte opcode => exact .movImmediateByte opcode
  | movImmediate opcode => exact .movImmediate opcode
  | dec opcode second => exact .dec opcode (grouped (by simp [opcode]) ▸ second)
  | inc opcode first => exact .inc opcode (grouped (by simp [opcode]) ▸ first)

def Width.bits (operand32 : Bool) : Width → Nat
  | .byte => 8
  | .operand => if operand32 then 32 else 16

def Width.bytes (operand32 : Bool) : Width → Nat
  | .byte => 1
  | .operand => operandBytes operand32

/-! ## Executing a store -/

/-- What a store works on: the operand size, the register that ModRM names, the bytes from the
immediate on, and the linear addresses of the memory operand and of a string's source. -/
structure StoreOperands where
  operand32 : Bool
  register : BitVec 3
  immediate : Dword
  address : Dword
  stringSource : Dword

namespace Context

variable (c : Context)

/-- The `n` low bits of a register; AH, CH, DH and BH are the byte registers 4 to 7. -/
def part (width : Width) (r : BitVec 3) (n : Nat) : BitVec n :=
  match width with
  | .byte => if r < 4 then (c.gpr r).setWidth n else (c.gpr (r - 4) >>> 8).setWidth n
  | .operand => (c.gpr r).setWidth n

/-- How far a string index moves, in bytes: down when the direction flag, bit 10, is set. -/
def stride (bytes : Nat) : Word :=
  if c.eflags.getLsbD 10 then -BitVec.ofNat 16 bytes else BitVec.ofNat 16 bytes

def advance (r : BitVec 3) (n : Word) : Context := c.withGpr r (setLow (c.gpr r) (low (c.gpr r) + n))

def source (o : StoreOperands) (width : Width) (n : Nat) : Source → BitVec n
  | .register => c.part width o.register n
  | .immediate => o.immediate.setWidth n
  | .signExtended => (o.immediate.setWidth 8).signExtend n
  | .accumulator => (c.gpr 0).setWidth n

def aluResult (m : Memory) (o : StoreOperands) (op : AluOp) (width : Width) (source : Source) :
    AluResult (width.bits o.operand32) :=
  op.run ((readDword m o.address).setWidth _) (c.source o width _ source) (c.eflags.getLsbD 0)

def stored (m : Memory) (base : Word → Dword) (o : StoreOperands) (store : Store) :
    BitVec (store.width.bits o.operand32) :=
  match store with
  | .alu op width source => (c.aluResult m o op width source).value
  | .mov width source => c.source o width _ source
  | .pop => (c.top m base o.operand32).setWidth _
  | .movs _ => (readDword m o.stringSource).setWidth _
  | .stos _ => (c.gpr 0).setWidth _
  | .inc => (increment ((m o.address) : BitVec 8)).value
  | .dec => (decrement ((m o.address) : BitVec 8)).value

/-- The general registers a store moves, with 16-bit addresses. -/
def afterStore (o : StoreOperands) (store : Store) : Context :=
  let n := c.stride (store.width.bytes o.operand32)
  match store with
  | .pop => c.drop (BitVec.ofNat 16 (operandBytes o.operand32))
  | .movs _ => (c.advance 7 n).advance 6 n
  | .stos _ => c.advance 7 n
  | _ => c

/-- EFLAGS after a store: those without a result in the ALU leave them as they are. -/
def FlagsAfter (m : Memory) (o : StoreOperands) (store : Store) (after : Dword) : Prop :=
  match store with
  | .alu op width source => (c.aluResult m o op width source).Leaves c.eflags after
  | .inc => (increment ((m o.address) : BitVec 8)).Leaves c.eflags after
  | .dec => (decrement ((m o.address) : BitVec 8)).Leaves c.eflags after
  | _ => after = c.eflags

end Context

/-- The operands of an instruction whose memory operand is at `a`, with 16-bit addresses. -/
def Encoding.storeOperands {is32 : Bool} {instr : List Byte} (enc : Encoding is32 instr)
    (base : Word → Dword) (c : Context) (a : Dword) : StoreOperands where
  operand32 := enc.operand32
  register := regField enc.modrm
  immediate := dwordAt enc.operands (modrmLength enc.addr32 enc.modrm enc.sib)
  address := a
  stringSource :=
    base (c.seg ((segmentOverride enc.prefixes).getD .ds)) + (low (c.gpr 6)).setWidth 32

/-! ## The bytes that are written -/

def bytesOf (v : Dword) (n : Nat) : List Byte := (List.range n).map fun i => v.extractLsb' (8 * i) 8

theorem bytesOf_length (v : Dword) (n : Nat) : (bytesOf v n).length = n := by
  rw [bytesOf, List.length_map, List.length_range]

/-- The bytes depend on the low bits alone. -/
theorem bytesOf_low {v : Dword} {k n : Nat} {x : BitVec k} (bits : 8 * n ≤ k) (few : n ≤ 4)
    (low : v.setWidth k = x) : bytesOf v n = bytesOf (x.setWidth 32) n := by
  subst low
  unfold bytesOf
  refine List.map_congr_left fun i inside => BitVec.eq_of_getLsbD_eq fun j small => ?_
  rw [List.mem_range] at inside
  rw [BitVec.getLsbD_extractLsb', BitVec.getLsbD_extractLsb', BitVec.getLsbD_setWidth,
    BitVec.getLsbD_setWidth, decide_eq_true (show 8 * i + j < 32 by omega),
    decide_eq_true (show 8 * i + j < k by omega), Bool.true_and, Bool.true_and]

theorem Width.bits_bytes (width : Width) (operand32 : Bool) :
    width.bits operand32 = 8 * width.bytes operand32 := by
  cases width <;> cases operand32 <;> rfl

theorem Width.bytes_le (width : Width) (operand32 : Bool) : width.bytes operand32 ≤ 4 := by
  cases width <;> cases operand32 <;> decide

def Encoding.sizedOperands {is32 : Bool} {instr : List Byte} (enc : Encoding is32 instr)
    (base : Word → Dword) (c : Context) (a : Dword) : StoreOperands :=
  { enc.storeOperands base c a with
    stringSource := base (c.seg ((segmentOverride enc.prefixes).getD .ds)) +
      if enc.addr32 then c.gpr 6 else (low (c.gpr 6)).setWidth 32 }

def Context.storedSized (c : Context) (m : Memory) (base : Word → Dword) (stack32 : Bool)
    (o : StoreOperands) (store : Store) : BitVec (store.width.bits o.operand32) :=
  match store with
  | .pop =>
    let top := base (c.seg .ss) + if stack32 then c.gpr 4 else (low (c.gpr 4)).setWidth 32
    (readOperand m top o.operand32).setWidth _
  | store => c.stored m base o store

/-- The bytes an instruction puts at `a`. -/
def Encoding.written {is32 : Bool} {instr : List Byte} (enc : Encoding is32 instr) (m : Memory)
    (base : Word → Dword) (stack32 : Bool) (c : Context) (a : Dword) (store : Store) : List Byte :=
  let o := enc.sizedOperands base c a
  bytesOf ((c.storedSized m base stack32 o store).setWidth 32) (store.width.bytes enc.operand32)

end Pmdapi.X86
