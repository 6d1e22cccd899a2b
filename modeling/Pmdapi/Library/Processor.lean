import Pmdapi.Library.InstructionFormat

/-!
The processor's registers, the operands of an instruction in memory, and the instructions that load
segment registers. Stacks are 16 bits wide.
-/

namespace Pmdapi.X86
open Bytes

inductive SegReg where
  | es | cs | ss | ds | fs | gs
  deriving DecidableEq, Repr

def SegReg.ofNumber (n : BitVec 3) : Option SegReg :=
  [SegReg.es, .cs, .ss, .ds, .fs, .gs][n.toNat]?

/-- The registers. General registers are numbered as in ModRM: AX, CX, DX, BX, SP, BP, SI, DI. -/
structure Context where
  gpr : BitVec 3 → Dword
  seg : SegReg → Word
  eip : Dword
  eflags : Dword

def low (d : Dword) : Word := d.setWidth 16

def setLow (d : Dword) (w : Word) : Dword := d.extractLsb' 16 16 ++ w

namespace Context

def withGpr (c : Context) (r : BitVec 3) (v : Dword) : Context :=
  { c with gpr := fun q => if q = r then v else c.gpr q }

def withSeg (c : Context) (r : SegReg) (v : Word) : Context :=
  { c with seg := fun q => if q = r then v else c.seg q }

def skip (c : Context) (length : Nat) : Context := { c with eip := c.eip + BitVec.ofNat 32 length }

def drop (c : Context) (n : Word) : Context := c.withGpr 4 (setLow (c.gpr 4) (low (c.gpr 4) + n))

end Context

def operandBytes (operand32 : Bool) : Nat := if operand32 then 4 else 2

def readOperand (m : Memory) (a : Dword) (operand32 : Bool) : Dword :=
  if operand32 then readDword m a else (readWord m a).setWidth 32

def Context.top (c : Context) (m : Memory) (base : Word → Dword) (operand32 : Bool) : Dword :=
  readOperand m (base (c.seg .ss) + (low (c.gpr 4)).setWidth 32) operand32

/-! ## Operands in memory -/

def segmentPrefix (b : Byte) : Option SegReg :=
  if b = 0x26 then some .es
  else if b = 0x2e then some .cs
  else if b = 0x36 then some .ss
  else if b = 0x3e then some .ds
  else if b = 0x64 then some .fs
  else if b = 0x65 then some .gs
  else none

/-- The segment override; the last prefix counts. -/
def segmentOverride (prefixes : List Byte) : Option SegReg :=
  prefixes.foldl (fun found b => (segmentPrefix b).or found) none

def wordAt (bytes : List Byte) (i : Nat) : Word := bytes.getD (i + 1) 0 ++ bytes.getD i 0

def dwordAt (bytes : List Byte) (i : Nat) : Dword := wordAt bytes (i + 2) ++ wordAt bytes i

/-- The registers a 16-bit address is the sum of. -/
def baseAndIndex (c : Context) (rm : BitVec 3) : Word :=
  let reg (r : BitVec 3) := low (c.gpr r)
  [reg 3 + reg 6, reg 3 + reg 7, reg 5 + reg 6, reg 5 + reg 7, reg 6, reg 7, reg 5, reg 3].getD
    rm.toNat 0

def address16 (c : Context) (operands : List Byte) : Word × SegReg :=
  let modrm := operands.getD 0 0
  let rm := rmField modrm
  if modField modrm = 0 && rm = 6 then (wordAt operands 1, .ds)
  else
    let displacement : Word :=
      if modField modrm = 1 then (operands.getD 1 0).signExtend 16
      else if modField modrm = 2 then wordAt operands 1
      else 0
    (baseAndIndex c rm + displacement, if rm = 2 || rm = 3 || rm = 6 then .ss else .ds)

def address32 (c : Context) (operands : List Byte) : Dword × SegReg :=
  let modrm := operands.getD 0 0
  let sib := operands.getD 1 0
  let next := if hasSib modrm then 2 else 1
  let base := if hasSib modrm then baseField sib else rmField modrm
  let index : Dword :=
    if hasSib modrm && indexField sib ≠ 4 then c.gpr (indexField sib) <<< (scaleField sib).toNat
    else 0
  if modField modrm = 0 && base = 5 then (dwordAt operands next + index, .ds)
  else
    let displacement : Dword :=
      if modField modrm = 1 then (operands.getD next 0).signExtend 32
      else if modField modrm = 2 then dwordAt operands next
      else 0
    (c.gpr base + index + displacement, if base = 4 || base = 5 then .ss else .ds)

namespace Encoding

variable {is32 : Bool} {instr : List Byte} (enc : Encoding is32 instr)

def operandAddress (base : Word → Dword) (c : Context) : Dword :=
  let address := if enc.addr32 then address32 c enc.operands
    else ((address16 c enc.operands).1.setWidth 32, (address16 c enc.operands).2)
  base (c.seg ((segmentOverride enc.prefixes).getD address.2)) + address.1

end Encoding

/-! ## Loading segment registers -/

inductive SegmentLoad where
  | move (target : SegReg)
  | pop (target : SegReg)
  /-- LES and its siblings. -/
  | pointer (target : SegReg)
  | jump
  /-- A far return, with or without a count of bytes to release. -/
  | ret (releases : Bool)
  | iret
  deriving DecidableEq, Repr

def SegmentLoad.target : SegmentLoad → SegReg
  | .move target | .pop target | .pointer target => target
  | .jump | .ret _ | .iret => .cs

/-- A pointer load takes its operand from memory. -/
def SegmentLoad.allows : SegmentLoad → Byte → Bool
  | .pointer _, modrm => modField modrm ≠ 3
  | _, _ => true

/-- The instructions that load a segment register, but for MOV, the far call and the interrupts. -/
def segmentLoads : List (Opcode × SegmentLoad) :=
  [(.oneByte 0x07, .pop .es), (.oneByte 0x17, .pop .ss), (.oneByte 0x1f, .pop .ds),
   (.twoByte 0xa1, .pop .fs), (.twoByte 0xa9, .pop .gs),
   (.oneByte 0xc4, .pointer .es), (.oneByte 0xc5, .pointer .ds),
   (.twoByte 0xb2, .pointer .ss), (.twoByte 0xb4, .pointer .fs), (.twoByte 0xb5, .pointer .gs),
   (.oneByte 0xea, .jump), (.oneByte 0xca, .ret true), (.oneByte 0xcb, .ret false),
   (.oneByte 0xcf, .iret)]

def SegmentLoad.form : SegmentLoad → OpcodeForm
  | .move _ | .pointer _ => ⟨true, .none⟩
  | .jump => ⟨false, .farPointer⟩
  | .ret true => ⟨false, .word⟩
  | _ => ⟨false, .none⟩

/-- The segment load an instruction is. MOV names its target in ModRM. -/
def segmentLoad (opcode : Opcode) (modrm : Byte) : Option SegmentLoad :=
  if opcode = .oneByte 0x8e then (SegReg.ofNumber (regField modrm)).map .move
  else (segmentLoads.lookup opcode).filter (·.allows modrm)

theorem segmentLoad_some {opcode : Opcode} {modrm : Byte} {load : SegmentLoad}
    (kind : segmentLoad opcode modrm = some load) :
    (opcode = .oneByte 0x8e ∧ ∃ r, SegReg.ofNumber (regField modrm) = some r ∧ load = .move r) ∨
      (opcode, load) ∈ segmentLoads := by
  unfold segmentLoad at kind
  split at kind
  next move =>
    obtain ⟨r, number, rfl⟩ := Option.map_eq_some_iff.mp kind
    exact Or.inl ⟨move, r, number, rfl⟩
  next =>
    have found := (Option.filter_eq_some_iff.mp kind).1
    obtain ⟨before, after, split, -⟩ := List.lookup_eq_some_iff.mp found
    right
    rw [split]
    exact List.mem_append_right _ List.mem_cons_self

theorem segmentLoad_form {opcode : Opcode} {modrm : Byte} {load : SegmentLoad}
    (kind : segmentLoad opcode modrm = some load) : opcode.form = some load.form := by
  have table : ∀ row ∈ segmentLoads, row.1.form = some row.2.form := by decide
  rcases segmentLoad_some kind with ⟨rfl, r, -, rfl⟩ | known
  · rfl
  · exact table _ known

namespace Encoding

variable {is32 : Bool} {instr : List Byte} (enc : Encoding is32 instr)

theorem load_operands {load : SegmentLoad} (kind : segmentLoad enc.opcode enc.modrm = some load) :
    enc.operands.length = load.form.length enc.operand32 enc.addr32 enc.modrm enc.sib := by
  have form : enc.form = load.form :=
    Option.some.inj (enc.defined.symm.trans (segmentLoad_form kind))
  rw [← form]
  exact enc.complete

theorem load_length {load : SegmentLoad} (kind : segmentLoad enc.opcode enc.modrm = some load) :
    instr.length = enc.prefixes.length + enc.opcode.bytes.length +
      load.form.length enc.operand32 enc.addr32 enc.modrm enc.sib := by
  have split := congrArg List.length enc.split
  rw [List.length_append, List.length_append, enc.load_operands kind] at split
  omega

def pointerOffset (m : Memory) (base : Word → Dword) (c : Context) : Dword :=
  let a := enc.operandAddress base c
  if enc.operand32 then readDword m a else setLow (c.gpr (regField enc.modrm)) (readWord m a)

def farOffset : Dword :=
  if enc.operand32 then dwordAt enc.operands 0 else (wordAt enc.operands 0).setWidth 32

/-- The registers after a segment load whose selector is `selector`, whatever the operand says. What
IRET leaves of the flags depends on the privilege and is left out. -/
def load (m : Memory) (base : Word → Dword) (selector : Word) (c : Context) (kind : SegmentLoad) :
    Context :=
  let size : Word := BitVec.ofNat 16 (operandBytes enc.operand32)
  let loaded := c.withSeg kind.target selector
  match kind with
  | .move _ => loaded.skip instr.length
  | .pop _ => (loaded.drop size).skip instr.length
  | .pointer _ => (loaded.withGpr (regField enc.modrm) (enc.pointerOffset m base c)).skip instr.length
  | .jump => { loaded with eip := enc.farOffset }
  | .ret releases =>
    let released := if releases then wordAt enc.operands 0 else 0
    { loaded.drop (size + size + released) with eip := c.top m base enc.operand32 }
  | .iret => { loaded.drop (size + size + size) with eip := c.top m base enc.operand32 }

end Encoding

end Pmdapi.X86
