import Pmdapi.InstrBinary
import Pmdapi.InstrDec

/-! `instr_dec.c`: the decoder of a faulting store. -/

namespace Pmdapi
open Bytes

/-- `reg8`: 4 to 7 are the second bytes of the first four registers. -/
def reg8 (scp : Sigcontext) (reg : Byte) : Byte :=
  let rg8 (r : Gpr) : Byte := (scp.gpr r >>> ((reg &&& 4) <<< 1).toNat).setWidth 8
  match (reg &&& 3).toNat with
  | 0 => rg8 .eax
  | 1 => rg8 .ecx
  | 2 => rg8 .edx
  | 3 => rg8 .ebx
  | _ => 0xff

def reg (scp : Sigcontext) (reg : Byte) : Dword :=
  match (reg &&& 7).toNat with
  | 0 => scp.gpr .eax
  | 1 => scp.gpr .ecx
  | 2 => scp.gpr .edx
  | 3 => scp.gpr .ebx
  | 4 => scp.esp
  | 5 => scp.gpr .ebp
  | 6 => scp.gpr .esi
  | 7 => scp.gpr .edi
  | _ => 0xffffffff

/-- What the decoder refuses: "LDT: Unimplemented rep" and "Unimplemented memop decode" of an opcode. -/
inductive MemopError where
  | rep
  | opcode (b : Byte)
  deriving DecidableEq, Repr

/-- The return value, `*op`, the registers and the error message. -/
structure Memop where
  ret : Dword
  op : Dword
  scp : Sigcontext
  error : Option MemopError

section

variable (m : Memory) (base : Word → Dword)

/-- The segment of a string source; DS unless a prefix names another. -/
def segBase (scp : Sigcontext) (x86 : X86Ins) : Dword :=
  if x86.es then base scp.es
  else if x86.fs then base scp.fs
  else if x86.gs then base scp.gs
  else if x86.cs then base scp.cs
  else if x86.ss then base scp.ss
  else base scp.ds

/-- `_LWORD(r) += n` or `_r += n`, by the address size. -/
def stringStep (x86 : X86Ins) (n : Dword) (r : Gpr) (scp : Sigcontext) : Sigcontext :=
  if x86.addressSize = 2 then
    { scp with gpr := setGpr scp.gpr r (setLoWord (scp.gpr r) (scp.lword r + loWord n)) }
  else if x86.addressSize = 4 then { scp with gpr := setGpr scp.gpr r (scp.gpr r + n) }
  else scp

/-- What a string move loads: `read` of the source, or `*op` as it was. -/
def stringLoad (x86 : X86Ins) (scp : Sigcontext) (read : Dword → Dword) (op : Dword) : Dword :=
  if x86.addressSize = 2 then read (segBase base scp x86 + zext (scp.lword .esi))
  else if x86.addressSize = 4 then read (segBase base scp x86 + scp.gpr .esi)
  else op

/-- One of the three values by the operand size, with that size, or neither. -/
def bySize (x86 : X86Ins) (op : Dword) (word dword : Dword) : Dword × Dword :=
  if x86.operandSize = 2 then (2, word) else if x86.operandSize = 4 then (4, dword) else (0, op)

/-- `instr_binary_word` or `instr_binary_dword` by the operand size: the size, `*op` and the flags. -/
def binaryBySize (scp : Sigcontext) (x86 : X86Ins) (op : Dword) (code : Byte) (word dword : Dword) :
    Dword × Dword × Dword :=
  if x86.operandSize = 2 then
    (2, instrBinaryWord code (zext (readWord m scp.cr2)) word scp.eflags)
  else if x86.operandSize = 4 then
    (4, instrBinaryDword code (readDword m scp.cr2) dword scp.eflags)
  else (0, op, scp.eflags)

/-- The switch of `decode_memop`: `ret`, `*op` and the registers, or `none` at its default. The
opcode and ModRM are `csp[0]` and `csp[1]`, and the instruction ends at `past`. -/
def memopSwitch (scp : Sigcontext) (x86 : X86Ins) (csp : Nat → Byte) (past : Dword) (op : Dword) :
    Option (Dword × Dword × Sigcontext) :=
  let byte (b : Byte) : Dword := b.setWidth 32
  let signed (b : Byte) : Dword := b.signExtend 32
  let code := csp 1 >>> 3
  let loopInc : Dword := if scp.eflags &&& DF ≠ 0 then -1 else 1
  let flagged (r : Dword × Dword × Dword) := some (r.1, r.2.1, { scp with eflags := r.2.2 })
  let plain (r : Dword × Dword) := some (r.1, r.2, scp)
  match (csp 0).toNat with
  | 0x88 => plain (1, byte (reg8 scp code))
  | 0x89 => plain (x86.operandSize, reg scp code)
  | 0xc6 => plain (1, byte (m (past - 1)))
  | 0xc7 => plain (bySize x86 op (zext (readWord m (past - 2))) (readDword m (past - 4)))
  | 0x80 | 0x82 =>
    let r := instrBinaryByte code (m scp.cr2) (m (past - 1)) scp.eflags
    flagged (1, byte r.1, r.2)
  | 0x81 =>
    flagged (binaryBySize m scp x86 op code (zext (readWord m (past - 2))) (readDword m (past - 4)))
  | 0x83 => flagged (binaryBySize m scp x86 op code (signed (m (past - 1))) (signed (m (past - 1))))
  | 0x8f =>
    let popped := x86Pop m base scp x86
    some (x86.operandSize, popped.1, popped.2)
  | 0xa2 => plain (1, scp.gpr .eax &&& 0xff)
  | 0xa3 => plain (bySize x86 op (scp.gpr .eax &&& 0xffff) (scp.gpr .eax))
  | 0xa4 =>
    some (1, stringLoad base x86 scp (fun a => byte (m a)) op,
      stringStep x86 loopInc .esi (stringStep x86 loopInc .edi scp))
  | 0xa5 =>
    if x86.operandSize = 2 then
      some (2, stringLoad base x86 scp (fun a => zext (readWord m a)) op,
        stringStep x86 (loopInc * 2) .esi (stringStep x86 (loopInc * 2) .edi scp))
    else if x86.operandSize = 4 then
      some (4, stringLoad base x86 scp (readDword m) op,
        stringStep x86 (loopInc * 4) .esi (stringStep x86 (loopInc * 4) .edi scp))
    else some (0, op, scp)
  | 0xaa => some (1, scp.gpr .eax &&& 0xff, stringStep x86 loopInc .edi scp)
  | 0xab =>
    if x86.operandSize = 2 then some (2, zext (scp.lword .eax), stringStep x86 (loopInc * 2) .edi scp)
    else if x86.operandSize = 4 then some (4, scp.gpr .eax, stringStep x86 (loopInc * 4) .edi scp)
    else some (0, op, scp)
  | 0x00 | 0x08 | 0x10 | 0x18 | 0x20 | 0x28 | 0x30 =>
    let r := instrBinaryByte (csp 0 >>> 3) (m scp.cr2) (reg8 scp code) scp.eflags
    flagged (1, byte r.1, r.2)
  | 0x01 | 0x09 | 0x11 | 0x19 | 0x21 | 0x29 | 0x31 =>
    flagged (binaryBySize m scp x86 op (csp 0 >>> 3) (reg scp code) (reg scp code))
  | 0xfe =>
    let old := byte (m scp.cr2)
    plain (1, if csp 1 &&& 0x38 = 0 then old + 1 else if csp 1 &&& 0x38 = 8 then old - 1 else old)
  | _ => none

/-- `decode_memop`. `none` where its assertion fails. -/
def decodeMemop (size32 : Word → Bool) (scp : Sigcontext) (op : Dword) : Option Memop :=
  let bit32 := signedBit (size32 scp.cs)
  let orig := base scp.cs + scp.eip
  let prefixes := x86HandlePrefixes (codeAt m orig) bit32
  let x86 := prefixes.2
  let csp := codeAt m (base scp.cs + (scp.eip + BitVec.ofNat 32 prefixes.1))
  if x86.rep ≠ .none then some ⟨0, op, scp, some .rep⟩
  else
    let instLen := BitVec.ofNat 32 (instrLen (codeAt m orig) bit32)
    match memopSwitch m base scp x86 csp (orig + instLen) op with
    | none => some ⟨0, op, scp, some (.opcode (csp 0))⟩
    | some (ret, op, scp) =>
      if ret = 0 then none else some ⟨ret, op, { scp with eip := scp.eip + instLen }, none⟩

end

end Pmdapi
