import Pmdapi.InstrLen
import Pmdapi.Cpu

/-! `instr_dec.c`: prefixes, stack pops, and the decoder of segment register loads. -/

namespace Pmdapi
open Bytes

inductive Rep where
  | none | z | nz
  deriving DecidableEq, Repr

structure X86Ins where
  bit32 : Dword
  addressSize : Dword
  operandSize : Dword
  rep : Rep
  ds : Bool
  es : Bool
  fs : Bool
  gs : Bool
  cs : Bool
  ss : Bool
  deriving DecidableEq, Repr

/-- Assignment to `int _32bit:1`: the field is signed, so 1 is read back as -1. -/
def signedBit (b : Bool) : Dword := if b then 0xffffffff else 0

def wordmask (i : Dword) : Dword := [0, 0xff, 0xffff, 0xffffff, 0xffffffff].getD i.toNat 0

def codeAt (m : Memory) (a : Dword) : Nat → Byte := fun i => m (a + BitVec.ofNat 32 i)

def X86Ins.start (bit32 : Dword) : X86Ins where
  bit32 := bit32
  addressSize := (bit32 + 1) * 2
  operandSize := (bit32 + 1) * 2
  rep := .none
  ds := false
  es := false
  fs := false
  gs := false
  cs := false
  ss := false

/-- One pass of the loop of `x86_handle_prefixes`; `none` at the first byte that is no prefix. -/
def X86Ins.handle (x86 : X86Ins) (b : Byte) : Option X86Ins :=
  if b = 0x26 then some { x86 with es := true }
  else if b = 0x2e then some { x86 with cs := true }
  else if b = 0x36 then some { x86 with ss := true }
  else if b = 0x3e then some { x86 with ds := true }
  else if b = 0x64 then some { x86 with fs := true }
  else if b = 0x65 then some { x86 with gs := true }
  else if b = 0x66 then some { x86 with operandSize := 6 - x86.operandSize }
  else if b = 0x67 then some { x86 with addressSize := 6 - x86.addressSize }
  else if b = 0xf2 then some { x86 with rep := .nz }
  else if b = 0xf3 then some { x86 with rep := .z }
  else none

/-- The loop from byte `n` on. It has no bound of its own. -/
def handleFrom (p : Nat → Byte) : Nat → Nat → X86Ins → Nat × X86Ins
  | 0, n, x86 => (n, x86)
  | fuel + 1, n, x86 =>
    match x86.handle (p n) with
    | some next => handleFrom p fuel (n + 1) next
    | none => (n, x86)

/-- `x86_handle_prefixes` of the bytes at `p`. A memory of prefixes alone is taken once round. -/
def x86HandlePrefixes (p : Nat → Byte) (bit32 : Dword) : Nat × X86Ins :=
  handleFrom p (2 ^ 32) 0 (.start bit32)

section

variable (m : Memory) (base : Word → Dword)

def x86Pop (scp : Sigcontext) (x86 : X86Ins) : Dword × Sigcontext :=
  let mem := base scp.ss + (scp.esp &&& wordmask ((x86.bit32 + 1) * 2))
  let esp :=
    if x86.bit32 ≠ 0 then scp.esp + x86.operandSize
    else setLoWord scp.esp (loWord scp.esp + loWord x86.operandSize)
  (if x86.operandSize = 4 then readDword m mem else zext (readWord m mem), { scp with esp := esp })

def getEflags (flags : Dword) : Dword :=
  (if flags &&& IF ≠ 0 then flags ||| VIF else flags &&& ~~~VIF) ||| IF ||| 0x3000

def sregIdx (reg : Byte) : Nat := (reg &&& 7).toNat

/-- The switch of `decode_segreg` on the opcode at `cs + eip`. The answer is the index of the segment
register, or `none` for -1; `len` is `instr_len`. -/
def decodeSegregAt (scp : Sigcontext) (x86 : X86Ins) (cs eip : Dword) (len : Nat) :
    Option Nat × Sigcontext :=
  let csp := codeAt m (cs + eip)
  let past := { scp with eip := scp.eip + BitVec.ofNat 32 len }
  if csp 0 = 0x8e then (some (sregIdx (csp 1 >>> 3)), past)
  else if csp 0 = 0xca || csp 0 = 0xcb || csp 0 = 0xcf then
    let tmpEip := x86Pop m base scp x86
    let scp := (x86Pop m base tmpEip.2 x86).2
    let scp :=
      if csp 0 = 0xca then { scp with esp := scp.esp + zext (readWord m (cs + eip + 1)) }
      else if csp 0 = 0xcf then
        let flags := x86Pop m base scp x86
        { flags.2 with eflags := getEflags flags.1 }
      else scp
    (some 1, { scp with eip := tmpEip.1 })
  else if csp 0 = 0xea then
    let tmpEip :=
      if x86.operandSize = 4 then readDword m (cs + eip + 1) else zext (readWord m (cs + eip + 1))
    (some 1, { scp with eip := tmpEip })
  else if csp 0 = 0xc4 then (some 0, past)
  else if csp 0 = 0xc5 then (some 3, past)
  else if csp 0 = 0x07 || csp 0 = 0x17 || csp 0 = 0x1f then
    (some (sregIdx (csp 0 >>> 3)), { (x86Pop m base scp x86).2 with eip := eip + 1 })
  else if csp 0 = 0x0f then
    if csp 1 = 0xa1 || csp 1 = 0xa9 then
      (some (sregIdx (csp 1 >>> 3)), { (x86Pop m base scp x86).2 with eip := eip + 1 + 1 })
    else if csp 1 = 0xb2 then (some 2, past)
    else if csp 1 = 0xb4 then (some 4, past)
    else if csp 1 = 0xb5 then (some 5, past)
    else (none, scp)
  else (none, scp)

/-- `decode_segreg`; `size32` is `dpmi_mhp_get_selector_size`. -/
def decodeSegreg (size32 : Word → Bool) (scp : Sigcontext) : Option Nat × Sigcontext :=
  let bit32 := signedBit (size32 scp.cs)
  let cs := base scp.cs
  let orig := codeAt m (cs + scp.eip)
  let prefixes := x86HandlePrefixes orig bit32
  decodeSegregAt m base scp prefixes.2 cs (scp.eip + BitVec.ofNat 32 prefixes.1) (instrLen orig bit32)

end

end Pmdapi
