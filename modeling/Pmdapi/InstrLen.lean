import Pmdapi.Library.InstructionFormat

/-! `instremu.c`: the length of an instruction from a table of opcode classes. -/

namespace Pmdapi
open Bytes

def itTable : List Nat :=
  [7, 7, 7, 7, 2, 3, 1, 1,    7, 7, 7, 7, 2, 3, 1, 0,
   7, 7, 7, 7, 2, 3, 1, 1,    7, 7, 7, 7, 2, 3, 1, 1,
   7, 7, 7, 7, 2, 3, 0, 1,    7, 7, 7, 7, 2, 3, 0, 1,
   7, 7, 7, 7, 2, 3, 0, 1,    7, 7, 7, 7, 2, 3, 0, 1,
   1, 1, 1, 1, 1, 1, 1, 1,    1, 1, 1, 1, 1, 1, 1, 1,
   1, 1, 1, 1, 1, 1, 1, 1,    1, 1, 1, 1, 1, 1, 1, 1,
   1, 1, 7, 7, 0, 0, 0, 0,    3, 9, 2, 8, 1, 1, 1, 1,
   2, 2, 2, 2, 2, 2, 2, 2,    2, 2, 2, 2, 2, 2, 2, 2,
   8, 9, 8, 8, 7, 7, 7, 7,    7, 7, 7, 7, 7, 7, 7, 7,
   1, 1, 1, 1, 1, 1, 1, 1,    1, 1, 6, 1, 1, 1, 1, 1,
   4, 4, 4, 4, 1, 1, 1, 1,    2, 3, 1, 1, 1, 1, 1, 1,
   2, 2, 2, 2, 2, 2, 2, 2,    3, 3, 3, 3, 3, 3, 3, 3,
   8, 8, 3, 1, 7, 7, 8, 9,    5, 1, 3, 1, 1, 2, 1, 1,
   7, 7, 7, 7, 2, 2, 1, 1,    0, 0, 0, 0, 0, 0, 0, 0,
   2, 2, 2, 2, 2, 2, 2, 2,    4, 4, 6, 2, 1, 1, 1, 1,
   0, 1, 0, 0, 1, 1, 7, 7,    1, 1, 1, 1, 1, 1, 7, 7]

def it (op : Byte) : Nat := itTable.getD op.toNat 0

/-- `arg_len`: ModRM with SIB and displacement, from the ModRM byte alone. -/
def argLen (modrm : Byte) (asp : Bool) : Nat :=
  let m := modrm &&& 0xc7
  if asp then
    if m = 5 then 5
    else
      let s := if m >>> 6 < 3 && m &&& 7 = 4 then 1 else 0
      (if m >>> 6 = 1 then 2 else if m >>> 6 = 2 then 5 else 1) + s
  else if m = 6 then 3
  else if m >>> 6 = 1 then 2
  else if m >>> 6 = 2 then 3
  else 1

structure PrefixScan where
  read : Nat
  osp : Dword
  asp : Dword
  deriving DecidableEq, Repr

/-- The prefix loop, at most `fuel` bytes more. The byte that ends it is read too. -/
def scanPrefixes (p : Nat → Byte) : Nat → PrefixScan → PrefixScan
  | 0, scan => scan
  | fuel + 1, scan =>
    let b := p scan.read
    let next := { scan with read := scan.read + 1 }
    if b = 0x26 || b = 0x2e || b = 0x36 || b = 0x3e || b = 0x64 || b = 0x65 then
      scanPrefixes p fuel next
    else if b = 0x66 then scanPrefixes p fuel { next with osp := scan.osp ^^^ 1 }
    else if b = 0x67 then scanPrefixes p fuel { next with asp := scan.asp ^^^ 1 }
    else if b = 0xf0 || b = 0xf2 || b = 0xf3 then scanPrefixes p fuel next
    else next

/-- What the class of the opcode adds, or `none` where `instr_len` gives up. -/
def classLen (cls : Nat) (modrm : Byte) (osp asp : Bool) : Option Nat :=
  match cls with
  | 1 => some 1
  | 2 => some 2
  | 3 => some (if osp then 5 else 3)
  | 4 => some (if asp then 5 else 3)
  | 5 => some (if osp then 6 else 4)
  | 6 => some (if asp then 7 else 5)
  | 7 => if argLen modrm asp = 0 then none else some (1 + argLen modrm asp)
  | 8 => if argLen modrm asp = 0 then none else some (1 + argLen modrm asp + 1)
  | 9 => if argLen modrm asp = 0 then none else some (1 + argLen modrm asp + if osp then 4 else 2)
  | _ => none

/-- `instr_len` of the bytes at `p`. Two bytes of opcode are reported as an error. -/
def instrLen (p : Nat → Byte) (is32 : Dword) : Nat :=
  let scan := scanPrefixes p 17 ⟨0, is32, is32⟩
  let opcode := scan.read - 1
  if opcode ≥ 16 then 0
  else if p opcode = 0x0f then 0
  else
    match classLen (it (p opcode)) (p (opcode + 1)) (scan.osp ≠ 0) (scan.asp ≠ 0) with
    | some n => opcode + n
    | none => 0

/-! ## What the scan finds -/

def sizeBit (b : Bool) : Dword := if b then 1 else 0

theorem sizeBit_ne_zero (b : Bool) : decide (sizeBit b ≠ 0) = b := by
  cases b <;> decide

@[simp] theorem sizeBit_xor (b : Bool) : sizeBit b ^^^ 1#32 = sizeBit (!b) := by
  cases b <;> decide

/-- The size attribute as the code counts it: every prefix toggles it again. -/
def countedSize (is32 : Bool) (toggle : Byte) (prefixes : List Byte) : Bool :=
  is32 ^^ decide (prefixes.count toggle % 2 = 1)

/-- Written at most once, a prefix does what the processor takes it for. -/
theorem countedSize_eq (is32 : Bool) {toggle : Byte} {prefixes : List Byte}
    (once : prefixes.count toggle ≤ 1) :
    countedSize is32 toggle prefixes = X86.sizeAttribute is32 toggle prefixes := by
  rw [countedSize, X86.sizeAttribute]
  congr 1
  apply decide_eq_decide.mpr
  rw [← List.count_pos_iff]
  omega

end Pmdapi
