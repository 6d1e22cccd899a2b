import Pmdapi.Library.Bytes

/-! The processor's registers as the translator sees them: the client's `sigcontext`, the real-mode
register structure and the register masks that say which of its fields are already set. -/

namespace Pmdapi
open Bytes

structure Far where
  offset : Word
  segment : Word
  deriving DecidableEq, Repr, Inhabited

structure Pmaddr where
  offset : Dword
  selector : Word
  deriving DecidableEq, Repr, Inhabited

inductive Gpr where
  | eax | ebx | ecx | edx | esi | edi | ebp
  deriving DecidableEq, Repr

inductive RegIndex where
  | es | cs | ss | ds | fs | gs
  | gpr (r : Gpr)
  | esp | eip | eflags
  deriving DecidableEq, Repr

def Gpr.index : Gpr → Nat
  | .eax => 6
  | .ebx => 7
  | .ecx => 8
  | .edx => 9
  | .esi => 10
  | .edi => 11
  | .ebp => 12

def RegIndex.index : RegIndex → Nat
  | .es => 0
  | .cs => 1
  | .ss => 2
  | .ds => 3
  | .fs => 4
  | .gs => 5
  | .gpr r => r.index
  | .esp => 13
  | .eip => 14
  | .eflags => 15

theorem RegIndex.index_lt (i : RegIndex) : i.index < 32 := by
  cases i with
  | gpr r => cases r <;> decide
  | _ => decide

theorem RegIndex.index_injective : Function.Injective RegIndex.index := by
  intro i j same
  cases i <;> cases j <;>
    first
    | rfl
    | (rename_i a b; cases a <;> cases b <;> first | rfl | cases same)
    | (rename_i a; cases a <;> cases same)
    | cases same

abbrev RegMask := BitVec 32

def regBit (i : RegIndex) : RegMask := 1#32 <<< i.index

def maskHas (m : RegMask) (i : RegIndex) : Bool := m.getLsbD i.index

theorem maskHas_regBit (i j : RegIndex) : maskHas (regBit i) j = decide (i = j) := by
  have hi := i.index_lt
  have hj := j.index_lt
  simp only [maskHas, regBit, BitVec.getLsbD_shiftLeft, BitVec.getLsbD_one]
  by_cases same : i = j
  · subst same
    simp [hi]
  · have different : i.index ≠ j.index := fun h => same (RegIndex.index_injective h)
    simp only [same, decide_false]
    by_cases below : j.index < i.index
    · simp [below]
    · have : j.index - i.index ≠ 0 := by omega
      simp [below, this]

@[simp] theorem maskHas_or_regBit (m : RegMask) (i j : RegIndex) :
    maskHas (m ||| regBit i) j = (maskHas m j || decide (i = j)) := by
  rw [← maskHas_regBit]
  exact BitVec.getLsbD_or

@[simp] theorem maskHas_and_not_regBit (m : RegMask) (i j : RegIndex) :
    maskHas (m &&& ~~~regBit i) j = (maskHas m j && !decide (i = j)) := by
  rw [← maskHas_regBit]
  have hj := j.index_lt
  simp [maskHas, hj]

@[simp] theorem maskHas_not (m : RegMask) (i : RegIndex) : maskHas (~~~m) i = !maskHas m i := by
  have hi := i.index_lt
  simp [maskHas, hi]

@[simp] theorem maskHas_zero (i : RegIndex) : maskHas 0 i = false := by
  simp [maskHas]

/-! ## Parts of registers -/

/-- `_LWORD`, and the conversion of a 32-bit value to a 16-bit lvalue. -/
def loWord (d : Dword) : Word := d.setWidth 16

def zext (w : Word) : Dword := w.setWidth 32

def setLoWord (d : Dword) (w : Word) : Dword := d.extractLsb' 16 16 ++ w

def loByte (w : Word) : Byte := w.setWidth 8

def hiByte (w : Word) : Byte := w.extractLsb' 8 8

@[simp] theorem loWord_zext (w : Word) : loWord (zext w) = w := by
  simp [loWord, zext]

@[simp] theorem loWord_setLoWord (d : Dword) (w : Word) : loWord (setLoWord d w) = w :=
  BitVec.setWidth_append_eq_right

theorem setLoWord_setLoWord (d : Dword) (v w : Word) : setLoWord (setLoWord d v) w = setLoWord d w := by
  apply BitVec.eq_of_getLsbD_eq
  intro i inside
  simp only [setLoWord, BitVec.getLsbD_append, BitVec.getLsbD_extractLsb']
  split
  · rfl
  next upper =>
    have above : ¬ (16 + (i - 16) < 16) := by omega
    have place : 16 + (16 + (i - 16) - 16) = 16 + (i - 16) := by omega
    simp only [above, if_false, place]
    by_cases bit : i - 16 < 16 <;> simp [bit]

theorem loWord_sub (a b : Dword) : loWord (a - b) = loWord a - loWord b := by
  unfold loWord
  rw [BitVec.sub_eq_add_neg, BitVec.setWidth_add _ _ (by decide), BitVec.setWidth_neg_of_le (by decide),
    BitVec.sub_eq_add_neg]

theorem toNat_setLoWord (d : Dword) (w : Word) :
    (setLoWord d w).toNat = 2 ^ 16 * (d.toNat / 2 ^ 16) + w.toNat := by
  have bound := d.isLt
  have upper : (d.extractLsb' 16 16).toNat = d.toNat / 2 ^ 16 := by
    rw [BitVec.extractLsb'_toNat, Nat.shiftRight_eq_div_pow]
    exact Nat.mod_eq_of_lt (by omega)
  rw [setLoWord, BitVec.toNat_append, upper, ← Nat.shiftLeft_add_eq_or_of_lt w.isLt,
    Nat.shiftLeft_eq, Nat.mul_comm]

@[simp] theorem setLoWord_loWord (d : Dword) : setLoWord d (loWord d) = d := by
  apply BitVec.eq_of_getLsbD_eq
  intro i inside
  simp only [setLoWord, loWord, BitVec.getLsbD_append, BitVec.getLsbD_extractLsb', BitVec.getLsbD_setWidth]
  split
  next lower => simp [lower]
  next upper =>
    have above : i - 16 < 16 := by omega
    have place : 16 + (i - 16) = i := by omega
    simp [above, place]

def setGpr (f : Gpr → Dword) (r : Gpr) (v : Dword) : Gpr → Dword :=
  fun q => if q = r then v else f q

@[simp] theorem setGpr_self (f : Gpr → Dword) (r : Gpr) (v : Dword) : setGpr f r v r = v :=
  if_pos rfl

theorem setGpr_of_ne (f : Gpr → Dword) {q r : Gpr} (v : Dword) (different : q ≠ r) :
    setGpr f r v q = f q :=
  if_neg different

/-- The fields of `struct sigcontext` that the translator uses. -/
structure Sigcontext where
  gpr : Gpr → Dword
  esp : Dword
  eip : Dword
  eflags : Dword
  cs : Word
  ss : Word
  ds : Word
  es : Word
  fs : Word
  gs : Word
  cr2 : Dword

def Sigcontext.lword (scp : Sigcontext) (r : Gpr) : Word := loWord (scp.gpr r)

/-- The data segment registers that hold `selector` loaded with 0. -/
def Sigcontext.freeSegRegs (selector : Word) (scp : Sigcontext) : Sigcontext :=
  { scp with
    ds := if scp.ds ||| 7 = selector ||| 7 then 0 else scp.ds,
    es := if scp.es ||| 7 = selector ||| 7 then 0 else scp.es,
    fs := if scp.fs ||| 7 = selector ||| 7 then 0 else scp.fs,
    gs := if scp.gs ||| 7 = selector ||| 7 then 0 else scp.gs }

structure RealModeCallStructure where
  gpr : Gpr → Dword
  flags : Word
  es : Word
  ds : Word
  fs : Word
  gs : Word
  ip : Word
  cs : Word
  sp : Word
  ss : Word

/-- `RMLWORD`: the 16-bit view `x.r` of a general register. -/
def RealModeCallStructure.lword (rmreg : RealModeCallStructure) (r : Gpr) : Word :=
  loWord (rmreg.gpr r)

/-! ## Flags -/

def CF : Dword := 0x1
def TF : Dword := 0x100
def IF : Dword := 0x200
def NT : Dword := 0x4000
def VM : Dword := 0x20000
def AC : Dword := 0x40000
def VIF : Dword := 0x80000

/-- `get_FLAGS`: IF as the virtual interrupt flag says. -/
def getFlags (flags : Dword) : Dword :=
  if flags &&& VIF ≠ 0 then flags ||| IF else flags &&& ~~~IF

def segoff2linear (seg off : Word) : Dword := (zext seg <<< 4) + zext off

end Pmdapi
