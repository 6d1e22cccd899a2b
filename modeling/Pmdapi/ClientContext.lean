import Pmdapi.InstrPrefixes
import Pmdapi.Library.Processor
import Pmdapi.Segreg

/-! The client's `sigcontext` as the processor's registers. -/

namespace Pmdapi
open Bytes X86

def Sigcontext.numbered (scp : Sigcontext) (r : BitVec 3) : Dword :=
  [scp.gpr .eax, scp.gpr .ecx, scp.gpr .edx, scp.gpr .ebx, scp.esp, scp.gpr .ebp, scp.gpr .esi,
    scp.gpr .edi].getD r.toNat 0

def Sigcontext.segment (scp : Sigcontext) : SegReg → Word
  | .es => scp.es
  | .cs => scp.cs
  | .ss => scp.ss
  | .ds => scp.ds
  | .fs => scp.fs
  | .gs => scp.gs

/-- The registers the processor would run on. -/
def Sigcontext.context (scp : Sigcontext) : Context where
  gpr := scp.numbered
  seg := scp.segment
  eip := scp.eip
  eflags := scp.eflags

theorem forall_gpr {P : BitVec 3 → Prop} (h0 : P 0) (h1 : P 1) (h2 : P 2) (h3 : P 3) (h4 : P 4)
    (h5 : P 5) (h6 : P 6) (h7 : P 7) (r : BitVec 3) : P r := by
  have cases : ∀ q : BitVec 3, q = 0 ∨ q = 1 ∨ q = 2 ∨ q = 3 ∨ q = 4 ∨ q = 5 ∨ q = 6 ∨ q = 7 := by
    decide
  rcases cases r with rfl | rfl | rfl | rfl | rfl | rfl | rfl | rfl <;> assumption

/-! ## Operands in the code -/

section

variable {m : Memory} {a : Dword} {n : Nat} {bytes : List Byte}
  (reads : ∀ i < bytes.length, codeAt m a (n + i) = bytes.getD i 0)

include reads

theorem readWord_bytes {i : Nat} (inside : i + 2 ≤ bytes.length) :
    readWord m (a + BitVec.ofNat 32 (n + i)) = wordAt bytes i := by
  rw [readWord_codeAt, Nat.add_assoc, reads i (by omega), reads (i + 1) (by omega)]
  rfl

theorem readDword_bytes {i : Nat} (inside : i + 4 ≤ bytes.length) :
    readDword m (a + BitVec.ofNat 32 (n + i)) = dwordAt bytes i := by
  rw [readDword, readWord_bytes reads (i := i) (by omega), show (2 : Dword) = BitVec.ofNat 32 2 from rfl,
    skip_skip, Nat.add_assoc, readWord_bytes reads (i := i + 2) (by omega)]
  rfl

end

/-! ## Segment registers -/

def segIndex : SegReg → Nat
  | .es => 0
  | .cs => 1
  | .ss => 2
  | .ds => 3
  | .fs => 4
  | .gs => 5

theorem segIndex_ofNumber : ∀ (n : BitVec 3), (SegReg.ofNumber n).all (fun r => segIndex r = n.toNat) := by
  decide

theorem sregIdx_regField : ∀ modrm : Byte, sregIdx (modrm >>> 3) = (regField modrm).toNat := by
  decide

theorem context_setSeg (scp : Sigcontext) (r : SegReg) (v : Word) :
    (scp.setSeg (segIndex r) v).context = scp.context.withSeg r v := by
  cases r <;>
    · show Context.mk _ _ _ _ = Context.mk _ _ _ _
      congr 1
      funext q
      cases q <;> rfl

theorem setSeg_cr2 (scp : Sigcontext) (n : Nat) (v : Word) : (scp.setSeg n v).cr2 = scp.cr2 := by
  unfold Sigcontext.setSeg
  split <;> rfl

/-! ## The stack -/

def Sigcontext.drop (scp : Sigcontext) (n : Word) : Sigcontext :=
  { scp with esp := setLoWord scp.esp (loWord scp.esp + n) }

theorem context_drop (scp : Sigcontext) (n : Word) : (scp.drop n).context = scp.context.drop n := by
  show Context.mk _ _ _ _ = Context.mk _ _ _ _
  congr 1
  funext r
  revert r
  apply forall_gpr <;> rfl

theorem drop_drop (scp : Sigcontext) (a b : Word) : (scp.drop a).drop b = scp.drop (a + b) := by
  simp only [Sigcontext.drop, loWord_setLoWord, BitVec.add_assoc, setLoWord_setLoWord]

theorem sizeBytes_operandBytes (b : Bool) :
    loWord (sizeBytes b) = BitVec.ofNat 16 (operandBytes b) := by
  cases b <;> decide

theorem x86Pop_eq (m : Memory) (base : Word → Dword) (scp : Sigcontext) {x86 : X86Ins} {b : Bool}
    (code16 : x86.bit32 = 0) (size : x86.operandSize = sizeBytes b) :
    x86Pop m base scp x86 =
      (scp.context.top m base b, scp.drop (BitVec.ofNat 16 (operandBytes b))) := by
  have sp : scp.esp &&& wordmask ((0 + 1) * 2) = (low (scp.context.gpr 4)).setWidth 32 := by
    show scp.esp &&& 0xffff = (BitVec.setWidth 16 scp.esp).setWidth 32
    apply BitVec.eq_of_toNat_eq
    rw [BitVec.toNat_and, BitVec.toNat_setWidth, BitVec.toNat_setWidth]
    show scp.esp.toNat &&& (2 ^ 16 - 1) = _
    rw [Nat.and_two_pow_sub_one_eq_mod]
    omega
  rw [x86Pop, code16, size, sp, sizeBytes_operandBytes]
  cases b <;> rfl

end Pmdapi
