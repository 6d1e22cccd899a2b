import Pmdapi.Helpers

/-! A host that never runs out and never hands the same thing out twice, and the translator as it is
loaded. What the results ask of a host can be met. -/

namespace Pmdapi
open Bytes

structure Bump where
  next : Nat
  base : Word → Dword

namespace Bump

def selector (n : Nat) : Dword := BitVec.ofNat 32 (8 * n + 7)

def grant (b : Bump) (base : Dword) : Dword × Bump :=
  (selector b.next,
    { next := b.next + 1, base := Function.update b.base (loWord (selector b.next)) base })

def perform : (c : DpmiCall) → Bump → c.Reply × Bump
  | .allocateLdtDescriptors _, b => b.grant 0
  | .segmentToDescriptor segment, b => b.grant (zext segment <<< 4)
  | .createAliasDescriptor sel, b => b.grant (b.base sel)
  | .setSegmentBaseAddress sel base, b => ((), { b with base := Function.update b.base sel base })
  | .allocateMemory _, b =>
    (⟨false, BitVec.ofNat 32 (0x100000 * (b.next + 1)), BitVec.ofNat 32 b.next⟩,
      { b with next := b.next + 1 })
  | .resizeMemory _ _, b =>
    (⟨false, BitVec.ofNat 32 (0x100000 * (b.next + 1)), BitVec.ofNat 32 b.next⟩,
      { b with next := b.next + 1 })
  | .allocateRealModeCallback _ _, b =>
    (⟨BitVec.ofNat 16 b.next, 0xf000⟩, { b with next := b.next + 1 })
  | .freeLdtDescriptor _, b => ((), b)
  | .setSegmentLimit _ _, b => ((), b)
  | .setDescriptorAccessRights _ _, b => ((), b)
  | .freeMemory _, b => ((), b)
  | .setProtectedModeInterruptVector _ _, b => ((), b)
  | .freeRealModeCallback _, b => ((), b)
  | .getStateSaveRestoreAddr, b => ((), b)
  | .emmSavePageMap _, b => ((), b)
  | .emmRestorePageMap _, b => ((), b)
  | .emmMapUnmapMultiple _ _, b => ((), b)

end Bump

def bumpHost : DpmiHost Bump where
  perform := Bump.perform
  getSegmentBaseAddress b sel := b.base sel
  getSegmentLimit _ _ := 0xffff
  getDescriptorAccessRights _ _ := 0xf2
  getProtectedModeInterruptVector _ _ := ⟨0, 0⟩
  getRealModeInterruptVector _ _ := ⟨0, 0⟩
  getFreeMemoryInformation _ := 0
  getPsp _ := 0

/-- The translator as it is loaded, over this host and an empty memory. -/
def bumpStart : State Bump where
  host := ⟨0, fun _ => 0⟩
  trace := []
  mem := fun _ => 0
  scp := ⟨fun _ => 0, 0, 0, 0, 0, 0, 0, 0, 0, 0, 0⟩
  rmreg := .zero
  rMask := 0
  rmMask := 0
  updateMask := 0
  stk := fun _ => 0
  stkLen := 16
  rStkUsed := 0
  stkUsed := 0
  clntIs32 := true
  emmSeg := 0xd000
  clients := fun _ => .zero
  clientNum := 0
  emsFrameMapped := false
  emsHandle := 0
  ops := .zero
  io := ⟨0, 0, false, 0⟩
  dpmiLdtAlias := 0
  ldtAliasPtr := 0
  myCs := 0x10
  entryOffset := fun _ => 0

def State.withGpr {σ : Type} (s : State σ) (gpr : Gpr → Dword) : State σ :=
  { s with scp := { s.scp with gpr := gpr } }

end Pmdapi
