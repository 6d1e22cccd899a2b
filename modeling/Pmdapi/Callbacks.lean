import Pmdapi.State

/-! `callbacks.c`: the transfer of registers between the two modes, the I/O buffer of the long
reads and writes, and the handlers of the real-mode callbacks. -/

namespace Pmdapi
open Bytes Effect

/-! ## I/O buffer -/

/-- The buffer of a new call. The error code of an earlier one stays. -/
def IoBuffer.set (io : IoBuffer) (ptr size : Dword) : IoBuffer :=
  { io with ptr := ptr, size := size, error := false }

def IoBuffer.unset (io : IoBuffer) : IoBuffer := { io with size := 0 }

def setIoBuffer {σ : Type} (ptr size : Dword) : M σ Unit :=
  updates fun s => { s with io := s.io.set ptr size }

def unsetIoBuffer {σ : Type} : M σ Unit := updates fun s => { s with io := s.io.unset }

/-- `rmcb_handler`: AL selects read, write or error. The bound is tested on the 32-bit sum. -/
def rmcbHandler (io : IoBuffer) (mem : Memory) (rmreg : RealModeCallStructure) :
    IoBuffer × Memory :=
  let offs := rmreg.gpr .edi
  let size := rmreg.gpr .ecx
  let dosPtr := segoff2linear rmreg.ds (rmreg.lword .edx)
  let al := loByte (rmreg.lword .eax)
  if al = 0 then
    if offs + size ≤ io.size then (io, copy mem (io.ptr + offs) dosPtr size.toNat) else (io, mem)
  else if al = 1 then
    if offs + size ≤ io.size then (io, copy mem dosPtr (io.ptr + offs) size.toNat) else (io, mem)
  else if al = 2 then ({ io with error := true, errorCode := rmreg.lword .ecx }, mem)
  else (io, mem)

section Handler

variable (io : IoBuffer) (mem : Memory) {rmreg : RealModeCallStructure}

theorem rmcbHandler_read (al : loByte (rmreg.lword .eax) = 0) :
    rmcbHandler io mem rmreg = (io, if rmreg.gpr .edi + rmreg.gpr .ecx ≤ io.size then
      copy mem (io.ptr + rmreg.gpr .edi) (segoff2linear rmreg.ds (rmreg.lword .edx))
        (rmreg.gpr .ecx).toNat else mem) := by
  simp only [rmcbHandler, al, if_true]
  split <;> rfl

theorem rmcbHandler_write (al : loByte (rmreg.lword .eax) = 1) :
    rmcbHandler io mem rmreg = (io, if rmreg.gpr .edi + rmreg.gpr .ecx ≤ io.size then
      copy mem (segoff2linear rmreg.ds (rmreg.lword .edx)) (io.ptr + rmreg.gpr .edi)
        (rmreg.gpr .ecx).toNat else mem) := by
  have notRead : ¬(1 : Byte) = 0 := by decide
  simp only [rmcbHandler, al, notRead, if_true, if_false]
  split <;> rfl

theorem rmcbHandler_error (al : loByte (rmreg.lword .eax) = 2) :
    rmcbHandler io mem rmreg = ({ io with error := true, errorCode := rmreg.lword .ecx }, mem) := by
  have notRead : ¬(2 : Byte) = 0 := by decide
  have notWrite : ¬(2 : Byte) = 1 := by decide
  simp only [rmcbHandler, al, notRead, notWrite, if_true, if_false]

end Handler

/-! ## Register transfer -/

def rmToPmRegs (scp : Sigcontext) (rmreg : RealModeCallStructure) (mask : RegMask) : Sigcontext :=
  { scp with
    eflags := if maskHas mask .eflags then zext rmreg.flags else scp.eflags,
    gpr := fun r => if maskHas mask (.gpr r) then zext (rmreg.lword r) else scp.gpr r }

def pmToRmRegs (scp : Sigcontext) (rmreg : RealModeCallStructure) (mask : RegMask) :
    RealModeCallStructure :=
  { rmreg with
    flags := if maskHas mask .eflags then loWord scp.eflags else rmreg.flags,
    gpr := fun r =>
      if maskHas mask (.gpr r) then setLoWord (rmreg.gpr r) (scp.lword r) else rmreg.gpr r }

@[simp] theorem rmToPmRegs_gpr (scp : Sigcontext) (rmreg : RealModeCallStructure) (mask : RegMask)
    (r : Gpr) : (rmToPmRegs scp rmreg mask).gpr r =
      if maskHas mask (.gpr r) then zext (rmreg.lword r) else scp.gpr r := rfl

@[simp] theorem pmToRmRegs_lword (scp : Sigcontext) (rmreg : RealModeCallStructure)
    (mask : RegMask) (r : Gpr) : (pmToRmRegs scp rmreg mask).lword r =
      if maskHas mask (.gpr r) then scp.lword r else rmreg.lword r := by
  simp only [RealModeCallStructure.lword, pmToRmRegs]
  split <;> simp

/-! ## XMS and API calls -/

/-- `pushw` below `base + sp`, the stack pointer wrapping at 64K. -/
def pushw (base : Dword) (stack : Memory × Word) (v : Word) : Memory × Word :=
  let high := store stack.1 (base + zext (stack.2 - 1)) [hiByte v]
  (store high (base + zext (stack.2 - 2)) [loByte v], stack.2 - 2)

def doCallTo (target : Far) (mem : Memory) (rmreg : RealModeCallStructure) :
    Memory × RealModeCallStructure :=
  let ssp := segoff2linear rmreg.ss 0
  let pushed := pushw ssp (pushw ssp (mem, rmreg.sp) rmreg.cs) rmreg.ip
  (pushed.1, { rmreg with sp := rmreg.sp - 4, cs := target.segment, ip := target.offset })

def popw (base : Dword) (mem : Memory) (sp : Word) : Word × Word :=
  (mem (base + zext (sp + 1)) ++ mem (base + zext sp), sp + 2)

def doRetf (mem : Memory) (rmreg : RealModeCallStructure) : RealModeCallStructure :=
  let ssp := segoff2linear rmreg.ss 0
  let ip := popw ssp mem rmreg.sp
  let cs := popw ssp mem ip.2
  { rmreg with ip := ip.1, cs := cs.1, sp := rmreg.sp + 4 }

/-- `xms_call`: every register but cs:ip and ss:sp goes down. -/
def xmsCall (scp : Sigcontext) (target : Far) (mem : Memory) (rmreg : RealModeCallStructure) :
    Memory × RealModeCallStructure :=
  let rmask := regBit .cs ||| regBit .eip ||| regBit .ss ||| regBit .esp
  doCallTo target mem (pmToRmRegs scp rmreg (~~~rmask))

/-- `msdos_api_call` and `msdos_api_winos2_call`, on the alias selector they are given. -/
def msdosApiCall (sel : Word) (scp : Sigcontext) : Sigcontext :=
  if scp.lword .eax = 0x0100 ∧ sel ≠ 0 then
    { scp with gpr := setGpr scp.gpr .eax (zext sel), eflags := scp.eflags &&& ~~~CF }
  else { scp with eflags := scp.eflags ||| CF }

/-! ## Mouse callbacks -/

section Mouse

variable {σ : Type} (h : DpmiHost σ) (is32 : Bool)

/-- `*--ssp = v` on the client's stack, `depth` items down. -/
def pushItem (sp : Dword) (depth : Nat) (v : Dword) : M σ Unit :=
  setMem fun m =>
    if is32 then writeDword m (sp - BitVec.ofNat 32 (4 * depth)) v
    else writeWord m (sp - BitVec.ofNat 32 (2 * depth)) (loWord v)

def dropEsp (items : Nat) : M σ Unit :=
  setScp fun scp =>
    if is32 then { scp with esp := scp.esp - BitVec.ofNat 32 (4 * items) }
    else { scp with esp := setLoWord scp.esp (loWord scp.esp - BitVec.ofNat 16 (2 * items)) }

def mouseCallback (target : Pmaddr) : M σ Unit := do
  let valid ← reads fun s => validAndUsedSelector h s target.selector
  let sp ← reads fun s => selAdr h s s.scp.ss s.scp.esp is32
  let scp ← reads State.scp
  onlyIf valid (do
    pushItem is32 sp 1 (zext scp.cs)
    pushItem is32 sp 2 scp.eip
    dropEsp is32 2
    updates fun s => { s with scp := rmToPmRegs s.scp s.rmreg (~~~regBit (.gpr .ebp)) }
    let rmds ← reads fun s => s.rmreg.ds
    let sel ← convertSegmentToDescriptor h rmds
    setScp fun scp =>
      { scp with ds := loWord sel, cs := target.selector, eip := target.offset })

/-- The four words the BIOS pushed, `rm_ssp[-1]` down to `rm_ssp[-4]`. -/
def ps2Data (m : Memory) (rmreg : RealModeCallStructure) (i : Nat) : Word :=
  readWord m (segoff2linear rmreg.ss 0 + zext rmreg.sp + 12 - BitVec.ofNat 32 (2 * i))

def ps2MouseCallback (target : Pmaddr) : M σ Unit := do
  let valid ← reads fun s => validAndUsedSelector h s target.selector
  let sp ← reads fun s => selAdr h s s.scp.ss s.scp.esp is32
  let scp ← reads State.scp
  onlyIf valid (do
    [1, 2, 3, 4].forM (fun i => do
      let v ← reads fun s => ps2Data s.mem s.rmreg i
      pushItem is32 sp i (zext v))
    pushItem is32 sp 5 (zext scp.cs)
    pushItem is32 sp 6 scp.eip
    dropEsp is32 6
    setScp fun scp => { scp with cs := target.selector, eip := target.offset })

def rmcbRetHandler : M σ Unit := updates fun s => { s with rmreg := doRetf s.mem s.rmreg }

/-- `rmcb_ret_from_ps2`: the four words are dropped first. -/
def rmcbRetFromPs2 : M σ Unit := do
  setScp fun scp =>
    if is32 then { scp with esp := scp.esp + 16 }
    else { scp with esp := setLoWord scp.esp (loWord scp.esp + 8) }
  rmcbRetHandler

end Mouse

end Pmdapi
