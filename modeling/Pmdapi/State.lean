import Mathlib.Logic.Function.Basic
import Pmdapi.Library.Effect
import Pmdapi.Dpmi

/-! The translator's state: the static variables of its modules, and the arguments and locals of
the call in progress. Then `wrapper.c` over it. -/

namespace Pmdapi
open Bytes Effect

def MSDOS_MAX_MEM_ALLOCS : Nat := 1024
def MAX_CNVS : Nat := 16
def DPMI_MAX_CLIENTS : Nat := 32
def MAX_DOS_PATH : Nat := 260
def DTA_Para_ADD : Word := 0
def EXEC_Para_ADD : Word := 8

structure DpmiPmBlock where
  handle : Dword
  size : Dword
  base : Dword
  deriving DecidableEq, Repr, Inhabited

structure SegSel where
  seg : Word
  sel : Word
  lim : Dword
  deriving DecidableEq, Repr

structure MsdosStruct where
  is32 : Bool
  mouseCallBack : Pmaddr
  ps2mouseCallBack : Pmaddr
  xmsCall : Far
  userDtaSel : Word
  userDtaOff : Dword
  userPspSel : Word
  lowmemSeg : Word
  memMap : Fin MSDOS_MAX_MEM_ALLOCS → DpmiPmBlock
  rmcbs : Rmcb → Far
  rmcbSel : Word
  rmcbAlloced : Bool
  ldtAlias : Word
  ldtAliasWinos2 : Word
  segSelMap : Fin MAX_CNVS → SegSel

/-- The record after `memset(.., 0, ..)`. -/
def MsdosStruct.zero : MsdosStruct where
  is32 := false
  mouseCallBack := ⟨0, 0⟩
  ps2mouseCallBack := ⟨0, 0⟩
  xmsCall := ⟨0, 0⟩
  userDtaSel := 0
  userDtaOff := 0
  userPspSel := 0
  lowmemSeg := 0
  memMap := fun _ => ⟨0, 0, 0⟩
  rmcbs := fun _ => ⟨0, 0⟩
  rmcbSel := 0
  rmcbAlloced := false
  ldtAlias := 0
  ldtAliasWinos2 := 0
  segSelMap := fun _ => ⟨0, 0, 0⟩

/-- A pointer to a field of `msdos_client[slot]`, as the helper table stores them. -/
inductive ClientRef where
  | mouseCallBack (slot : Nat)
  | ps2mouseCallBack (slot : Nat)
  | ldtAlias (slot : Nat)
  | ldtAliasWinos2 (slot : Nat)
  | xmsCall (slot : Nat)
  deriving DecidableEq, Repr

inductive OpsHandler where
  | msdosApiCall | msdosApiWinos2Call | xmsCall | xmsRet
  | rmcbHandler | mouseCallback | ps2MouseCallback
  | rmcbRetHandler | rmcbRetFromPs2
  deriving DecidableEq, Repr

structure MsdosOps where
  apiCall : Option OpsHandler
  apiArg : Option ClientRef
  apiWinos2Call : Option OpsHandler
  apiWinos2Arg : Option ClientRef
  xmsCall : Option OpsHandler
  xmsArg : Option ClientRef
  xmsRet : Option OpsHandler
  rmcbHandler : Rmcb → Option OpsHandler
  rmcbArg : Rmcb → Option ClientRef
  rmcbRetHandler : Rmcb → Option OpsHandler

structure IoBuffer where
  ptr : Dword
  size : Dword
  error : Bool
  errorCode : Word
  deriving DecidableEq, Repr

structure State (σ : Type) where
  host : σ
  trace : List Event
  mem : Memory
  -- the call in progress
  scp : Sigcontext
  rmreg : RealModeCallStructure
  rMask : RegMask
  rmMask : RegMask
  updateMask : RegMask
  stk : Nat → Byte
  stkLen : Nat
  rStkUsed : Nat
  stkUsed : Nat
  -- entry.S
  clntIs32 : Bool
  -- msdos.c
  emmSeg : Word
  clients : Nat → MsdosStruct
  clientNum : Nat
  emsFrameMapped : Bool
  emsHandle : Word
  -- msdoshlp.c
  ops : MsdosOps
  -- callbacks.c
  io : IoBuffer
  -- msdos_ldt.c
  dpmiLdtAlias : Word
  ldtAliasPtr : Dword
  -- the resident image
  myCs : Word
  entryOffset : EntryPoint → Dword

abbrev M (σ : Type) := StateM (State σ)

inductive MsdosRet where
  | none | rm | done
  deriving DecidableEq, Repr

variable {σ : Type}

namespace State

def client (s : State σ) : MsdosStruct := s.clients (s.clientNum - 1)

def withClient (f : MsdosStruct → MsdosStruct) (s : State σ) : State σ :=
  { s with clients := Function.update s.clients (s.clientNum - 1) (f s.client) }

@[simp] theorem client_withClient (f : MsdosStruct → MsdosStruct) (s : State σ) :
    (s.withClient f).client = f s.client := by
  simp [client, withClient]

def d16_32 (s : State σ) (v : Dword) : Dword := if s.client.is32 then v else v &&& 0xffff

end State

def setClient (f : MsdosStruct → MsdosStruct) : M σ Unit := updates (State.withClient f)

def setScp (f : Sigcontext → Sigcontext) : M σ Unit :=
  updates fun s => { s with scp := f s.scp }

/-- Assign to the real-mode register structure, no mask bit touched. -/
def setRmregs (f : RealModeCallStructure → RealModeCallStructure) : M σ Unit :=
  updates fun s => { s with rmreg := f s.rmreg }

def setMem (f : Memory → Memory) : M σ Unit := updates fun s => { s with mem := f s.mem }

def setLword (r : Gpr) (v : Word) : M σ Unit :=
  setScp fun scp => { scp with gpr := setGpr scp.gpr r (setLoWord (scp.gpr r) v) }

def setReg32 (r : Gpr) (v : Dword) : M σ Unit :=
  setScp fun scp => { scp with gpr := setGpr scp.gpr r v }

def setCF : M σ Unit := setScp fun scp => { scp with eflags := scp.eflags ||| CF }

def clearCF : M σ Unit := setScp fun scp => { scp with eflags := scp.eflags &&& ~~~CF }

/-- `MEMCPY_2DOS`, `MEMCPY_2UNIX` and `MEMCPY_DOS2DOS`: linear and flat addresses are the same. -/
def memcpy (dst src : Dword) (n : Nat) : M σ Unit := setMem fun m => copy m dst src n

def memset (dst : Dword) (v : Byte) (n : Nat) : M σ Unit := setMem fun m => fill m dst v n

def writeWordAt (a : Dword) (v : Word) : M σ Unit := setMem fun m => writeWord m a v

/-- `snprintf(dst, size, "%s", src)`, which `wrapper.h` turns into `sprintf(dst, "%s", src)`. -/
def snprintf (dst : Dword) (_size : Nat) (src : Dword) : M σ Unit :=
  setMem fun m => copyString m dst src

def strcpy (dst src : Dword) : M σ Unit := setMem fun m => copyString m dst src

/-! ## wrapper.c -/

variable (h : DpmiHost σ)

def hostCall (c : DpmiCall) : M σ c.Reply :=
  answers fun s =>
    ((h.perform c s.host).1,
      { s with host := (h.perform c s.host).2,
               trace := s.trace ++ [.dpmi c (h.perform c s.host).1] })

def getSegmentBase (s : State σ) (sel : Word) : Dword := h.getSegmentBaseAddress s.host sel

def getSegmentLimit (s : State σ) (sel : Word) : Dword := h.getSegmentLimit s.host sel

def dosGetPsp (s : State σ) : Word := h.getPsp s.host

def validAndUsedSelector (s : State σ) (sel : Word) : Bool :=
  let lar := h.getDescriptorAccessRights s.host sel
  sel &&& 4 ≠ 0 && lar ≠ 0 && lar &&& 0x90 = 0x90

def convertSegmentToDescriptor (segment : Word) : M σ Dword := hostCall h (.segmentToDescriptor segment)

def allocateDescriptors (num : Nat) : M σ Word := do
  let sel ← hostCall h (.allocateLdtDescriptors num)
  pure (loWord sel)

def createAliasDescriptor (selector : Word) : M σ Word := do
  let sel ← hostCall h (.createAliasDescriptor selector)
  pure (loWord sel)

def freeDescriptor (selector : Word) : M σ Unit := hostCall h (.freeLdtDescriptor selector)

def setSegmentBaseAddress (selector : Word) (base : Dword) : M σ Unit :=
  hostCall h (.setSegmentBaseAddress selector base)

def setSegmentLimit (selector : Word) (limit : Dword) : M σ Unit :=
  hostCall h (.setSegmentLimit selector limit)

def setDescriptorAccessRights (selector rights : Word) : M σ Unit :=
  hostCall h (.setDescriptorAccessRights selector rights)

/-- The block `DPMImalloc` and `DPMIrealloc` make of the host's answer: size 0 is failure. -/
def MemoryReply.block (r : MemoryReply) (size : Dword) : DpmiPmBlock :=
  { handle := r.handle, size := if r.err then 0 else size, base := r.address }

def dpmiMalloc (size : Dword) : M σ DpmiPmBlock := do
  let info ← hostCall h (.allocateMemory size)
  pure (info.block size)

def dpmiFree (handle : Dword) : M σ Unit := hostCall h (.freeMemory handle)

def dpmiRealloc (handle size : Dword) : M σ DpmiPmBlock := do
  let info ← hostCall h (.resizeMemory handle size)
  pure (info.block size)

def freeSegRegs (selector : Word) : M σ Unit := setScp (Sigcontext.freeSegRegs selector)

def selAdrLdt (s : State σ) (sel : Word) (reg : Dword) (is32 : Bool) : Dword :=
  getSegmentBase h s sel + if is32 then reg else zext (loWord reg)

/-- `SEL_ADR` and `SEL_ADR_CLNT`: a GDT selector is taken as flat. -/
def selAdr (s : State σ) (sel : Word) (reg : Dword) (is32 : Bool) : Dword :=
  if sel &&& 4 = 0 then reg else selAdrLdt h s sel reg is32

def selAdrClnt (s : State σ) (sel : Word) (r : Gpr) : Dword :=
  selAdr h s sel (s.scp.gpr r) s.client.is32

end Pmdapi
