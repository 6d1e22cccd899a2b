import Pmdapi.Cpu

/-! The DPMI host with DOS and the EMS driver behind it. It is not part of the translator, so it is
a parameter: an arbitrary state and an arbitrary answer to every call. -/

namespace Pmdapi
open Bytes

/-- The callback numbers `RMCB_IO`, `RMCB_MS`, `RMCB_PS2MS`; each has its own `entry_MSDOS_rmcb_call`. -/
inductive Rmcb where
  | io | ms | ps2ms
  deriving DecidableEq, Repr

def Rmcb.all : List Rmcb := [.io, .ms, .ps2ms]

inductive EntryPoint where
  | apiCall | apiWinos2Call | xmsCall
  deriving DecidableEq, Repr

structure MemoryReply where
  err : Bool
  address : Dword
  handle : Dword
  deriving DecidableEq, Repr, Inhabited

inductive DpmiCall where
  | allocateLdtDescriptors (count : Nat)
  | freeLdtDescriptor (selector : Word)
  | segmentToDescriptor (segment : Word)
  | createAliasDescriptor (selector : Word)
  | setSegmentBaseAddress (selector : Word) (base : Dword)
  | setSegmentLimit (selector : Word) (limit : Dword)
  | setDescriptorAccessRights (selector : Word) (rights : Word)
  | allocateMemory (size : Dword)
  | freeMemory (handle : Dword)
  | resizeMemory (handle size : Dword)
  | setProtectedModeInterruptVector (num : Byte) (desc : Pmaddr)
  | allocateRealModeCallback (entry : Rmcb) (rmregs : Dword)
  | freeRealModeCallback (callback : Far)
  | getStateSaveRestoreAddr
  | emmSavePageMap (handle : Word)
  | emmRestorePageMap (handle : Word)
  | emmMapUnmapMultiple (pages : List Word) (handle : Word)
  deriving DecidableEq, Repr

/-- The type of a call's answer. A descriptor call answers an `int`, -1 on failure. -/
@[reducible] def DpmiCall.Reply : DpmiCall → Type
  | .allocateLdtDescriptors _ => Dword
  | .segmentToDescriptor _ => Dword
  | .createAliasDescriptor _ => Dword
  | .allocateMemory _ => MemoryReply
  | .resizeMemory _ _ => MemoryReply
  | .allocateRealModeCallback _ _ => Far
  | _ => Unit

/-- A host: its answers to the calls above, and the queries that change nothing. -/
structure DpmiHost (σ : Type) where
  perform : (c : DpmiCall) → σ → c.Reply × σ
  getSegmentBaseAddress : σ → Word → Dword
  getSegmentLimit : σ → Word → Dword
  getDescriptorAccessRights : σ → Word → Dword
  getProtectedModeInterruptVector : σ → Byte → Pmaddr
  getRealModeInterruptVector : σ → Nat → Far
  /-- First word of the free memory information: the largest free block. -/
  getFreeMemoryInformation : σ → Dword
  /-- DOS's answer to a simulated int 21h/51h. -/
  getPsp : σ → Word

inductive Event where
  | dpmi (call : DpmiCall) (reply : call.Reply)
  | transBufferSeg (mapped : Bool)
  | error (text : String)

end Pmdapi
