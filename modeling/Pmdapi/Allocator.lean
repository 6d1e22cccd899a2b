import Pmdapi.Library.Slots
import Pmdapi.State

/-! The map of DPMI memory blocks behind int 21h/48h, 49h and 4Ah. A slot is free when its size is
0; its base and handle stay behind. -/

namespace Pmdapi
open Bytes Effect Slots

abbrev MemMap := Fin MSDOS_MAX_MEM_ALLOCS → DpmiPmBlock

def freeSlot (map : MemMap) : Option (Fin MSDOS_MAX_MEM_ALLOCS) := firstWhere (·.size = 0) map

/-- The first slot, free or not, with this base. -/
def slotOf (map : MemMap) (addr : Dword) : Option (Fin MSDOS_MAX_MEM_ALLOCS) :=
  firstWhere (·.base = addr) map

/-- A new block goes to the first free slot; when there is none it is dropped. -/
def recordBlock (map : MemMap) (block : DpmiPmBlock) : MemMap :=
  match freeSlot map with
  | some i => Function.update map i block
  | none => map

theorem recordBlock_some {map : MemMap} {i : Fin MSDOS_MAX_MEM_ALLOCS} (block : DpmiPmBlock)
    (found : freeSlot map = some i) : recordBlock map block = Function.update map i block := by
  unfold recordBlock
  rw [found]

/-- A freed slot keeps everything but its size. -/
def markFree (map : MemMap) (i : Fin MSDOS_MAX_MEM_ALLOCS) : MemMap :=
  Function.update map i { map i with size := 0 }

variable {σ : Type} (h : DpmiHost σ)

def setMemMap (f : MemMap → MemMap) : M σ Unit := setClient fun c => { c with memMap := f c.memMap }

def msdosMalloc (size : Dword) : M σ Dword := do
  let block ← dpmiMalloc h size
  if block.size = 0 then pure 0
  else do
    setMemMap fun map => recordBlock map block
    pure block.base

def msdosFree (addr : Dword) : M σ Int := do
  let map ← reads fun s => s.client.memMap
  match slotOf map addr with
  | some i => do
    dpmiFree h (map i).handle
    setMemMap fun map => markFree map i
    pure 0
  | none => pure (-1)

def msdosRealloc (addr newSize : Dword) : M σ Dword := do
  let map ← reads fun s => s.client.memMap
  match slotOf map addr with
  | some i =>
    if (map i).size = 0 then pure 0
    else do
      let block ← dpmiRealloc h (map i).handle newSize
      if block.size = 0 then pure 0
      else do
        setMemMap fun map => Function.update map i block
        pure block.base
  | none => pure 0

def freeSlotMem (i : Fin MSDOS_MAX_MEM_ALLOCS) : M σ Unit := do
  let block ← reads fun s => s.client.memMap i
  onlyIf (block.size ≠ 0) (do
    dpmiFree h block.handle
    setMemMap fun map => markFree map i)

def msdosFreeMem : M σ Unit := (List.finRange MSDOS_MAX_MEM_ALLOCS).forM (freeSlotMem h)

end Pmdapi
