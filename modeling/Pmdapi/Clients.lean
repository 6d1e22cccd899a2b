import Pmdapi.Library.Slots
import Pmdapi.Allocator
import Pmdapi.Helpers

/-! Starting and ending clients: `msdos_init`, `msdos_done` and what they acquire and release. -/

namespace Pmdapi
open Bytes Effect Slots

variable {σ : Type} (h : DpmiHost σ)

def getEnvSel (s : State σ) : Word := readWord s.mem (segoff2linear (dosGetPsp h s) 0x2c)

def writeEnvSel (sel : Word) : M σ Unit := do
  let psp ← reads (dosGetPsp h)
  writeWordAt (segoff2linear psp 0x2c) sel

/-! ## Segment to selector map -/

def segSelSlot (map : Fin MAX_CNVS → SegSel) (segment : Word) (limit : Dword) :
    Option (Fin MAX_CNVS) :=
  firstWhere (fun m => m.sel = 0 || m.seg = segment && m.lim = limit) map

def convertSegmentToDescriptorLim (segment : Word) (limit : Dword) : M σ Word := do
  let map ← reads fun s => s.client.segSelMap
  match segSelSlot map segment limit with
  | none => pure 0
  | some i =>
    if (map i).sel ≠ 0 then pure (map i).sel
    else do
      let sel ← allocateDescriptors h 1
      if sel = 0 then pure 0
      else do
        setSegmentBaseAddress h sel (zext segment <<< 4)
        setSegmentLimit h sel limit
        setDescriptorAccessRights h sel 0xf2
        setClient fun c => { c with segSelMap := Function.update c.segSelMap i ⟨segment, sel, limit⟩ }
        pure sel

/-- The sweep of `msdos_free_descriptors`: it stops at the first free entry. -/
def freeSegSels : List (Fin MAX_CNVS) → M σ Unit
  | [] => pure ()
  | i :: rest => do
    let m ← reads fun s => s.client.segSelMap i
    onlyIf (m.sel ≠ 0) (do
      freeDescriptor h m.sel
      setClient fun c =>
        { c with segSelMap := Function.update c.segSelMap i { c.segSelMap i with sel := 0 } }
      freeSegSels rest)

def msdosFreeDescriptors : M σ Unit := do
  freeSegSels h (List.finRange MAX_CNVS)
  let winos2 ← reads fun s => s.client.ldtAliasWinos2
  freeDescriptor h winos2

/-! ## LDT alias -/

def pageAlign (a : Dword) : Dword := (a + 4095) &&& ~~~4095

def msdosLdtInit (clntNum : Nat) : M σ Word :=
  if clntNum > 1 then reads State.dpmiLdtAlias
  else do
    let sel ← allocateDescriptors h 1
    updates fun s => { s with dpmiLdtAlias := sel }
    if sel = 0 then pure 0
    else do
      setSegmentLimit h sel (pageAlign (((zext sel >>> 3) + 1) * 8) + 4096 * 4 - 1)
      let ptr ← reads State.ldtAliasPtr
      setSegmentBaseAddress h sel ptr
      pure sel

def msdosLdtDone (clntNum : Nat) : M σ Unit := do
  let sel ← reads State.dpmiLdtAlias
  onlyIf (¬clntNum > 1 ∧ sel ≠ 0) (do
    updates fun s => { s with dpmiLdtAlias := 0 }
    freeDescriptor h sel)

/-! ## Real-mode callbacks -/

def cbkArgs (s : State σ) : Rmcb → Option ClientRef
  | .io => none
  | .ms => some (.mouseCallBack (s.clientNum - 1))
  | .ps2ms => some (.ps2mouseCallBack (s.clientNum - 1))

def rmcbHandlers : Rmcb → OpsHandler
  | .io => .rmcbHandler
  | .ms => .mouseCallback
  | .ps2ms => .ps2MouseCallback

def rmcbRetHandlers : Rmcb → OpsHandler
  | .io => .rmcbRetHandler
  | .ms => .rmcbRetHandler
  | .ps2ms => .rmcbRetFromPs2

def callbackInit (rmcbSel : Word) (i : Rmcb) : M σ Unit := do
  let arg ← reads fun s => cbkArgs s i
  let entry ← getPmcbHandler (rmcbHandlers i) arg (rmcbRetHandlers i) i
  let regs ← reads fun s => selAdrLdt h s rmcbSel 0 s.clntIs32
  let cbk ← hostCall h (.allocateRealModeCallback entry regs)
  setClient fun c => { c with rmcbs := Function.update c.rmcbs i cbk }

def callbacksInit (rmcbSel : Word) : M σ Unit := Rmcb.all.forM (callbackInit h rmcbSel)

def callbacksDone (cbks : Rmcb → Far) : M σ Unit :=
  Rmcb.all.forM fun i => hostCall h (.freeRealModeCallback (cbks i))

/-! ## Start and end -/

def rmcsSize : Dword := 50

def convertEnv : M σ Unit := do
  let envp ← reads (getEnvSel h)
  onlyIf (envp ≠ 0) (do
    let sel ← convertSegmentToDescriptor h envp
    writeEnvSel h (loWord sel))

def restoreEnv : M σ Unit := do
  let env ← reads (getEnvSel h)
  onlyIf (env ≠ 0) (do
    let base ← reads fun s => getSegmentBase h s env
    writeEnvSel h (loWord (base >>> 4)))

/-- Callbacks of the client's own, on the register structure at `rmcbMem`. -/
def setupRmcbs (rmcbMem : Dword) : M σ Unit := do
  let sel ← allocateDescriptors h 1
  setClient fun c => { c with rmcbSel := sel }
  setSegmentBaseAddress h sel rmcbMem
  setSegmentLimit h sel (rmcsSize - 1)
  callbacksInit h sel
  setClient fun c => { c with rmcbAlloced := true }

/-- Whether a client has callbacks of its own: the first one, and one whose bitness differs from the
client below. -/
def ownsRmcbs (s : State σ) (is32 : Bool) : Bool :=
  s.clientNum = 1 || (s.clients (s.clientNum - 2)).is32 ≠ is32

def initRmcbs (is32 : Bool) : M σ Unit := do
  let s ← reads id
  if ownsRmcbs s is32 then do
    let rmcbMem ← msdosMalloc h rmcsSize
    setupRmcbs h rmcbMem
  else setClient fun c => { c with rmcbs := (s.clients (s.clientNum - 2)).rmcbs }

def initAliases : M σ Unit := do
  let num ← reads State.clientNum
  let sel ← msdosLdtInit h num
  setClient fun c => { c with ldtAlias := sel }
  let winos2 ← createAliasDescriptor h sel
  setClient fun c => { c with ldtAliasWinos2 := winos2 }
  setDescriptorAccessRights h winos2 0xf0
  setSegmentLimit h winos2 (8192 * 8 - 1)

def msdosInit (is32 : Bool) (mseg : Word) : M σ Unit := do
  updates fun s => { s with clientNum := s.clientNum + 1 }
  setClient fun _ => { MsdosStruct.zero with is32 := is32, lowmemSeg := mseg }
  convertEnv h
  initRmcbs h is32
  initAliases h

def doneDescriptors : M σ Unit := do
  let c ← reads State.client
  onlyIf c.rmcbAlloced (do
    callbacksDone h c.rmcbs
    freeDescriptor h c.rmcbSel)
  restoreEnv h
  let num ← reads State.clientNum
  msdosLdtDone h num
  msdosFreeDescriptors h

def msdosDone : M σ Unit := do
  doneDescriptors h
  msdosFreeMem h
  updates fun s => { s with clientNum := s.clientNum - 1 }

end Pmdapi
