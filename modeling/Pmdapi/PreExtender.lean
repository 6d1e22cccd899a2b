import Pmdapi.Clients
import Pmdapi.Ems

/-! `msdos_pre_extender`: what is done to a client's interrupt before it goes to real mode. -/

namespace Pmdapi
open Bytes Effect

/-- How a service branch is left: by a `return`, or by `break` with the value of `alt_ent`. -/
inductive Outcome where
  | ret (r : MsdosRet)
  | go (altEnt : Bool)
  deriving DecidableEq, Repr

/-- The case labels of the int 21h switch. The functions listed with a bare `break` and the default
label are `plain`. -/
inductive DosFn where
  | setVector | getVector | allocate | free | resize | plain | terminate | printString | setDta
  | unsupportedFcb | fcb | parseFcb | getCwd | exec | setPsp | createPsp | createSetPsp | asciiz
  | country | read | write | driveParams | rename | redirection | canonicalize | extendedOpen
  | international | lfn
  deriving DecidableEq, Repr

def dosFn (ah : Byte) : DosFn :=
  if ah = 0x25 then .setVector
  else if ah = 0x35 then .getVector
  else if ah = 0x48 then .allocate
  else if ah = 0x49 then .free
  else if ah = 0x4a then .resize
  else if ah = 0x00 then .terminate
  else if ah = 0x09 then .printString
  else if ah = 0x1a then .setDta
  else if ah = 0x0f || ah = 0x10 || ah = 0x14 || ah = 0x15 || (0x21 ≤ ah && ah ≤ 0x24) ||
      ah = 0x27 || ah = 0x28 then .unsupportedFcb
  else if ah = 0x11 || ah = 0x12 || ah = 0x13 || ah = 0x16 || ah = 0x17 then .fcb
  else if ah = 0x29 then .parseFcb
  else if ah = 0x47 then .getCwd
  else if ah = 0x4b then .exec
  else if ah = 0x50 then .setPsp
  else if ah = 0x26 then .createPsp
  else if ah = 0x55 then .createSetPsp
  else if ah = 0x39 || ah = 0x3a || ah = 0x3b || ah = 0x3c || ah = 0x3d || ah = 0x41 ||
      ah = 0x43 || ah = 0x4e || ah = 0x5b then .asciiz
  else if ah = 0x38 then .country
  else if ah = 0x3f then .read
  else if ah = 0x40 then .write
  else if ah = 0x53 then .driveParams
  else if ah = 0x56 then .rename
  else if ah = 0x5f then .redirection
  else if ah = 0x60 then .canonicalize
  else if ah = 0x6c then .extendedOpen
  else if ah = 0x65 then .international
  else if ah = 0x71 then .lfn
  else .plain

def usesDta (ah : Byte) : Bool := ah = 0x11 || ah = 0x12 || ah = 0x4e || ah = 0x4f

variable {σ : Type} (h : DpmiHost σ)

/-! ## Registers and masks -/

/-- `SET_RMREG(ds, v)`. -/
def setRmDs (v : Word) : M σ Unit :=
  updates fun s => { s with rmMask := s.rmMask ||| regBit .ds, rmreg := { s.rmreg with ds := v } }

def setRmEs (v : Word) : M σ Unit :=
  updates fun s => { s with rmMask := s.rmMask ||| regBit .es, rmreg := { s.rmreg with es := v } }

def setRmLword (r : Gpr) (v : Word) : M σ Unit :=
  updates fun s => { s with
    rmMask := s.rmMask ||| regBit (.gpr r),
    rmreg := { s.rmreg with gpr := setGpr s.rmreg.gpr r (setLoWord (s.rmreg.gpr r) v) } }

/-- `RMPRESERVE2(cs, ip)`. -/
def rmPreserveCsIp : M σ Unit :=
  updates fun s => { s with rmMask := s.rmMask ||| regBit .cs ||| regBit .eip }

def writeStkWord (stk : Nat → Byte) (i : Nat) (v : Word) : Nat → Byte :=
  Function.update (Function.update stk i (loByte v)) (i + 1) (hiByte v)

/-- `rm_do_int`: an interrupt frame on the caller's stack. -/
def rmDoInt (flags cs ip : Word) : M σ Unit :=
  updates fun s =>
    let sp := s.stkLen - s.stkUsed
    { s with
      stk := writeStkWord (writeStkWord (writeStkWord s.stk
        (sp - 2) (loWord (getFlags (zext flags)))) (sp - 4) cs) (sp - 6) ip,
      stkUsed := s.stkUsed + 6,
      rmreg := { s.rmreg with
        flags := flags &&& ~~~loWord (AC ||| VM ||| TF ||| NT ||| IF) },
      rmMask := s.rmMask ||| regBit .eflags }

/-- `rm_do_int_to`. The masked reads of cs and ip assert that the caller has set them. -/
def rmDoIntTo (flags cs ip : Word) : M σ Unit := do
  let rmreg ← reads State.rmreg
  rmDoInt flags rmreg.cs rmreg.ip
  setRmregs fun r => { r with cs := cs, ip := ip }

def rmInt (intno : Nat) (flags : Word) : M σ Unit := do
  let addr ← reads fun s => h.getRealModeInterruptVector s.host intno
  rmDoIntTo flags addr.segment addr.offset

/-! ## Shared pieces -/

def inDosSpace (s : State σ) (sel : Word) (off : Dword) : Bool :=
  let base := getSegmentBase h s sel
  !(base + off > 0x10ffef) && base &&& 0xf = 0

def dtaUnder1MB (s : State σ) : Dword := segoff2linear (s.client.lowmemSeg + DTA_Para_ADD) 0

def dtaOver1MB (s : State σ) : Dword :=
  selAdr h s s.client.userDtaSel s.client.userDtaOff s.clntIs32

/-- The parent PSP that `old_dos_terminate` finds at word 16h of the PSP: a segment, or a selector
of one, or 0. -/
def parentPsp (s : State σ) (link : Word) : Word :=
  if readWord s.mem (segoff2linear link 0) = 0x20cd then link
  else if validAndUsedSelector h s link && inDosSpace h s link 0 &&
      getSegmentLimit h s link ≥ 0xff then
    let addr := getSegmentBase h s link
    if addr &&& 0xf = 0 ∧ readWord s.mem addr = 0x20cd then loWord (addr >>> 4) else 0
  else 0

def oldDosTerminate : M σ Unit := do
  let psp ← reads (dosGetPsp h)
  let rmreg ← reads State.rmreg
  writeWordAt (segoff2linear psp 0xa) rmreg.ip
  writeWordAt (segoff2linear psp 0xa + 2) rmreg.cs
  setRmregs fun r => { r with cs := psp, ip := 0x100 }
  let link ← reads fun s => readWord s.mem (segoff2linear psp 0x16)
  let found ← reads fun s => parentPsp h s link
  let parent := if found = 0 then psp else found
  onlyIf (parent ≠ link) (writeWordAt (segoff2linear psp 0x16) parent)

/-- `get_ext_API`: the vendor name at DS:(E)SI selects the entry point. -/
def getExtApi : M σ Unit := do
  let ptr ← reads fun s => selAdrClnt h s s.scp.ds .esi
  let s ← reads id
  if stringAt s.mem ptr [0x4d, 0x53, 0x2d, 0x44, 0x4f, 0x53] then do
    let pma ← getApiHandler (.ldtAlias (s.clientNum - 1))
    answerApi pma
  else if stringAt s.mem ptr [0x57, 0x49, 0x4e, 0x4f, 0x53, 0x32] then do
    let pma ← getApiWinos2Handler (.ldtAliasWinos2 (s.clientNum - 1))
    answerApi pma
  else setCF
where
  /-- AL = 0, ES:EDI = the entry point, CF clear. -/
  answerApi (pma : Pmaddr) : M σ Unit :=
    setScp fun scp =>
      { scp with
        gpr := setGpr (setGpr scp.gpr .eax (scp.gpr .eax &&& ~~~0xff)) .edi pma.offset,
        es := pma.selector, eflags := scp.eflags &&& ~~~CF }

def passDs (r : Gpr) : M σ Unit := do
  setRmDs (← transBufferSeg)
  setRmLword r 0

def passEs (r : Gpr) (off : Word) : M σ Unit := do
  setRmEs (← transBufferSeg)
  setRmLword r off

def copyFromDs (r : Gpr) (n : Nat) : M σ Unit := do
  let seg ← transBufferSeg
  let src ← reads fun s => selAdrClnt h s s.scp.ds r
  memcpy (segoff2linear seg 0) src n

def copyFromEs (r : Gpr) (n : Nat) : M σ Unit := do
  let seg ← transBufferSeg
  let src ← reads fun s => selAdrClnt h s s.scp.es r
  memcpy (segoff2linear seg 0) src n

def stringFromDs (r : Gpr) : M σ Unit := do
  let src ← reads fun s => selAdrClnt h s s.scp.ds r
  let seg ← transBufferSeg
  snprintf (segoff2linear seg 0) MAX_DOS_PATH src

/-- Two windows of the client, DS:si of `n` bytes and ES:di of `k` bytes, laid out `paras` paragraphs
apart in the transfer buffer. -/
def passTwoWindows (si di : Gpr) (n k : Nat) (paras : Word) : M σ Unit := do
  let seg ← transBufferSeg
  setRmDs seg
  setRmLword si 0
  let src ← reads fun s => selAdrClnt h s s.scp.ds si
  memcpy (segoff2linear seg 0) src n
  setRmEs (seg + paras)
  setRmLword di 0
  let dst ← reads fun s => selAdrClnt h s s.scp.es di
  memcpy (segoff2linear (seg + paras) 0) dst k

/-! ## int 21h -/

def dosSetVector : M σ Unit := do
  let s ← reads id
  hostCall h (.setProtectedModeInterruptVector (loByte (s.scp.lword .eax))
    ⟨s.d16_32 (s.scp.gpr .edx), s.scp.ds⟩)

def dosGetVector : M σ Unit := do
  let desc ← reads fun s => h.getProtectedModeInterruptVector s.host (loByte (s.scp.lword .eax))
  setScp fun scp => { scp with es := desc.selector, gpr := setGpr scp.gpr .ebx desc.offset }

def outOfMemory : M σ Unit := do
  setCF
  let free ← reads fun s => h.getFreeMemoryInformation s.host
  setLword .ebx (loWord (free >>> 4))
  setLword .eax 0x08

def dosAllocate : M σ Unit := do
  let size ← reads fun s => zext (s.scp.lword .ebx) <<< 4
  let addr ← msdosMalloc h size
  if addr = 0 then outOfMemory h
  else do
    let sel ← allocateDescriptors h 1
    setSegmentBaseAddress h sel addr
    setSegmentLimit h sel (size - 1)
    setLword .eax sel
    clearCF

def dosFree : M σ Unit := do
  let sel ← reads fun s => s.scp.es
  let base ← reads fun s => getSegmentBase h s sel
  let err ← msdosFree h base
  if err = -1 then setCF
  else do
    clearCF
    freeDescriptor h sel
    freeSegRegs sel

def dosResize : M σ Unit := do
  let newSize ← reads fun s => zext (s.scp.lword .ebx) <<< 4
  let sel ← reads fun s => s.scp.es
  let base ← reads fun s => getSegmentBase h s sel
  let addr ← msdosRealloc h base newSize
  if addr = 0 then outOfMemory h
  else do
    setSegmentBaseAddress h sel addr
    setSegmentLimit h sel (newSize - 1)
    clearCF

/-- The copy loop of 09h: up to and including the first `$`, at most 65535 bytes. -/
def copyDollar (m : Memory) (d s : Dword) : Nat → Memory
  | 0 => m
  | n + 1 =>
    let m' := store m d [m s]
    if m' s = 0x24 then m' else copyDollar m' (d + 1) (s + 1) n

def dosPrintString : M σ Unit := do
  passDs .edx
  let seg ← transBufferSeg
  let src ← reads fun s => selAdrClnt h s s.scp.ds .edx
  setMem fun m => copyDollar m (segoff2linear seg 0) src 0xffff

def dosSetDta : M σ Unit := do
  let off ← reads fun s => s.d16_32 (s.scp.gpr .edx)
  let sel ← reads fun s => s.scp.ds
  let inDos ← reads fun s => inDosSpace h s sel off
  if inDos then do
    let base ← reads fun s => getSegmentBase h s sel
    setRmDs (loWord (base >>> 4))
    setClient fun c => { c with userDtaSel := 0 }
  else do
    setClient fun c => { c with userDtaSel := sel, userDtaOff := off }
    let lowmem ← reads fun s => s.client.lowmemSeg
    setRmDs (lowmem + DTA_Para_ADD)
    setRmLword .edx 0
    let under ← reads dtaUnder1MB
    let above ← reads (dtaOver1MB h)
    memcpy under above 0x80

def dosExec : M σ Unit := do
  let rma ← getExecHelper h
  let segment ← reads fun s => s.client.lowmemSeg + EXEC_Para_ADD
  setRmDs segment
  setRmLword .edx 0
  let name ← reads fun s => selAdrClnt h s s.scp.ds .edx
  snprintf (segoff2linear segment 0) MAX_DOS_PATH name
  let parSeg := segment + 17
  setRmEs parSeg
  setRmLword .ebx 0
  let block ← reads fun s => selAdrClnt h s s.scp.es .ebx
  memcpy (segoff2linear parSeg 0) block 0x20
  writeWordAt (segoff2linear parSeg 0) 0
  let off ← reads fun s => readWord s.mem (segoff2linear parSeg 2)
  let sel ← reads fun s => readWord s.mem (segoff2linear parSeg 4)
  let tailSeg := parSeg + 2
  writeWordAt (segoff2linear parSeg 4) tailSeg
  writeWordAt (segoff2linear parSeg 2) 0
  let tail ← reads fun s => selAdr h s sel (zext off) s.client.is32
  memcpy (segoff2linear tailSeg 0) tail 0x80
  let fcbSeg := tailSeg + 8
  writeWordAt (segoff2linear parSeg 6) 0
  writeWordAt (segoff2linear parSeg 8) fcbSeg
  writeWordAt (segoff2linear parSeg 0xa) 0
  writeWordAt (segoff2linear parSeg 0xc) fcbSeg
  memset (segoff2linear fcbSeg 0) 0 0x30
  restoreEnv h
  let flags ← reads fun s => loWord s.scp.eflags
  rmDoIntTo flags rma.segment rma.offset

def dosSetPsp : M σ Unit := do
  let sel ← reads fun s => s.scp.lword .ebx
  let inDos ← reads fun s => inDosSpace h s sel 0
  let base ← reads fun s => getSegmentBase h s sel
  if inDos then do
    setRmLword .ebx (loWord (base >>> 4))
    setClient fun c => { c with userPspSel := 0 }
  else do
    setClient fun c => { c with userPspSel := sel }
    let psp ← reads (dosGetPsp h)
    setRmLword .ebx psp
    memcpy (segoff2linear psp 0) base 0x100

def dosCreateSetPsp : M σ Unit := do
  let sel ← reads fun s => s.scp.lword .edx
  let inDos ← reads fun s => inDosSpace h s sel 0
  if inDos then do
    let base ← reads fun s => getSegmentBase h s sel
    setRmLword .edx (loWord (base >>> 4))
    setClient fun c => { c with userPspSel := 0 }
  else do
    setClient fun c => { c with userPspSel := sel }
    let psp ← reads (dosGetPsp h)
    setRmLword .edx psp

/-- 3Fh and 40h, which go to a helper that calls back for every chunk. -/
def dosLongIo (helper : Far → Far) : M σ Unit := do
  let rma ← reads fun s => helper (s.client.rmcbs .io)
  let ptr ← reads fun s => selAdrClnt h s s.scp.ds .edx
  let size ← reads fun s => s.d16_32 (s.scp.gpr .ecx)
  setIoBuffer ptr size
  passDs .edx
  setRmLword .ecx (loWord size)
  let flags ← reads fun s => loWord s.scp.eflags
  rmDoIntTo flags rma.segment rma.offset

def dosRename : M σ Unit := do
  let seg ← transBufferSeg
  setRmDs seg
  setRmLword .edx 0
  let old ← reads fun s => selAdrClnt h s s.scp.ds .edx
  snprintf (segoff2linear seg 0) MAX_DOS_PATH old
  setRmEs (seg + 0x20)
  setRmLword .edi 0
  let new ← reads fun s => selAdrClnt h s s.scp.es .edi
  snprintf (segoff2linear (seg + 0x20) 0) MAX_DOS_PATH new

def dosCanonicalize : M σ Unit := do
  let seg ← transBufferSeg
  setRmDs seg
  setRmLword .esi 0
  let src ← reads fun s => selAdrClnt h s s.scp.ds .esi
  memcpy (segoff2linear seg 0) src 0x100
  setRmEs (seg + 0x10)
  setRmLword .edi 0

def dosInternational (al : Byte) : M σ Unit := do
  let cx ← reads fun s => s.scp.lword .ecx
  if al = 0 then do
    passEs .edi 0
    copyFromEs h .edi cx.toNat
  else if 1 ≤ al && al ≤ 7 then passEs .edi 0
  else if al = 0x21 || al = 0xa1 then do
    passDs .edx
    copyFromDs h .edx cx.toNat
  else if al = 0x22 || al = 0xa2 then do
    passDs .edx
    let seg ← transBufferSeg
    let src ← reads fun s => selAdrClnt h s s.scp.ds .edx
    strcpy (segoff2linear seg 0) src
  else pure ()

def dosLfn (al : Byte) : M σ Outcome :=
  if al = 0x3b || al = 0x41 || al = 0x43 then do
    passDs .edx
    stringFromDs h .edx
    pure (.go false)
  else if al = 0x4e then do
    passDs .edx
    passEs .edi (BitVec.ofNat 16 MAX_DOS_PATH)
    stringFromDs h .edx
    pure (.go false)
  else if al = 0x4f then do
    passEs .edi 0
    copyFromEs h .edi 0x13e
    pure (.go false)
  else if al = 0x47 then do
    passDs .esi
    pure (.go false)
  else if al = 0x60 then do
    passDs .esi
    passEs .edi (BitVec.ofNat 16 MAX_DOS_PATH)
    stringFromDs h .esi
    pure (.go false)
  else if al = 0x6c then do
    passDs .esi
    stringFromDs h .esi
    pure (.go false)
  else if al = 0xa0 then do
    passDs .edx
    passEs .edi (BitVec.ofNat 16 MAX_DOS_PATH)
    stringFromDs h .edx
    pure (.go false)
  else if al = 0xa1 then pure (.go false)
  else if al = 0xa6 then do
    passDs .edx
    pure (.go false)
  else do
    setCF
    setScp fun scp => { scp with gpr := setGpr scp.gpr .eax (scp.gpr .eax &&& 0xffffff00) }
    pure (.ret .done)

def done (m : M σ Unit) : M σ Outcome := do
  m
  pure (.ret .done)

def goOn (m : M σ Unit) (altEnt : Bool := false) : M σ Outcome := do
  m
  pure (.go altEnt)

def preDos (f : DosFn) (al : Byte) : M σ Outcome :=
  match f with
  | .setVector => done (dosSetVector h)
  | .getVector => done (dosGetVector h)
  | .allocate => done (dosAllocate h)
  | .free => done (dosFree h)
  | .resize => done (dosResize h)
  | .plain => pure (.go false)
  | .terminate => goOn (do
      oldDosTerminate h
      rmPreserveCsIp
      setRmLword .eax 0x4c00)
  | .printString => goOn (dosPrintString h)
  | .setDta => goOn (dosSetDta h)
  | .unsupportedFcb => done (setScp fun scp =>
      { scp with gpr := setGpr scp.gpr .eax (scp.gpr .eax ||| 0xff00) })
  | .fcb => goOn (do
      passDs .edx
      copyFromDs h .edx 0x50)
  | .parseFcb => goOn (passTwoWindows h .esi .edi 0x100 0x50 0x10)
  | .getCwd => goOn (passDs .esi)
  | .exec => goOn (dosExec h) true
  | .setPsp => goOn (dosSetPsp h)
  | .createPsp => goOn (do setRmLword .edx (← transBufferSeg))
  | .createSetPsp => goOn (dosCreateSetPsp h)
  | .asciiz => goOn (do
      passDs .edx
      stringFromDs h .edx)
  | .country => goOn (passDs .edx)
  | .read => goOn (dosLongIo h getLrHelper) true
  | .write => goOn (dosLongIo h getLwHelper) true
  | .driveParams => goOn (passTwoWindows h .esi .ebp 0x30 0x60 3)
  | .rename => goOn (dosRename h)
  | .redirection =>
    goOn (onlyIf (2 ≤ al && al ≤ 6) (passTwoWindows h .esi .edi 0x100 0x100 0x10))
  | .canonicalize => goOn (dosCanonicalize h)
  | .extendedOpen => goOn (do
      passDs .esi
      stringFromDs h .esi)
  | .international => goOn (dosInternational h al)
  | .lfn => dosLfn h al

/-! ## The other interrupts -/

/-- int 15h/C207h: the PS/2 mouse handler. -/
def ps2SetHandler : M σ Unit := do
  let s ← reads id
  let off := s.d16_32 (s.scp.gpr .ebx)
  if s.scp.es ≠ 0 ∧ off ≠ 0 then do
    setClient fun c => { c with ps2mouseCallBack := ⟨off, s.scp.es⟩ }
    setRmEs (s.client.rmcbs .ps2ms).segment
    setRmLword .ebx (s.client.rmcbs .ps2ms).offset
  else do
    setRmEs 0
    setRmLword .ebx 0

/-- The real-mode side gets the mouse callback in place of the client's routine, or none. -/
def passMouseCallback (es : Word) (cbk : Far) : M σ Unit :=
  if es ≠ 0 then do
    setRmEs cbk.segment
    setRmLword .edx cbk.offset
  else do
    setRmEs 0
    setRmLword .edx 0

/-- int 33h/0Ch and 33h/14h: the mouse routine set or swapped. -/
def mouseSetHandler (swap : Bool) : M σ Unit := do
  let s ← reads id
  setClient fun c => { c with mouseCallBack := ⟨s.d16_32 (s.scp.gpr .edx), s.scp.es⟩ }
  passMouseCallback s.scp.es (s.client.rmcbs .ms)
  onlyIf swap (setScp fun scp =>
    { scp with
      es := s.client.mouseCallBack.selector,
      gpr := setGpr scp.gpr .edx
        (if s.client.is32 then s.client.mouseCallBack.offset
         else setLoWord (scp.gpr .edx) (loWord s.client.mouseCallBack.offset)) })

def preMultiplex (ax : Word) (act : Bool) : M σ Outcome :=
  if ax = 0x1688 then
    done (updates fun s => { s with scp := { s.scp with
      gpr := setGpr (setGpr s.scp.gpr .eax 0) .ebx (zext s.client.ldtAlias) } })
  else if ax = 0x168a then done (getExtApi h)
  else if ax = 0x4310 then pure (.go false)
  else if act then pure (.go false)
  else pure (.ret .none)

def preMouse (ax : Word) : M σ Outcome :=
  if ax = 0x09 then
    goOn (do
      passEs .edx 0
      copyFromEs h .edx 16)
  else if ax = 0x0c then goOn (mouseSetHandler false)
  else if ax = 0x14 then goOn (mouseSetHandler true)
  else pure (.go false)

def preSwitch (intr : Nat) (ax : Word) (act : Bool) : M σ Outcome :=
  if intr = 0x41 then pure (.ret .done)
  else if intr = 0x15 then
    goOn (onlyIf (hiByte ax = 0xc2 && loByte ax = 0x07) ps2SetHandler)
  else if intr = 0x20 then
    goOn (do
      oldDosTerminate h
      rmPreserveCsIp)
  else if intr = 0x21 then preDos h (dosFn (hiByte ax)) (loByte ax)
  else if intr = 0x2f then preMultiplex h ax act
  else if intr = 0x33 then preMouse h ax
  else if act then pure (.go false)
  else pure (.ret .none)

/-! ## The whole function -/

/-- `min((int) (limit + 1), 0x10000)` handed to `memcpy` as a `size_t`. -/
def segmentLen (limit : Dword) : Nat :=
  let len := limit + 1
  if len.toInt < 0x10000 then len.toNat else 0x10000

def dtaCopyIn (intr : Nat) : M σ Unit := do
  let s ← reads id
  onlyIf (s.client.userDtaSel ≠ 0 && intr = 0x21 && usesDta (hiByte (s.scp.lword .eax)))
    (memcpy (dtaUnder1MB s) (dtaOver1MB h s) 0x80)

def copyDsegIn (intr : Nat) : M σ Unit := do
  let ax ← reads fun s => s.scp.lword .eax
  onlyIf (needCopyDseg intr ax) (do
    setRmDs (← transBufferSeg)
    let sel ← reads fun s => s.scp.ds
    let src ← reads fun s => getSegmentBase h s sel
    let dst ← transBufferSeg
    let limit ← reads fun s => getSegmentLimit h s sel
    memcpy (segoff2linear dst 0) src (segmentLen limit))

def copyEsegIn (intr : Nat) : M σ Unit := do
  let ax ← reads fun s => s.scp.lword .eax
  onlyIf (needCopyEseg intr ax) (do
    setRmEs (← transBufferSeg)
    let sel ← reads fun s => s.scp.es
    let src ← reads fun s => getSegmentBase h s sel
    let dst ← transBufferSeg
    let limit ← reads fun s => getSegmentLimit h s sel
    memcpy (segoff2linear dst 0) src (segmentLen limit))

def preReturn (intr : Nat) (altEnt : Bool) : M σ Unit := do
  let flags ← reads fun s => loWord s.scp.eflags
  onlyIf (!altEnt) (rmInt h intr flags)
  updates fun s => { s with rMask := s.rmMask, rStkUsed := s.stkUsed }

def preFinish (intr : Nat) (altEnt : Bool) : M σ Unit := do
  copyDsegIn h intr
  copyEsegIn h intr
  preReturn h intr altEnt

def preMap (intr : Nat) : M σ Bool := do
  let ax ← reads fun s => s.scp.lword .eax
  onlyIf (needXbuf intr ax) (prepareEmsFrame h)
  pure (needXbuf intr ax)

def preEnter (intr : Nat) : M σ Unit := do
  updates fun s => { s with rmMask := s.rMask, stkUsed := 0 }
  dtaCopyIn h intr

def preLeave (intr : Nat) : Outcome → M σ MsdosRet
  | .ret r => pure r
  | .go altEnt => do
    preFinish h intr altEnt
    pure .rm

def msdosPreExtender (intr : Nat) : M σ MsdosRet := do
  preEnter h intr
  let act ← preMap h intr
  let ax ← reads fun s => s.scp.lword .eax
  let outcome ← preSwitch h intr ax act
  preLeave h intr outcome

end Pmdapi
