import Pmdapi.PreExtender

/-! `msdos_post_extender`: what is done to the answer of the real-mode service. -/

namespace Pmdapi
open Bytes Effect

inductive DosRet where
  | terminate | keepEdx | fcb | parseFcb | getDta | farPointer | setPsp | extendedOpen
  | createSetPsp | createPsp | extendedError | country | getCwd | exec | getPsp | driveParams
  | rename | serverCall | leadByte | longIo | redirection | canonicalize | international | lfn
  | other
  deriving DecidableEq, Repr

def dosRet (ah : Byte) : DosRet :=
  if ah = 0x00 then .terminate
  else if ah = 0x09 || ah = 0x1a then .keepEdx
  else if ah = 0x11 || ah = 0x12 || ah = 0x13 || ah = 0x16 || ah = 0x17 then .fcb
  else if ah = 0x29 then .parseFcb
  else if ah = 0x2f then .getDta
  else if ah = 0x34 || ah = 0x35 || ah = 0x52 then .farPointer
  else if ah = 0x39 || ah = 0x3a || ah = 0x3b || ah = 0x3c || ah = 0x3d || ah = 0x41 ||
      ah = 0x43 || ah = 0x4e || ah = 0x5b then .keepEdx
  else if ah = 0x50 then .setPsp
  else if ah = 0x6c then .extendedOpen
  else if ah = 0x55 then .createSetPsp
  else if ah = 0x26 then .createPsp
  else if ah = 0x59 then .extendedError
  else if ah = 0x38 then .country
  else if ah = 0x47 then .getCwd
  else if ah = 0x4b then .exec
  else if ah = 0x51 || ah = 0x62 then .getPsp
  else if ah = 0x53 then .driveParams
  else if ah = 0x56 then .rename
  else if ah = 0x5d then .serverCall
  else if ah = 0x63 then .leadByte
  else if ah = 0x3f || ah = 0x40 then .longIo
  else if ah = 0x5f then .redirection
  else if ah = 0x60 then .canonicalize
  else if ah = 0x65 then .international
  else if ah = 0x71 then .lfn
  else .other

variable {σ : Type} (h : DpmiHost σ)

/-- `PRESERVE1(reg)`. -/
def preserve (i : RegIndex) : M σ Unit :=
  updates fun s => { s with updateMask := s.updateMask &&& ~~~regBit i }

def preserveGpr (r : Gpr) : M σ Unit := preserve (.gpr r)

/-- `SET_REG(reg, v)` on a general register. -/
def setReg (r : Gpr) (v : Dword) : M σ Unit := do
  preserveGpr r
  setReg32 r v

def setRegEs (v : Word) : M σ Unit := do
  preserve .es
  setScp fun scp => { scp with es := v }

def setRegDs (v : Word) : M σ Unit := do
  preserve .ds
  setScp fun scp => { scp with ds := v }

def setRegEflags (f : Dword → Dword) : M σ Unit := do
  preserve .eflags
  setScp fun scp => { scp with eflags := f scp.eflags }

def selectorForEs : M σ Unit := do
  let seg ← reads fun s => s.rmreg.es
  let sel ← convertSegmentToDescriptor h seg
  setRegEs (loWord sel)

def selectorForDs : M σ Unit := do
  let seg ← reads fun s => s.rmreg.ds
  let sel ← convertSegmentToDescriptor h seg
  setRegDs (loWord sel)

/-- `RMREG(flags) & CF`. -/
def rmFailed (s : State σ) : Bool := s.rmreg.flags &&& loWord CF ≠ 0

def rmEsAdr (s : State σ) (off : Word) : Dword := segoff2linear s.rmreg.es off

def rmDsAdr (s : State σ) (off : Word) : Dword := segoff2linear s.rmreg.ds off

def copyToDs (r : Gpr) (n : Nat) : M σ Unit := do
  let dst ← reads fun s => selAdrClnt h s s.scp.ds r
  let src ← reads fun s => rmDsAdr s (s.rmreg.lword r)
  memcpy dst src n

def copyToEs (r : Gpr) (n : Nat) : M σ Unit := do
  let dst ← reads fun s => selAdrClnt h s s.scp.es r
  let src ← reads fun s => rmEsAdr s (s.rmreg.lword r)
  memcpy dst src n

def stringToDs (r : Gpr) (size : Nat) : M σ Unit := do
  let dst ← reads fun s => selAdrClnt h s s.scp.ds r
  let src ← reads fun s => rmDsAdr s (s.rmreg.lword r)
  snprintf dst size src

def stringToEs (r : Gpr) (size : Nat) : M σ Unit := do
  let dst ← reads fun s => selAdrClnt h s s.scp.es r
  let src ← reads fun s => rmEsAdr s (s.rmreg.lword r)
  snprintf dst size src

/-- Whatever follows `if (RMREG(flags) & CF) break;`. -/
def unlessFailed (m : M σ Unit) : M σ Unit := do
  let failed ← reads rmFailed
  onlyIf (!failed) m

/-! ## int 21h -/

def retParseFcb : M σ Unit := do
  preserveGpr .esi
  preserveGpr .edi
  let dst ← reads fun s => selAdrClnt h s s.scp.ds .esi
  let src ← reads fun s => rmDsAdr s 0
  memcpy dst src 0x100
  let esi ← reads fun s => s.scp.gpr .esi + zext (s.rmreg.lword .esi)
  setReg .esi esi
  copyToEs h .edi 0x50

def retGetDta : M σ Unit := do
  let s ← reads id
  if rmEsAdr s (s.rmreg.lword .ebx) = dtaUnder1MB s then do
    setRegEs s.client.userDtaSel
    setReg .ebx s.client.userDtaOff
  else do
    selectorForEs h
    setReg .ebx (zext (s.rmreg.lword .ebx))

def retCreatePsp : M σ Unit := do
  let s ← reads id
  memcpy (getSegmentBase h s (s.scp.lword .edx)) (segoff2linear (s.rmreg.lword .edx) 0) 0x100

def retGetPsp : M σ Unit := do
  let s ← reads id
  let psp := s.rmreg.lword .ebx
  if psp = dosGetPsp h s ∧ s.client.userPspSel ≠ 0 then setReg .ebx (zext s.client.userPspSel)
  else do
    let sel ← convertSegmentToDescriptorLim h psp 0xff
    setReg .ebx (zext sel)

def retIoError (io : IoBuffer) : M σ Unit :=
  if io.error then do
    setRegEflags (· ||| CF)
    setReg .eax (zext io.errorCode)
  else setRegEflags (· &&& ~~~CF)

def retLongIo : M σ Unit := do
  retIoError (← reads State.io)
  unsetIoBuffer
  preserveGpr .edx

def retInternational (al : Byte) : M σ Unit := do
  preserveGpr .edi
  preserveGpr .edx
  let s ← reads id
  unlessFailed (
    if 1 ≤ al && al ≤ 7 then copyToEs h .edi (s.rmreg.lword .ecx).toNat
    else if al = 0x21 || al = 0xa1 then copyToDs h .edx (s.scp.lword .ecx).toNat
    else if al = 0x22 || al = 0xa2 then
      strcpy (selAdrClnt h s s.scp.ds .edx) (rmDsAdr s (s.rmreg.lword .edx))
    else pure ())

def retLfn (al : Byte) : M σ Unit :=
  if al = 0x3b || al = 0x41 || al = 0x43 then preserveGpr .edx
  else if al = 0x4e then do
    preserveGpr .edx
    preserveGpr .edi
    unlessFailed (copyToEs h .edi 0x13e)
  else if al = 0x4f then do
    preserveGpr .edi
    unlessFailed (copyToEs h .edi 0x13e)
  else if al = 0x47 then do
    preserveGpr .esi
    unlessFailed (stringToDs h .esi MAX_DOS_PATH)
  else if al = 0x60 then do
    preserveGpr .esi
    preserveGpr .edi
    unlessFailed (stringToEs h .edi MAX_DOS_PATH)
  else if al = 0x6c then preserveGpr .esi
  else if al = 0xa0 then do
    preserveGpr .edx
    preserveGpr .edi
    let cx ← reads fun s => s.scp.lword .ecx
    unlessFailed (stringToEs h .edi cx.toNat)
  else if al = 0xa6 then do
    preserveGpr .edx
    unlessFailed (copyToDs h .edx 0x34)
  else pure ()

def postDos (f : DosRet) (al : Byte) : M σ Unit :=
  match f with
  | .terminate => preserveGpr .eax
  | .keepEdx => preserveGpr .edx
  | .fcb => do
    preserveGpr .edx
    copyToDs h .edx 0x50
  | .parseFcb => retParseFcb h
  | .getDta => retGetDta h
  | .farPointer => selectorForEs h
  | .setPsp => preserveGpr .ebx
  | .extendedOpen => preserveGpr .esi
  | .createSetPsp => do
    preserveGpr .edx
    let inDos ← reads fun s => inDosSpace h s (s.scp.lword .edx) 0
    onlyIf (!inDos) (retCreatePsp h)
  | .createPsp => do
    preserveGpr .edx
    retCreatePsp h
  | .extendedError => do
    let ax ← reads fun s => s.rmreg.lword .eax
    onlyIf (ax = 0x22) (selectorForEs h)
  | .country => do
    let dx ← reads fun s => s.scp.lword .edx
    onlyIf (dx ≠ 0xffff) (do
      preserveGpr .edx
      unlessFailed (copyToDs h .edx 0x18))
  | .getCwd => do
    preserveGpr .esi
    unlessFailed (stringToDs h .esi 0x40)
  | .exec => convertEnv h
  | .getPsp => retGetPsp h
  | .driveParams => do
    preserveGpr .esi
    preserveGpr .ebp
    copyToEs h .ebp 0x60
  | .rename => do
    preserveGpr .edx
    preserveGpr .edi
  | .serverCall => onlyIf (al = 0x06 || al = 0x0b) (selectorForDs h)
  | .leadByte => do
    let rmAl ← reads fun s => loByte (s.rmreg.lword .eax)
    onlyIf (al = 0 && rmAl = 0) (selectorForDs h)
  | .longIo => retLongIo
  | .redirection =>
    onlyIf (2 ≤ al && al ≤ 6) (do
      preserveGpr .esi
      preserveGpr .edi
      copyToDs h .esi 0x100
      copyToEs h .edi 0x100)
  | .canonicalize => do
    preserveGpr .esi
    preserveGpr .edi
    copyToEs h .edi 0x80
  | .international => retInternational h al
  | .lfn => retLfn h al
  | .other => pure ()

/-! ## The other interrupts -/

/-- int 25h and 26h leave the flags on the client's stack. -/
def retDisk : M σ Unit := do
  let is32 ← reads fun s => s.client.is32
  setScp fun scp => { scp with esp := scp.esp - if is32 then 4 else 2 }
  let s ← reads id
  setMem fun m =>
    if is32 then
      writeDword m (selAdr h s s.scp.ss (s.scp.esp - 4) is32) (zext s.rmreg.flags)
    else
      writeWord m (selAdr h s s.scp.ss (zext (loWord s.scp.esp) - 2) is32) s.rmreg.flags

/-- int 2Fh/4310h: the XMS entry replaced by one of our own. -/
def retXmsEntry : M σ Unit := do
  let s ← reads id
  setClient fun c => { c with xmsCall := ⟨s.rmreg.lword .ebx, s.rmreg.es⟩ }
  let pma ← getXmsHandler (.xmsCall (s.clientNum - 1))
  setRegEs pma.selector
  setReg .ebx pma.offset

def retMouse (ax : Word) : M σ Unit :=
  if ax = 0x09 || ax = 0x14 then preserveGpr .edx
  else if ax = 0x19 then do
    let seg ← reads fun s => s.rmreg.lword .ebx
    let sel ← convertSegmentToDescriptor h seg
    setReg .ebx sel
  else pure ()

def postSwitch (intr : Nat) (ax : Word) : M σ Unit :=
  if intr = 0x10 then onlyIf (ax = 0x1130) (selectorForEs h)
  else if intr = 0x15 then
    onlyIf (hiByte ax = 0xc0) (unlessFailed (selectorForEs h))
  else if intr = 0x2f then onlyIf (ax = 0x4310) retXmsEntry
  else if intr = 0x21 then postDos h (dosRet (hiByte ax)) (loByte ax)
  else if intr = 0x25 || intr = 0x26 then retDisk h
  else if intr = 0x33 then retMouse h ax
  else pure ()

/-! ## The whole function -/

def dtaCopyOut (intr : Nat) (ax : Word) : M σ Unit := do
  let s ← reads id
  onlyIf (s.client.userDtaSel ≠ 0 && intr = 0x21 && usesDta (hiByte ax))
    (memcpy (dtaOver1MB h s) (dtaUnder1MB s) 0x80)

def copyDsegOut (intr : Nat) (ax : Word) : M σ Unit :=
  onlyIf (needCopyDseg intr ax) (do
    let seg ← transBufferSeg
    let s ← reads id
    memcpy (getSegmentBase h s s.scp.ds) (segoff2linear seg 0)
      (segmentLen (getSegmentLimit h s s.scp.ds)))

def copyEsegOut (intr : Nat) (ax : Word) : M σ Unit :=
  onlyIf (needCopyEseg intr ax) (do
    let seg ← transBufferSeg
    let s ← reads id
    memcpy (getSegmentBase h s s.scp.es) (segoff2linear seg 0)
      (segmentLen (getSegmentLimit h s s.scp.es)))

def postCopies (intr : Nat) (ax : Word) : M σ Unit := do
  updates fun s => { s with updateMask := ~~~0 }
  dtaCopyOut h intr ax
  copyDsegOut h intr ax
  copyEsegOut h intr ax

def postRegs : M σ Unit :=
  updates fun s => { s with scp := rmToPmRegs s.scp s.rmreg s.updateMask }

def msdosPostExtender (intr : Nat) : M σ Unit := do
  let ax ← reads fun s => s.scp.lword .eax
  postCopies h intr ax
  postSwitch h intr ax
  onlyIf (needXbuf intr ax) (restoreEmsFrame h)
  postRegs

end Pmdapi
