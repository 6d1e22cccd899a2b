import Pmdapi.State

/-! The EMS frame behind the transfer buffer, and the tables that say which services need it. -/

namespace Pmdapi
open Bytes Effect

section Tables

variable (intr : Nat) (ax : Word)

def needCopyDseg : Bool :=
  let ah := hiByte ax
  let al := loByte ax
  if intr = 0x21 then
    if ah = 0x0a || ah = 0x5a || ah = 0x69 then true
    else if ah = 0x44 then 0x02 ≤ al && al ≤ 0x05 || al = 0x0c || al = 0x0d
    else if ah = 0x5d then al ≠ 0x06 && al ≠ 0x0b
    else if ah = 0x5e then al ≠ 0x03
    else false
  else intr = 0x25 || intr = 0x26

def needCopyEseg : Bool :=
  let ah := hiByte ax
  let al := loByte ax
  if intr = 0x10 then
    if ah = 0x10 then al = 0x02 || al = 0x09 || al = 0x12 || al = 0x17
    else if ah = 0x11 then al = 0x00 || al = 0x10 || al = 0x20 || al = 0x21
    else if ah = 0x13 || ah = 0x15 || ah = 0x1b then true
    else if ah = 0x1c then al = 1 || al = 2
    else false
  else if intr = 0x21 then
    if ah = 0x57 then !(al = 0 || al = 1)
    else if ah = 0x5e then al = 0x03
    else false
  else if intr = 0x33 then ah = 0x16 || ah = 0x17
  else false

def needXbufDos (ah al : Byte) : Bool :=
  if ah = 0x09 || ah = 0x11 || ah = 0x12 || ah = 0x13 || ah = 0x16 || ah = 0x17 || ah = 0x29 ||
      ah = 0x47 || ah = 0x26 || ah = 0x39 || ah = 0x3a || ah = 0x3b || ah = 0x3c || ah = 0x3d ||
      ah = 0x41 || ah = 0x43 || ah = 0x4e || ah = 0x5b || ah = 0x38 || ah = 0x3f || ah = 0x40 ||
      ah = 0x53 || ah = 0x56 then true
  else if ah = 0x5f then 2 ≤ al && al ≤ 6
  else if ah = 0x60 || ah = 0x6c then true
  else if ah = 0x65 then
    0 ≤ al && al ≤ 7 || al = 0x21 || al = 0xa1 || al = 0x22 || al = 0xa2
  else if ah = 0x71 then
    al = 0x3b || al = 0x41 || al = 0x43 || al = 0x4e || al = 0x4f || al = 0x47 || al = 0x60 ||
      al = 0x6c || al = 0xa0 || al = 0xa6
  else false

def needXbuf : Bool :=
  if needCopyDseg intr ax || needCopyEseg intr ax then true
  else if intr = 0x21 then needXbufDos (hiByte ax) (loByte ax)
  else if intr = 0x33 then ax = 0x09
  else false

end Tables

variable {σ : Type} (h : DpmiHost σ)

def logEvent (e : Event) : M σ Unit := updates fun s => { s with trace := s.trace ++ [e] }

/-- `trans_buffer_seg`: every evaluation is recorded with the state of the frame. -/
def transBufferSeg : M σ Word := do
  let mapped ← reads State.emsFrameMapped
  logEvent (.transBufferSeg mapped)
  onlyIf (!mapped) (logEvent (.error "EMS frame not mapped"))
  reads State.emmSeg

def emsMapSimple : List Word := [0, 0, 1, 1, 2, 2, 3, 3]

def prepareEmsFrame : M σ Unit := do
  let mapped ← reads State.emsFrameMapped
  if mapped then logEvent (.error "mapping already mapped EMS frame")
  else do
    let handle ← reads State.emsHandle
    hostCall h (.emmSavePageMap handle)
    hostCall h (.emmMapUnmapMultiple emsMapSimple handle)
    updates fun s => { s with emsFrameMapped := true }

def restoreEmsFrame : M σ Unit := do
  let mapped ← reads State.emsFrameMapped
  if mapped then do
    let handle ← reads State.emsHandle
    hostCall h (.emmRestorePageMap handle)
    updates fun s => { s with emsFrameMapped := false }
  else logEvent (.error "unmapping not mapped EMS frame")

end Pmdapi
