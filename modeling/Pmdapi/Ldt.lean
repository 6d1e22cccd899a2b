import Pmdapi.Library.Effect
import Pmdapi.Cpu

/-! The read-only LDT alias: a client's write to it faults, and is carried out on the shadow LDT and
on the real one. -/

namespace Pmdapi
open Bytes Effect

def LDT_ENTRIES : Nat := 8192

abbrev Descriptor := Fin 8 → Byte

namespace Descriptor

def present (d : Descriptor) : Bool := d 5 &&& 0x80 ≠ 0

def codeOrData (d : Descriptor) : Bool := d 5 &&& 0x10 ≠ 0

/-- What stands in the real LDT for a descriptor that is not one of a segment. -/
def dummy : Descriptor := fun i => if i = 5 then 0x70 else 0

end Descriptor

structure LdtReport where
  entry : Nat
  bytes : List Byte

structure LdtChange (σ : Type) where
  host : σ
  reports : List LdtReport

/-- The descriptor calls of a host. Reading a free entry fails. -/
structure LdtHost (σ : Type) where
  getDescriptor : σ → Word → Option Descriptor
  setDescriptor : σ → Word → Descriptor → LdtChange σ
  /-- Whether the allocation failed, and the change. -/
  allocateSpecific : σ → Word → Bool × LdtChange σ

/-- The static variables of `msdos_ldt.c`, over a host, and the stack behind the array `lp` of
`direct_ldt_write`. -/
structure LdtState (σ : Type) where
  host : σ
  backbuf : Option (Nat → Byte)
  entryUpd : Int
  scp : Sigcontext
  behindLp : Nat → Byte

def overlay (dst : Nat → Byte) (start : Nat) (src : List Byte) : Nat → Byte :=
  fun a => if start ≤ a then src.getD (a - start) (dst a) else dst a

def lpFrame (lp : Descriptor) (behindLp : Nat → Byte) : Nat → Byte :=
  fun i => if small : i < 8 then lp ⟨i, small⟩ else behindLp (i - 8)

def shadowOf (backbuf : Nat → Byte) (entry : Nat) : Descriptor := fun i => backbuf (entry * 8 + i)

def selectorOf (entry : Nat) : Word := BitVec.ofNat 16 (entry <<< 3 ||| 7)

variable {σ : Type} (h : LdtHost σ)

abbrev LdtM (σ : Type) := StateM (LdtState σ)

def msdosLdtSetup (backbuf : Option (Nat → Byte)) : LdtM σ Unit :=
  updates fun s => { s with backbuf := backbuf, entryUpd := -1 }

def msdosLdtUpdate (entry : Nat) (buf : List Byte) : LdtM σ Unit :=
  updates fun s =>
    if entry ≠ s.entryUpd then { s with backbuf := s.backbuf.map fun b => overlay b (entry * 8) buf }
    else s

def report (reports : List LdtReport) : LdtM σ Unit :=
  reports.forM fun r => msdosLdtUpdate r.entry r.bytes

def setDescriptor (selector : Word) (lp : Descriptor) : LdtM σ Unit := do
  let change ← reads fun s => h.setDescriptor s.host selector lp
  updates fun s => { s with host := change.host }
  report change.reports

/-- `DPMI_allocate_specific_ldt_descriptor`, true on failure. -/
def allocateSpecificLdtDescriptor (selector : Word) : LdtM σ Bool := do
  let answer ← reads fun s => h.allocateSpecific s.host selector
  updates fun s => { s with host := answer.2.host }
  report answer.2.reports
  pure answer.1

/-- The real descriptor, allocated if the entry is free. -/
def fetchDescriptor (selector : Word) : LdtM σ (Option Descriptor) := do
  let found ← reads fun s => h.getDescriptor s.host selector
  match found with
  | some lp => pure (some lp)
  | none => do
    let err ← allocateSpecificLdtDescriptor h selector
    if err then pure none else reads fun s => h.getDescriptor s.host selector

/-- The real LDT gets the descriptor, or the dummy if it is none of a segment. -/
def installDescriptor (selector : Word) (lp : Descriptor) : LdtM σ Unit :=
  if lp.codeOrData then setDescriptor h selector lp
  else do
    setDescriptor h selector .dummy
    updates fun s => { s with scp := s.scp.freeSegRegs selector }

/-- The write merged into what the entry held: the real descriptor if it is present, else the shadow.
Nothing bounds the `memcpy` by the size of `lp`. -/
def mergeDescriptor (entry offs : Nat) (buffer : List Byte) (lp : Descriptor) : LdtM σ Unit := do
  let old ← reads fun s => s.backbuf.elim lp fun b => if lp.present then lp else shadowOf b entry
  let behindLp ← reads LdtState.behindLp
  let frame := overlay (lpFrame old behindLp) offs buffer
  updates fun s => { s with behindLp := fun i => frame (8 + i) }
  let lp := shadowOf frame 0
  installDescriptor h (selectorOf entry) lp
  updates fun s => { s with backbuf := s.backbuf.map fun b => overlay b (entry * 8) (List.ofFn lp) }

def directLdtWrite (offset : Nat) (buffer : List Byte) : LdtM σ Unit := do
  let backbuf ← reads LdtState.backbuf
  let entry := offset / 8
  onlyIf backbuf.isSome (do
    updates fun s => { s with entryUpd := entry }
    let lp ← fetchDescriptor h (selectorOf entry)
    lp.forM (mergeDescriptor h entry (offset % 8) buffer)
    updates fun s => { s with entryUpd := -1 })

end Pmdapi
