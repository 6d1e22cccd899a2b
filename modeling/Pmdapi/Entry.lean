import Pmdapi.Library.Bytes

/-!
`entry.S` and `calls.c`: how the resident module is entered and how it calls on. A frame is the record
of what the entry code pushed, with the addresses it occupies. Return addresses and the words the
called code finds on its stack are left out.
-/

namespace Pmdapi
open Bytes

structure Registers where
  eax : Dword
  ebx : Dword
  ecx : Dword
  edx : Dword
  esp : Dword
  ebp : Dword
  esi : Dword
  edi : Dword
  eflags : Dword
  ds : Word
  es : Word
  fs : Word
  gs : Word
  ss : Word
  deriving DecidableEq, Repr

/-- `struct sigcontext`: `esp_at_signal` and `ss` are the stack in `regs`, and `cs` stands with its
padding. -/
structure SigFrame where
  regs : Registers
  eip : Dword
  cs : Dword
  deriving DecidableEq, Repr

structure Statics where
  tmpFlags : Dword
  tmpEsp : Dword
  tmpSs : Word
  tmpEbp : Dword
  dseg32 : Word
  savedContext : SigFrame
  dosContext : SigFrame
  deriving DecidableEq, Repr

inductive ModuleEntry where
  | int21 (is32 : Bool)
  | stub
  deriving DecidableEq, Repr

/-- The frame of an activation: the client's registers at its start, the stack its handler runs on,
its frame pointer, and the context the handler is given. -/
structure Frame where
  entry : ModuleEntry
  start : Registers
  switched : Bool
  ss : Word
  ebp : Dword
  scp : SigFrame
  deriving DecidableEq, Repr

/-- Bytes from the stack pointer at the call of the handler up to the frame pointer. -/
def frameDepth : Nat := 104

/-- Bytes from the frame pointer up: the saved EBP, the return address of `dos_int21`, and the
client's stack pointer under the private stack's top. -/
def Frame.height (f : Frame) : Nat :=
  match f.entry with
  | .stub => 4
  | .int21 _ => if f.switched then 16 else 8

section

variable (base : Word → Dword) (moduleBase stackTop afterInt21 : Dword)

def Frame.Occupies (f : Frame) (a : Dword) : Prop :=
  offset (base f.ss + f.ebp - BitVec.ofNat 32 frameDepth) a < frameDepth + f.height

/-- `do_int` up to the call of the handler, with the words at 4(%ebp) and 8(%ebp). The write to
`%ss:tmp_ebp` meets the slot only if the stack segment starts where the module does. -/
def doInt (r : Registers) (ss : Word) (ebp eip cs : Dword) (st : Statics) : Statics × SigFrame :=
  ({ st with tmpEbp := if base ss = moduleBase then ebp else st.tmpEbp },
    { regs := { r with eflags := st.tmpFlags, esp := st.tmpEsp, ss := st.tmpSs }, eip := eip, cs := cs })

/-- `_dos32_int21` or `_dos16_int21` up to the call of `int21_handler`; `eip` is what the client's
interrupt pushed. The private stack always starts at its top. -/
def enterInt21 (is32 : Bool) (r : Registers) (eip : Dword) (st : Statics) : Statics × Frame :=
  let st := { st with tmpSs := r.ss, tmpFlags := r.eflags, tmpEsp := r.esp }
  let switched : Bool := r.ss ≠ st.dseg32
  let ss := if switched then st.dseg32 else r.ss
  let under := r.esp - 16
  let pushed := if is32 then under else (under.setWidth 16).setWidth 32
  let ebp := (if switched then stackTop - 8 else r.esp) - 8
  let int := doInt base moduleBase r ss ebp afterInt21 (if switched then pushed else eip) st
  (int.1, ⟨.int21 is32, r, switched, ss, ebp, int.2⟩)

/-- `_entry_MSDOS_*` up to the call of its handler, on the caller's stack. -/
def enterStub (r : Registers) (eip cs : Dword) (st : Statics) : Statics × Frame :=
  let ebp := r.esp - 4
  let int := doInt base moduleBase r r.ss ebp eip cs st
  (int.1, ⟨.stub, r, false, r.ss, ebp, int.2⟩)

def enterFrame (e : ModuleEntry) (r : Registers) (eip cs : Dword) (st : Statics) : Statics × Frame :=
  match e with
  | .int21 is32 => enterInt21 base moduleBase stackTop afterInt21 is32 r eip st
  | .stub => enterStub base moduleBase r eip cs st

def handlerRegisters (f : Frame) (r : Registers) (st : Statics) : Registers :=
  { r with
    eax := st.dseg32.setWidth 32, ds := st.dseg32, es := st.dseg32, ss := f.ss, ebp := f.ebp,
    esp := f.ebp - BitVec.ofNat 32 frameDepth }

/-- The end of an activation, where the frame pointer that `tmp_ebp` gives back is its own: `do_int`
behind the handler, `leave`, and the way back to the client's stack. `8(%ebp)` of a switched frame is
where the client's stack pointer lies. A stub ends with the `flags` that its own instructions left. -/
def leaveFrame (f : Frame) (flags : Dword) : Registers :=
  match f.entry with
  | .stub => { f.scp.regs with esp := f.ebp + 4, ss := f.ss, eflags := flags }
  | .int21 _ =>
    if f.switched then { f.scp.regs with esp := f.scp.cs + 16, ss := f.start.ss }
    else { f.scp.regs with esp := f.ebp + 8, ss := f.ss }

/-- `do_pm_int_call32` and `do_pm_int_call16` up to the far call: the slots, and the registers of the
called code. The caller's registers are written through `%ss:`. -/
def beginCall (scp : SigFrame) (r : Registers) (st : Statics) : Statics × Registers :=
  let saved := if base r.ss = moduleBase then { st.savedContext with regs := r } else st.savedContext
  ({ st with dosContext := scp, savedContext := saved }, scp.regs)

/-- Behind the far call, which returned with registers `r`: the slots, the registers of the caller,
and its `*scp`. The stack of `dos_context` is not saved. -/
def endCall (r : Registers) (st : Statics) : Statics × Registers × SigFrame :=
  let saved := st.savedContext.regs
  let dos := st.dosContext
  let dos := if base saved.ss = moduleBase then
    { dos with regs := { r with esp := dos.regs.esp, ss := dos.regs.ss } } else dos
  ({ st with dosContext := dos }, saved, dos)

end

end Pmdapi
