import Pmdapi.Entry
import Pmdapi.Library.CodeRuns

/-!
The instructions of `entry.S` between a client's call and the C function that serves it. What `Entry`
says of an activation is what they do.
-/

namespace Pmdapi
open Bytes X86

inductive EntryStub where
  | apiCall | apiWinos2Call | xmsCall | rmcbCall0 | rmcbCall1 | rmcbCall2
  deriving DecidableEq, Repr

def EntryStub.interrupt : EntryStub → Bool
  | .apiCall | .apiWinos2Call | .xmsCall => false
  | .rmcbCall0 | .rmcbCall1 | .rmcbCall2 => true

inductive EntryLabel where
  | doInt
  | stub (n : EntryStub)
  | dosInt21
  | dos32Int21
  | dos16Int21
  deriving DecidableEq, Repr

/-- The addresses in the module's segment: the slots, the end of `stack`, and the C functions. -/
structure EntryData where
  tmpFlags : Dword
  tmpEsp : Dword
  tmpSs : Dword
  tmpEbp : Dword
  dseg32 : Dword
  stackEnd : Dword
  stub : EntryStub → Dword
  int21Handler : Dword

structure SigWords where
  gs : Dword
  fs : Dword
  es : Dword
  ds : Dword
  edi : Dword
  esi : Dword
  ebp : Dword
  esp : Dword
  ebx : Dword
  edx : Dword
  ecx : Dword
  eax : Dword
  trapno : Dword
  err : Dword
  eip : Dword
  cs : Dword
  eflags : Dword
  espAtSignal : Dword
  ss : Dword
  fpstate : Dword
  oldmask : Dword
  cr2 : Dword

def SigWords.list (w : SigWords) : List Dword :=
  [w.gs, w.fs, w.es, w.ds, w.edi, w.esi, w.ebp, w.esp, w.ebx, w.edx, w.ecx, w.eax, w.trapno, w.err, w.eip, w.cs,
    w.eflags, w.espAtSignal, w.ss, w.fpstate, w.oldmask, w.cr2]

def SigWords.frame (w : SigWords) : SigFrame where
  regs :=
    { eax := w.eax, ebx := w.ebx, ecx := w.ecx, edx := w.edx, esp := w.espAtSignal, ebp := w.ebp, esi := w.esi,
      edi := w.edi, eflags := w.eflags, ds := low w.ds, es := low w.es, fs := low w.fs, gs := low w.gs,
      ss := low w.ss }
  eip := w.eip
  cs := w.cs

def sigWordsAt (m : Memory) (a : Dword) : SigWords where
  gs := readDword m a
  fs := readDword m (a + 4)
  es := readDword m (a + 8)
  ds := readDword m (a + 12)
  edi := readDword m (a + 16)
  esi := readDword m (a + 20)
  ebp := readDword m (a + 24)
  esp := readDword m (a + 28)
  ebx := readDword m (a + 32)
  edx := readDword m (a + 36)
  ecx := readDword m (a + 40)
  eax := readDword m (a + 44)
  trapno := readDword m (a + 48)
  err := readDword m (a + 52)
  eip := readDword m (a + 56)
  cs := readDword m (a + 60)
  eflags := readDword m (a + 64)
  espAtSignal := readDword m (a + 68)
  ss := readDword m (a + 72)
  fpstate := readDword m (a + 76)
  oldmask := readDword m (a + 80)
  cr2 := readDword m (a + 84)

namespace Asm

abbrev eax : Operand := .reg 0
abbrev esp : Operand := .reg 4
abbrev ebp : Operand := .reg 5
abbrev esi : Operand := .reg 6
abbrev edi : Operand := .reg 7

abbrev frame (r : BitVec 3) (disp : Dword) : Operand := .mem true .ss (some r) disp

abbrev slot (seg : SegReg) (a : Dword) : Operand := .mem true seg none a

end Asm

section

variable (d : EntryData)

open Asm

def sigcontextEflags : Dword := 64

def doIntCode : List (Instruction EntryLabel) :=
  [ .plain (.sub true esp (.imm 12)),
    .plain (.push true (slot .cs d.tmpSs)),
    .plain (.push true (slot .cs d.tmpEsp)),
    .plain (.push true (slot .cs d.tmpFlags)),
    .plain (.push true (frame 5 8)),
    .plain (.push true (frame 5 4)),
    .plain (.push true (.imm 0)),
    .plain (.push true (.imm 0)),
    .plain .pusha,
    .plain (.push true (frame 5 0)),
    .plain (.pop true (frame 4 8)),
    .plain (.mov true (slot .ss d.tmpEbp) ebp),
    .plain (.pushSeg true .ds),
    .plain (.pushSeg true .es),
    .plain (.pushSeg true .fs),
    .plain (.pushSeg true .gs),
    .plain (.mov true eax (slot .cs d.dseg32)),
    .plain (.movToSeg .ds eax),
    .plain (.movToSeg .es eax),
    .plain (.push true esp),
    .callAt (frame 5 (-4)),
    .plain (.add true esp (.imm 4)),
    .plain (.mov true eax (frame 4 sigcontextEflags)),
    .plain (.mov true (slot .ds d.tmpFlags) eax),
    .plain (.popSeg true .gs),
    .plain (.popSeg true .fs),
    .plain (.popSeg true .es),
    .plain (.popSeg true .ds),
    .plain (.push true (frame 4 8)),
    .plain (.pop true (frame 5 0)),
    .plain .popa,
    .plain (.mov true ebp (slot .cs d.tmpEbp)),
    .plain (.add true esp (.imm 8)),
    .plain (.pop true (frame 5 4)),
    .plain (.pop true (frame 5 8)),
    .plain (.add true esp (.imm 24)),
    .ret ]

def scpCallCode (cname : Dword) (ir : Instruction EntryLabel) : List (Instruction EntryLabel) :=
  [ .plain (.enter 4),
    .plain (.mov true (frame 5 (-4)) (.imm cname)),
    .call ⟨.doInt, 0⟩,
    .plain .leave,
    ir ]

/-- From the saved registers on to the frame that lies under the private stack. -/
def switchCode (dosInt21 : Position EntryLabel) : List (Instruction EntryLabel) :=
  [ .plain (.lss (.mem true .ss (some 7) 0)),
    .plain (.push true esi),
    .plain (.push true edi),
    .plain (.pushSeg true .ds),
    .plain (.movToSeg .ds esi),
    .plain (.mov true esi (.mem true .ds (some 7) 12)),
    .plain (.mov true edi (.mem true .ds (some 7) 8)),
    .plain (.popSeg true .ds),
    .call dosInt21,
    .plain (.lss (frame 4 0)),
    .plain (.add true esp (.imm 16)) ]

/-- `_dos32_int21` and `_dos16_int21` up to the question which stack is in use. -/
def saveCode : List (Instruction EntryLabel) :=
  [ .plain (.push true esi),
    .plain (.push true edi),
    .plain (.pushSeg true .ds),
    .plain (.mov true edi (slot .cs d.dseg32)),
    .plain (.movToSeg .ds edi),
    .plain (.movFromSeg (slot .ds d.tmpSs) .ss),
    .plain (.pushf true),
    .plain (.pop true (slot .ds d.tmpFlags)),
    .plain (.mov true (slot .ds d.tmpEsp) esp),
    .plain (.add true (slot .ds d.tmpEsp) (.imm 12)),
    .plain (.popSeg true .ds),
    .plain (.movFromSeg esi .ss) ]

/-- The flags of `int21_handler`, and the far return to the client. -/
def leaveCode (lret : Instruction EntryLabel) : List (Instruction EntryLabel) :=
  [ .plain (.push true (slot .cs d.tmpFlags)),
    .plain (.popf true),
    lret ]

def entryCode : EntryLabel → List (Instruction EntryLabel)
  | .doInt => doIntCode d
  | .stub n => scpCallCode (d.stub n) (if n.interrupt then .iret true else .lret true 0)
  | .dosInt21 => scpCallCode d.int21Handler .ret
  | .dos32Int21 => saveCode d ++
    [ .plain (.cmp false (slot .cs d.dseg32) esi),
      .je ⟨.dos32Int21, 29⟩,
      .plain (.push true edi),
      .plain (.push true (.imm d.stackEnd)),
      .plain (.mov true edi esp) ] ++
    switchCode ⟨.dosInt21, 0⟩ ++
    [ .jmp ⟨.dos32Int21, 32⟩,
      .plain (.pop true edi),
      .plain (.pop true esi),
      .call ⟨.dosInt21, 0⟩ ] ++
    leaveCode d (.lret true 4)
  | .dos16Int21 => saveCode d ++
    [ .plain (.cmp false edi esi),
      .jne ⟨.dos16Int21, 17⟩,
      .plain (.pop true edi),
      .plain (.pop true esi),
      .jmp ⟨.dos32Int21, 0⟩,
      .plain (.push true edi),
      .plain (.push true (.imm d.stackEnd)),
      .plain (.movzx 7 esp) ] ++
    switchCode ⟨.dosInt21, 0⟩ ++
    leaveCode d (.lret false 2)

end

def EntryLabel.all : List EntryLabel :=
  [.doInt, .stub .apiCall, .stub .apiWinos2Call, .stub .xmsCall, .stub .rmcbCall0, .stub .rmcbCall1, .stub .rmcbCall2,
    .dosInt21, .dos32Int21, .dos16Int21]

def EntryLabel.number (l : EntryLabel) : Nat := all.idxOf l

def roomyLayout (d : EntryData) : Layout (entryCode d) where
  place here := BitVec.ofNat 32 (64 * here.label.number + here.index)
  fetch a := EntryLabel.all[a.toNat / 64]?.map (Position.mk · (a.toNat % 64))
  found l k inside := by
    have few : (entryCode d l).length ≤ 64 := by
      cases l <;> simp [entryCode, doIntCode, scpCallCode, saveCode, switchCode, leaveCode]
    have known : EntryLabel.all[l.number]? = some l ∧ l.number < 10 := by
      cases l with
      | stub n => cases n <;> exact ⟨rfl, by decide⟩
      | _ => exact ⟨rfl, by decide⟩
    have place : (BitVec.ofNat 32 (64 * l.number + k)).toNat = 64 * l.number + k :=
      Nat.mod_eq_of_lt (by omega)
    have label : (64 * l.number + k) / 64 = l.number := by omega
    have index : (64 * l.number + k) % 64 = k := by omega
    rw [place, label, index, known.1]
    rfl

/-! ## Entries and exits -/

def EntryData.slots (d : EntryData) : List Dword := [d.tmpFlags, d.tmpEsp, d.tmpSs, d.tmpEbp, d.dseg32]

structure SlotsHold (d : EntryData) (base : Dword) (m : Memory) (st : Statics) : Prop where
  tmpFlags : readDword m (base + d.tmpFlags) = st.tmpFlags
  tmpEsp : readDword m (base + d.tmpEsp) = st.tmpEsp
  tmpSs : low (readDword m (base + d.tmpSs)) = st.tmpSs
  tmpEbp : readDword m (base + d.tmpEbp) = st.tmpEbp
  dseg32 : readDword m (base + d.dseg32) = st.dseg32.setWidth 32

def SlotsDistinct (d : EntryData) (base : Dword) : Prop :=
  (d.slots.map fun a => Block.mk (base + a) 4).Pairwise Block.Apart

structure ModuleReady (S : Segments) (d : EntryData) (base : Dword) (m : Memory) (st : Statics) : Prop where
  slots : SlotsHold d base m st
  distinct : SlotsDistinct d base
  data : S.base st.dseg32 = base

def SlotsClear (d : EntryData) (base : Dword) (b : Block) : Prop := ∀ a ∈ d.slots, b.Apart ⟨base + a, 4⟩

def registersOf (c : Context) : Registers where
  eax := c.gpr 0
  ebx := c.gpr 3
  ecx := c.gpr 1
  edx := c.gpr 2
  esp := c.gpr espReg
  ebp := c.gpr ebpReg
  esi := c.gpr 6
  edi := c.gpr 7
  eflags := c.eflags
  ds := c.seg .ds
  es := c.seg .es
  fs := c.seg .fs
  gs := c.seg .gs
  ss := c.seg .ss

def scpAddress (S : Segments) (q : Processor) : Dword := q.stackTop S + 8

/-- A C function that was called in `q` has returned in `r`. It kept its caller's frame pointer and segments,
the `n` words behind the context, and `tmp_ebp`. -/
structure CdeclReturn (S : Segments) (d : EntryData) (n : Nat) (q r : Processor) : Prop where
  eip : r.regs.eip = q.top S true
  esp : r.regs.gpr espReg = q.regs.gpr espReg + 4
  ebp : r.regs.gpr ebpReg = q.regs.gpr ebpReg
  cs : r.regs.seg .cs = q.regs.seg .cs
  ss : r.regs.seg .ss = q.regs.seg .ss
  ds : r.regs.seg .ds = q.regs.seg .ds
  frame : AgreeOn (Block.mk (scpAddress S q + 88) (4 * n)).Covers q.mem r.mem
  slot : readDword r.mem (S.base (q.regs.seg .cs) + d.tmpEbp) = readDword q.mem (S.base (q.regs.seg .cs) + d.tmpEbp)

structure HandlerCalled (S : Segments) (target : Dword) (f : Frame) (r : Registers) (st : Statics) (q : Processor) :
    Prop where
  eip : q.regs.eip = target
  argument : readDword q.mem (q.stackTop S + 4) = q.regs.gpr espReg + 8
  scp : (sigWordsAt q.mem (scpAddress S q)).frame = f.scp
  registers : registersOf q.regs = { handlerRegisters f r st with eflags := q.regs.eflags }

end Pmdapi
