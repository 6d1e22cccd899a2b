import Pmdapi.EntryCodeLaw
import Pmdapi.Reentrancy

/-!
The stubs `_entry_MSDOS_*` executed, from the host's call to the return to its caller: what `enterStub` and
`leaveFrame` say of an activation on the caller's stack.
-/

namespace Pmdapi
open Bytes X86

/-- The doublewords that a stub's return takes: EIP and CS, and the flags of an interrupt. -/
def EntryStub.words (n : EntryStub) : Nat := if n.interrupt then 3 else 2

def stubBlock (S : Segments) (p : Processor) (n : EntryStub) : Block := ⟨p.stackTop S - 108, 108 + 4 * n.words⟩

def stubEntered (S : Segments) (p : Processor) (st : Statics) : Statics × Frame :=
  enterStub S.base (S.base (p.regs.seg .cs)) (registersOf p.regs) (readDword p.mem (p.stackTop S))
    (readDword p.mem (p.stackTop S + 4)) st

/-- The caller of a stub goes on in `u`, with the words `w` that the handler has left in `r`. -/
structure StubReturned (S : Segments) (d : EntryData) (n : EntryStub) (p : Processor) (f : Frame) (w : SigWords)
    (r u : Processor) : Prop where
  eip : u.regs.eip = w.eip
  cs : u.regs.seg .cs = low w.cs
  registers : registersOf u.regs =
    { leaveFrame { f with scp := w.frame } u.regs.eflags with
      esp := p.regs.gpr espReg + BitVec.ofNat 32 (4 * n.words) }
  eflags : n.interrupt = true → u.regs.eflags = readDword p.mem (p.stackTop S + 8)
  tmpFlags : readDword u.mem (S.base (p.regs.seg .cs) + d.tmpFlags) = w.eflags
  kept : KeptOutside [⟨S.base (p.regs.seg .cs) + d.tmpFlags, 4⟩, stubBlock S p n] r.mem u.mem

section

variable {S : Segments} {d : EntryData} {layout : Layout (entryCode d)} {n : EntryStub} {p : Processor}

theorem stubBlock_eq (S : Segments) (p : Processor) (n : EntryStub) (big : p.big S = true) :
    stackItems true (stackLinear S (p.regs.seg .ss) (p.regs.gpr espReg + BitVec.ofNat 32 (4 * n.words)))
      (n.words + 27) = stubBlock S p n := by
  have size : 4 * (n.words + 27) = 108 + 4 * n.words := by omega
  rw [OnStack.stackItems_above big, size]
  rfl

theorem stub_stack (n : EntryStub) (big : p.big S = true) :
    ∃ pre, pre.length + 2 = n.words ∧ (n.interrupt = true → pre = [readDword p.mem (p.stackTop S + 8)]) ∧
      OnStack S true (p.regs.gpr espReg + BitVec.ofNat 32 (4 * n.words)) (n.words + 27) p.mem p.regs
        (readDword p.mem (p.stackTop S) :: readDword p.mem (p.stackTop S + 4) :: pre) p := by
  have small : 4 * (n.words + 27) < 2 ^ 32 := by
    rw [EntryStub.words]
    split <;> decide
  have on := OnStack.of_memory S p big n.words (n.words + 27) (by omega) small
  cases kind : n.interrupt with
  | true =>
    have words : n.words = 3 := by rw [EntryStub.words, if_pos kind]
    have second : p.stackTop S + 4 + 4 = p.stackTop S + 8 := BitVec.add_assoc _ _ _
    rw [words] at on ⊢
    refine ⟨[readDword p.mem (p.stackTop S + 8)], rfl, fun _ => rfl, ?_⟩
    rw [← second]
    exact on
  | false =>
    have words : n.words = 2 := by rw [EntryStub.words, if_neg (by simp [kind])]
    rw [words] at on ⊢
    exact ⟨[], rfl, (by simp), on⟩

theorem stub_returns {t a b : Dword} {room : Nat} {m : Memory} {c : Context} {pre : List Dword} {v : Dword}
    (length : pre.length + 2 = n.words) (flags : n.interrupt = true → pre = [v])
    (big : S.big (c.seg .ss) = true)
    (comes : Comes S layout p (layout.place ⟨.stub n, 4⟩) true t room m c (a :: b :: pre)) :
    ∃ u f, LeadsTo S layout p u ∧ u.regs.eip = a ∧ u.regs.gpr espReg = t ∧ (n.interrupt = true → f = v) ∧
      OnStack S true t room m { c.withSeg .cs (low b) with eflags := f } [] u := by
  cases kind : n.interrupt with
  | true =>
    rw [flags kind] at comes
    have is : (entryCode d (.stub n))[4]? = some (.iret true) := by
      simp [entryCode, scpCallCode, kind]
    obtain ⟨u, reaches, eip, on⟩ := comes.iret is
    refine ⟨u, v, reaches, eip, ?_, fun _ => rfl, on⟩
    exact (on.esp_big big).trans (BitVec.sub_zero _)
  | false =>
    have none : pre = [] := by
      rw [EntryStub.words, if_neg (by simp [kind])] at length
      exact List.length_eq_zero_iff.mp (by omega)
    rw [none] at comes
    have is : (entryCode d (.stub n))[4]? = some (.lret true 0) := by
      simp [entryCode, scpCallCode, kind]
    obtain ⟨u, reaches, eip, on⟩ := comes.lret [] is
    refine ⟨u, c.eflags, reaches, eip.trans (cutItem_wide _), ?_, (by simp), ?_⟩
    · exact (on.esp_big big).trans (BitVec.sub_zero _)
    · rwa [cutItem_wide] at on

/-- A stub calls its handler with the frame of `enterStub`, and its caller goes on with the registers that
`leaveFrame` takes from the context. -/
theorem stub_served (n : EntryStub) {st : Statics} (eip : p.regs.eip = layout.place ⟨.stub n, 0⟩)
    (big : p.big S = true) (same : S.base (p.regs.seg .ss) = S.base (p.regs.seg .cs))
    (ready : ModuleReady S d (S.base (p.regs.seg .cs)) p.mem st)
    (clear : SlotsClear d (S.base (p.regs.seg .cs)) (stubBlock S p n)) :
    ∃ q, LeadsTo S layout p q ∧
      HandlerCalled S (d.stub n) (stubEntered S p st).2 (registersOf p.regs) st q ∧
      SlotsHold d (S.base (p.regs.seg .cs)) q.mem (stubEntered S p st).1 ∧
      KeptOutside [⟨S.base (p.regs.seg .cs) + d.tmpEbp, 4⟩, stubBlock S p n] p.mem q.mem ∧
      ∀ r, CdeclReturn S d (n.words + 3) q r → ∃ u, LeadsTo S layout r u ∧
        StubReturned S d n p (stubEntered S p st).2 (sigWordsAt r.mem (scpAddress S q)) r u := by
  obtain ⟨pre, length, flags, on⟩ := stub_stack n big
  have ebp : p.regs.gpr espReg - 4 =
      p.regs.gpr espReg + BitVec.ofNat 32 (4 * n.words) - BitVec.ofNat 32 (4 * (pre.length + 3)) := by
    have up : 4 * (pre.length + 3) = 4 * n.words + 4 := by omega
    rw [up, BitVec.ofNat_add]
    bv_omega
  obtain ⟨q, reaches, called, slots, kept, back⟩ := scpCall_served (r := registersOf p.regs)
    (f := (stubEntered S p st).2) rfl (Comes.start eip on) big (by omega) same ready
    (by rw [SlotsApart, stubBlock_eq S p n big]; exact clear) rfl rfl ebp rfl
  rw [stubBlock_eq S p n big] at kept
  have entered : (stubEntered S p st).1 = { st with tmpEbp := (stubEntered S p st).2.ebp } := by
    have own : S.base (registersOf p.regs).ss = S.base (p.regs.seg .cs) := same
    simp only [stubEntered, enterStub, doInt, if_pos own]
  refine ⟨q, reaches, called, entered ▸ slots, kept, fun r returned => ?_⟩
  have count : pre.length + 5 = n.words + 3 := by omega
  obtain ⟨c', registers, cs, comes⟩ := back r (count ▸ returned)
  generalize sigWordsAt r.mem (scpAddress S q) = w at *
  have ss : c'.seg .ss = p.regs.seg .ss := congrArg Registers.ss registers
  obtain ⟨u, f, reached, goes, esp, interrupted, after⟩ := stub_returns length flags (by rw [ss]; exact big) comes
  have block := stubBlock_eq S p n big
  rw [← ss] at block
  refine ⟨u, reached, goes, ?_, ?_, fun interrupt => ?_, ?_, ?_⟩
  · rw [after.seg]
    exact Context.withSeg_self c' .cs (low w.cs)
  · rw [registersOf_onStack after, esp, after.eflags]
    have back : registersOf { c'.withSeg .cs (low w.cs) with eflags := f } =
        { registersOf c' with eflags := f } := rfl
    rw [back, registers]
    rfl
  · rw [after.eflags, ← interrupted interrupt]
  · have slot := after.read_kept true (a := S.base (p.regs.seg .cs) + d.tmpFlags) (by
      show (stackItems true (stackLinear S (c'.seg .ss) _) _).Apart _
      rw [block]
      exact clear _ (by simp [EntryData.slots]))
    exact slot.trans (readItem_writeItem true _ _ _)
  · rw [← block]
    exact (KeptOutside.writeDword r.mem _ _).trans after.keptOutside

end

/-! ## An activation -/

def returnAtOnce (S : Segments) (q : Processor) : Processor := (q.drop S true).jumpTo (q.top S true)

theorem returnAtOnce_returns {S : Segments} (d : EntryData) (n : Nat) {q : Processor} (big : q.big S = true) :
    CdeclReturn S d n q (returnAtOnce S q) where
  eip := rfl
  esp := by
    show above (q.big S) (q.regs.gpr espReg) 4 = _
    rw [big]
    rfl
  ebp := rfl
  cs := rfl
  ss := rfl
  ds := rfl
  frame := AgreeOn.refl _
  slot := rfl

def residentData : EntryData where
  tmpFlags := 0x2000
  tmpEsp := 0x2004
  tmpSs := 0x2008
  tmpEbp := 0x200c
  dseg32 := 0x2010
  stackEnd := 0x8000
  stub n := BitVec.ofNat 32 (0x3000 + 16 * (EntryLabel.stub n).number)
  int21Handler := 0x4000

def flatSegments : Segments := ⟨fun _ => 0x10000, fun _ => true⟩

/-- The host has called a stub: 97h:1234h and the flags are on the stack. -/
def stubCalled (n : EntryStub) : Processor where
  regs := { gpr := fun _ => 0xa000, seg := fun _ => 0x97, eip := (roomyLayout residentData).place ⟨.stub n, 0⟩,
            eflags := 0x46 }
  mem := writeDword (writeDword (writeDword (writeDword (fun _ => 0) 0x12010 0x8f) 0x1a000 0x1234) 0x1a004 0x97)
    0x1a008 0x202

theorem stub_served_rmcb : ∃ q u, LeadsTo flatSegments (roomyLayout residentData) (stubCalled .rmcbCall0) q ∧
    q.regs.eip = 0x3040 ∧ (sigWordsAt q.mem (scpAddress flatSegments q)).eip = 0x1234 ∧
    LeadsTo flatSegments (roomyLayout residentData) (returnAtOnce flatSegments q) u ∧
    u.regs.eip = 0x1234 ∧ u.regs.gpr espReg = 0xa00c ∧ u.regs.eflags = 0x202 := by
  have block : stubBlock flatSegments (stubCalled .rmcbCall0) .rmcbCall0 = ⟨0x19f94, 120⟩ := by decide +kernel
  have apart : (Block.mk 0x19f94 120 ::
      residentData.slots.map fun a => Block.mk (flatSegments.base 0x97 + a) 4).Pairwise
      fun b c => b.length ≤ offset b.start c.start ∧ c.length ≤ offset c.start b.start := by decide
  obtain ⟨clear, distinct⟩ := List.pairwise_cons.mp (apart.imp fun far => Block.apart_of_offset far.1 far.2)
  have ready : ModuleReady flatSegments residentData (flatSegments.base 0x97) (stubCalled .rmcbCall0).mem
      residentStatics :=
    ⟨⟨by decide +kernel, by decide +kernel, by decide +kernel, by decide +kernel, by decide +kernel⟩, distinct, rfl⟩
  have stacked : readDword (stubCalled .rmcbCall0).mem ((stubCalled .rmcbCall0).stackTop flatSegments) = 0x1234 ∧
      readDword (stubCalled .rmcbCall0).mem ((stubCalled .rmcbCall0).stackTop flatSegments + 8) = 0x202 := by
    decide +kernel
  obtain ⟨q, reaches, called, -, -, back⟩ :=
    @stub_served flatSegments residentData (roomyLayout residentData) (stubCalled .rmcbCall0) .rmcbCall0
      residentStatics rfl rfl rfl ready (by
        rw [block]
        exact fun a among => clear _ (List.mem_map_of_mem among))
  obtain ⟨u, returns, after⟩ := back (returnAtOnce flatSegments q) (returnAtOnce_returns _ _ rfl)
  have eip : (sigWordsAt q.mem (scpAddress flatSegments q)).eip = 0x1234 :=
    (congrArg SigFrame.eip called.scp).trans stacked.1
  refine ⟨q, u, reaches, called.eip, eip, returns, after.eip.trans eip, ?_, ?_⟩
  · have raised : (0xa000 : Dword) + BitVec.ofNat 32 (4 * EntryStub.rmcbCall0.words) = 0xa00c := by decide
    exact (congrArg Registers.esp after.registers).trans raised
  · exact (after.eflags rfl).trans stacked.2

end Pmdapi
