import Pmdapi.EntryCodeLaw
import Pmdapi.Library.Records
import Pmdapi.Reentrancy

/-!
`calls.c`: a handler calls code that belongs to its client. The inline assembly of `do_pm_int_call32` and
`do_pm_int_call16` is executed; the C assignments around it are made to the memory. What `Entry` says of a call is
what they do.
-/

namespace Pmdapi
open Bytes X86

inductive PmIntCall where
  | int32
  | int16
  deriving DecidableEq, Repr

def PmIntCall.wide : PmIntCall → Bool
  | .int32 => true
  | .int16 => false

/-- The addresses in the module's segment. Each function has a `saddr` of its own. -/
structure CallsData where
  savedContext : Dword
  dosContext : Dword
  saddr : PmIntCall → Dword

inductive SigField where
  | gs | fs | es | ds | edi | esi | ebp | ebx | edx | ecx | eax | eflags | espAtSignal | ss

def SigField.number : SigField → Nat
  | .gs => 0
  | .fs => 1
  | .es => 2
  | .ds => 3
  | .edi => 4
  | .esi => 5
  | .ebp => 6
  | .ebx => 8
  | .edx => 9
  | .ecx => 10
  | .eax => 11
  | .eflags => 16
  | .espAtSignal => 17
  | .ss => 18

section

variable {Label : Type} (b : Dword)

open Asm

abbrev field (seg : SegReg) (f : SigField) : Operand := slot seg (wordAddress b f.number)

def saveContext : List (Instruction Label) :=
  [ .plain (.movFromSeg (field b .ss .ds) .ds),
    .plain (.movFromSeg (field b .ss .es) .es),
    .plain (.movFromSeg (field b .ss .fs) .fs),
    .plain (.movFromSeg (field b .ss .gs) .gs),
    .plain (.pushf true),
    .plain (.pop true (field b .ss .eflags)),
    .plain (.mov true (field b .ss .ebp) (.reg 5)),
    .plain (.mov true (field b .ss .ecx) (.reg 1)),
    .plain (.mov true (field b .ss .edx) (.reg 2)),
    .plain (.mov true (field b .ss .ebx) (.reg 3)),
    .plain (.mov true (field b .ss .esi) (.reg 6)),
    .plain (.mov true (field b .ss .edi) (.reg 7)),
    .plain (.mov true (field b .ss .eax) (.reg 0)) ]

def saveStack : List (Instruction Label) :=
  [ .plain (.movFromSeg (field b .ss .ss) .ss),
    .plain (.mov true (field b .ss .espAtSignal) esp) ]

def loadContext : List (Instruction Label) :=
  [ .plain (.movToSeg .ds (field b .cs .ds)),
    .plain (.movToSeg .es (field b .cs .es)),
    .plain (.movToSeg .fs (field b .cs .fs)),
    .plain (.movToSeg .gs (field b .cs .gs)),
    .plain (.push true (field b .cs .eflags)),
    .plain (.popf true),
    .plain (.mov true (.reg 5) (field b .cs .ebp)),
    .plain (.mov true (.reg 1) (field b .cs .ecx)),
    .plain (.mov true (.reg 2) (field b .cs .edx)),
    .plain (.mov true (.reg 3) (field b .cs .ebx)),
    .plain (.mov true (.reg 6) (field b .cs .esi)),
    .plain (.mov true (.reg 7) (field b .cs .edi)),
    .plain (.mov true (.reg 0) (field b .cs .eax)) ]

def switchStack : Instruction Label := .plain (.lss (field b .cs .espAtSignal))

end

section

variable (d : CallsData)

def pmIntCallCode (n : PmIntCall) : List (Instruction PmIntCall) :=
  saveContext d.savedContext ++ saveStack d.savedContext ++ loadContext d.dosContext ++
  [ switchStack d.dosContext,
    .plain (.pushf n.wide),
    .lcallAt n.wide (Asm.slot .cs (d.saddr n)),
    switchStack d.savedContext ] ++
  saveContext d.dosContext ++ loadContext d.savedContext

def pmIntCallBack : Nat := 31

def pmIntCallEnd : Nat := 58

variable (base : Dword)

def CallsData.saved : Block := ⟨base + d.savedContext, 88⟩

def CallsData.dos : Block := ⟨base + d.dosContext, 88⟩

def CallsData.address (n : PmIntCall) : Block := ⟨base + d.saddr n, itemSize n.wide + 2⟩

/-- `dos_context = *scp; saddr = *addr`. -/
def assignCall (n : PmIntCall) (scp addr : Dword) (m : Memory) : Memory :=
  copy (copy m (d.dos base).start scp 88) (d.address base n).start addr (d.address base n).length

def assignBack (scp : Dword) (m : Memory) : Memory := copy m scp (d.dos base).start 88

def callSlots (m : Memory) (st : Statics) : Statics :=
  { st with
    savedContext := (sigWordsAt m (d.saved base).start).frame
    dosContext := (sigWordsAt m (d.dos base).start).frame }

end

/-! ## Contexts saved and loaded -/

/-- The words that `SAVE_CONTEXT` leaves; of a segment register's word it writes the lower half. -/
def savedWords (w : SigWords) (c : Context) : SigWords :=
  { w with
    gs := setLow w.gs (c.seg .gs), fs := setLow w.fs (c.seg .fs), es := setLow w.es (c.seg .es)
    ds := setLow w.ds (c.seg .ds), edi := c.gpr 7, esi := c.gpr 6, ebp := c.gpr ebpReg, ebx := c.gpr 3
    edx := c.gpr 2, ecx := c.gpr 1, eax := c.gpr 0, eflags := c.eflags }

def loadedContext (w : SigWords) (c : Context) : Context :=
  let c := (((c.withSeg .ds (low w.ds)).withSeg .es (low w.es)).withSeg .fs (low w.fs)).withSeg .gs (low w.gs)
  ((((((({ c with eflags := w.eflags }.withGpr 5 w.ebp).withGpr 1 w.ecx).withGpr 2 w.edx).withGpr 3 w.ebx).withGpr 6
    w.esi).withGpr 7 w.edi).withGpr 0 w.eax)

theorem savedWords_frame (w : SigWords) (c : Context) : (savedWords w c).frame =
    { w.frame with regs := { registersOf c with esp := w.espAtSignal, ss := low w.ss } } := by
  simp only [SigWords.frame, savedWords, registersOf, low_setLow]

section

variable {S : Segments} {Label : Type} {code : Label → List (Instruction Label)} {layout : Layout code}
  {p : Processor} {l : Label} {k : Nat} {t b : Dword} {room : Nat} {m : Memory} {c : Context}
  {values : List Dword} {w : SigWords}

theorem saveContext_records (stands : CodeAt code l k (saveContext b))
    (start : Records S layout p (layout.place ⟨l, k⟩) t room (S.base (c.seg .ss) + b) 22 m c values w.list)
    (fits : values.length < room)
    (apart : (stackItems true (stackLinear S (c.seg .ss) t) room).Apart ⟨S.base (c.seg .ss) + b, 88⟩) :
    Records S layout p (layout.place ⟨l, k + 13⟩) t room (S.base (c.seg .ss) + b) 22 m c values
      (savedWords w c).list := by
  have s1 := start.saveSeg rfl (by decide) (by decide) apart .ds (j := 3) rfl (stands.get 0 rfl)
  have s2 := s1.saveSeg rfl (by decide) (by decide) apart .es (j := 2) rfl (stands.get 1 rfl)
  have s3 := s2.saveSeg rfl (by decide) (by decide) apart .fs (j := 1) rfl (stands.get 2 rfl)
  have s4 := s3.saveSeg rfl (by decide) (by decide) apart .gs (j := 0) rfl (stands.get 3 rfl)
  have s5 := s4.saveFlags rfl (j := 16) (by decide) (by decide) apart fits (stands.get 4 rfl) (stands.get 5 rfl)
  have s6 := s5.save rfl (j := 6) (by decide) (by decide) apart (stands.get 6 rfl) fun m' q on =>
    on.read_reg (by decide) true
  have s7 := s6.save rfl (j := 10) (by decide) (by decide) apart (stands.get 7 rfl) fun m' q on =>
    on.read_reg (by decide) true
  have s8 := s7.save rfl (j := 9) (by decide) (by decide) apart (stands.get 8 rfl) fun m' q on =>
    on.read_reg (by decide) true
  have s9 := s8.save rfl (j := 8) (by decide) (by decide) apart (stands.get 9 rfl) fun m' q on =>
    on.read_reg (by decide) true
  have s10 := s9.save rfl (j := 5) (by decide) (by decide) apart (stands.get 10 rfl) fun m' q on =>
    on.read_reg (by decide) true
  have s11 := s10.save rfl (j := 4) (by decide) (by decide) apart (stands.get 11 rfl) fun m' q on =>
    on.read_reg (by decide) true
  exact s11.save rfl (j := 11) (by decide) (by decide) apart (stands.get 12 rfl) fun m' q on =>
    on.read_reg (by decide) true

theorem saveStack_records (stands : CodeAt code l k (saveStack b))
    (start : Records S layout p (layout.place ⟨l, k⟩) t room (S.base (c.seg .ss) + b) 22 m c [] w.list)
    (apart : (stackItems true (stackLinear S (c.seg .ss) t) room).Apart ⟨S.base (c.seg .ss) + b, 88⟩) :
    Records S layout p (layout.place ⟨l, k + 2⟩) t room (S.base (c.seg .ss) + b) 22 m c []
      { w with espAtSignal := t, ss := setLow w.ss (c.seg .ss) : SigWords }.list := by
  have s1 := start.saveSeg rfl (by decide) (by decide) apart .ss (j := 18) rfl (stands.get 0 rfl)
  exact s1.save rfl (j := 17) (by decide) (by decide) apart (stands.get 1 rfl) fun m' q on =>
    on.read_esp.trans (BitVec.sub_zero t)

theorem loadContext_comes (stands : CodeAt code l k (loadContext b))
    (start : Comes S layout p (layout.place ⟨l, k⟩) true t room m c values) (fits : values.length < room)
    (apart : (stackItems true (stackLinear S (c.seg .ss) t) room).Apart ⟨S.base (c.seg .cs) + b, 88⟩)
    (words : sigWordsAt m (S.base (c.seg .cs) + b) = w) :
    Comes S layout p (layout.place ⟨l, k + 13⟩) true t room m (loadedContext w c) values := by
  have slot {j : Nat} {v : Dword} (inside : j < 22) (is : w.list[j]? = some v) :
      readDword m (S.base (c.seg .cs) + wordAddress b j) = v := by
    rw [← words, sigWordsAt_list, itemsAt_getElem m inside] at is
    rw [wordAddress_add]
    exact Option.some.inj is
  have clear {j : Nat} (inside : j < 22) :
      (stackItems true (stackLinear S (c.seg .ss) t) room).Apart ⟨S.base (c.seg .cs) + wordAddress b j, 4⟩ := by
    rw [wordAddress_add]
    exact fun x covered own => apart x covered (word_within inside (by decide) x own)
  have s1 := start.next (stands.get 0 rfl) fun q on =>
    on.loadSeg (by decide) .cs _ (clear (j := 3) (by decide)) (slot (by decide) rfl)
  have s2 := s1.next (stands.get 1 rfl) fun q on =>
    on.loadSeg (by decide) .cs _ (clear (j := 2) (by decide)) (slot (by decide) rfl)
  have s3 := s2.next (stands.get 2 rfl) fun q on =>
    on.loadSeg (by decide) .cs _ (clear (j := 1) (by decide)) (slot (by decide) rfl)
  have s4 := s3.next (stands.get 3 rfl) fun q on =>
    on.loadSeg (by decide) .cs _ (clear (j := 0) (by decide)) (slot (by decide) rfl)
  have s5 := s4.next (stands.get 4 rfl) fun q on => on.pushOp fits
    ((on.read_slot .cs _ (clear (j := 16) (by decide))).trans (slot (by decide) rfl))
  have s6 := s5.next (stands.get 5 rfl) fun q on => on.popf
  have s7 := s6.next (stands.get 6 rfl) fun q on => on.movReg (r := 5) (by decide)
    ((on.read_slot .cs _ (clear (j := 6) (by decide))).trans (slot (by decide) rfl))
  have s8 := s7.next (stands.get 7 rfl) fun q on => on.movReg (r := 1) (by decide)
    ((on.read_slot .cs _ (clear (j := 10) (by decide))).trans (slot (by decide) rfl))
  have s9 := s8.next (stands.get 8 rfl) fun q on => on.movReg (r := 2) (by decide)
    ((on.read_slot .cs _ (clear (j := 9) (by decide))).trans (slot (by decide) rfl))
  have s10 := s9.next (stands.get 9 rfl) fun q on => on.movReg (r := 3) (by decide)
    ((on.read_slot .cs _ (clear (j := 8) (by decide))).trans (slot (by decide) rfl))
  have s11 := s10.next (stands.get 10 rfl) fun q on => on.movReg (r := 6) (by decide)
    ((on.read_slot .cs _ (clear (j := 5) (by decide))).trans (slot (by decide) rfl))
  have s12 := s11.next (stands.get 11 rfl) fun q on => on.movReg (r := 7) (by decide)
    ((on.read_slot .cs _ (clear (j := 4) (by decide))).trans (slot (by decide) rfl))
  exact s12.next (stands.get 12 rfl) fun q on => on.movReg (r := 0) (by decide)
    ((on.read_slot .cs _ (clear (j := 11) (by decide))).trans (slot (by decide) rfl))

end

theorem sigWordsAt_agree {P : Dword → Prop} {m m' : Memory} {a : Dword} (agree : AgreeOn P m m')
    (inside : ∀ x, (Block.mk a 88).Covers x → P x) : sigWordsAt m' a = sigWordsAt m a := by
  apply SigWords.list_injective
  rw [sigWordsAt_list, sigWordsAt_list]
  exact itemsAt_agree agree inside (by decide)

theorem context_stack {S : Segments} {t b : Dword} {room : Nat} {m : Memory} {c : Context} {values : List Dword}
    {w : SigWords} {q : Processor} (on : OnStack S true t room m c values q)
    (apart : (stackItems true (stackLinear S (c.seg .ss) t) room).Apart ⟨S.base (c.seg .cs) + b, 88⟩)
    (words : sigWordsAt m (S.base (c.seg .cs) + b) = w) :
    Operand.address S q true .cs none (wordAddress b SigField.espAtSignal.number) =
        S.base (c.seg .cs) + wordAddress b 17 ∧
      readDword q.mem (S.base (c.seg .cs) + wordAddress b 17) = w.espAtSignal ∧
      readDword q.mem (S.base (c.seg .cs) + wordAddress b 17 + 4) = w.ss := by
  have slot {j : Nat} {v : Dword} (inside : j < 22) (is : w.list[j]? = some v) :
      readDword q.mem (S.base (c.seg .cs) + wordAddress b j) = v := by
    rw [← words, sigWordsAt_list, itemsAt_getElem m inside] at is
    have value := on.read_kept true (a := wordAddress (S.base (c.seg .cs) + b) j)
      fun x covered own => apart x covered (word_within inside (by decide) x own)
    rw [wordAddress_add]
    exact value.trans (Option.some.inj is)
  have next : S.base (c.seg .cs) + wordAddress b 17 + 4 = S.base (c.seg .cs) + wordAddress b 18 := by
    rw [wordAddress, wordAddress, BitVec.add_assoc, BitVec.add_assoc]
    rfl
  rw [next]
  exact ⟨on.address_plain .cs _, slot (by decide) rfl, slot (by decide) rfl⟩

/-! ## The call -/

def flagsItem (S : Segments) (ss : Word) (esp : Dword) : Block := stackItems true (stackLinear S ss esp) 1

/-- The words that the far call and the flags take on the stack that `w` says. -/
def interruptFrame (S : Segments) (n : PmIntCall) (w : SigWords) : Block :=
  stackItems n.wide (stackLinear S (low w.ss) w.espAtSignal) 3

/-- The slots, the processor's own stack and the stack that `w` says have room, and share no byte. -/
structure CallRoom (S : Segments) (d : CallsData) (n : PmIntCall) (p : Processor) (w : SigWords) : Prop where
  same : S.base (p.regs.seg .ss) = S.base (p.regs.seg .cs)
  narrow : p.big S = false → 4 ≤ (low (p.regs.gpr espReg)).toNat
  room : S.big (low w.ss) = false → itemSize n.wide * 3 ≤ (low w.espAtSignal).toNat
  slots : (d.saved (S.base (p.regs.seg .cs))).Apart (d.dos (S.base (p.regs.seg .cs)))
  saddr : ∀ b ∈ [d.saved (S.base (p.regs.seg .cs)), d.dos (S.base (p.regs.seg .cs)),
    flagsItem S (p.regs.seg .ss) (p.regs.gpr espReg), interruptFrame S n w],
    b.Apart (d.address (S.base (p.regs.seg .cs)) n)
  contexts : ∀ b ∈ [flagsItem S (p.regs.seg .ss) (p.regs.gpr espReg), interruptFrame S n w],
    b.Apart (d.saved (S.base (p.regs.seg .cs))) ∧ b.Apart (d.dos (S.base (p.regs.seg .cs)))

namespace CallRoom

variable {S : Segments} {d : CallsData} {n : PmIntCall} {p : Processor} {w : SigWords} (room : CallRoom S d n p w)
include room

theorem own : (flagsItem S (p.regs.seg .ss) (p.regs.gpr espReg)).Apart (d.saved (S.base (p.regs.seg .cs))) ∧
    (flagsItem S (p.regs.seg .ss) (p.regs.gpr espReg)).Apart (d.dos (S.base (p.regs.seg .cs))) :=
  room.contexts _ (by simp)

theorem client : (interruptFrame S n w).Apart (d.saved (S.base (p.regs.seg .cs))) ∧
    (interruptFrame S n w).Apart (d.dos (S.base (p.regs.seg .cs))) := room.contexts _ (by simp)

end CallRoom

/-- The client's code is called in `q`, as an interrupt, with the registers `w`. -/
structure ClientCalled (S : Segments) (d : CallsData) {code : PmIntCall → List (Instruction PmIntCall)}
    (layout : Layout code) (n : PmIntCall) (p : Processor) (w : SigWords) (q : Processor) : Prop where
  eip : q.regs.eip = readItem n.wide p.mem (d.address (S.base (p.regs.seg .cs)) n).start
  cs : q.regs.seg .cs =
    readWord p.mem ((d.address (S.base (p.regs.seg .cs)) n).start + BitVec.ofNat 32 (itemSize n.wide))
  registers : registersOf q.regs =
    { w.frame.regs with esp := w.espAtSignal - BitVec.ofNat 32 (itemSize n.wide * 3) }
  stacked : itemsAt n.wide q.mem (q.stackTop S) 3 =
    [layout.place ⟨n, pmIntCallBack⟩, (p.regs.seg .cs).setWidth 32, w.eflags].map (cutItem n.wide)
  saved : (sigWordsAt q.mem (d.saved (S.base (p.regs.seg .cs))).start).frame =
    { (sigWordsAt p.mem (d.saved (S.base (p.regs.seg .cs))).start).frame with regs := registersOf p.regs }
  dos : sigWordsAt q.mem (d.dos (S.base (p.regs.seg .cs))).start = w
  kept : KeptOutside [d.saved (S.base (p.regs.seg .cs)), flagsItem S (p.regs.seg .ss) (p.regs.gpr espReg),
    interruptFrame S n w] p.mem q.mem

/-- The end of the assembly is reached in `u`, with the registers `v`; those of `r` are in `dos_context`. -/
structure CallerBack (S : Segments) (d : CallsData) {code : PmIntCall → List (Instruction PmIntCall)}
    (layout : Layout code) (n : PmIntCall) (v : SigWords) (r u : Processor) : Prop where
  eip : u.regs.eip = layout.place ⟨n, pmIntCallEnd⟩
  cs : u.regs.seg .cs = r.regs.seg .cs
  registers : registersOf u.regs = v.frame.regs
  saved : sigWordsAt u.mem (d.saved (S.base (r.regs.seg .cs))).start = v
  dos : sigWordsAt u.mem (d.dos (S.base (r.regs.seg .cs))).start =
    savedWords (sigWordsAt r.mem (d.dos (S.base (r.regs.seg .cs))).start) r.regs
  kept : KeptOutside [d.dos (S.base (r.regs.seg .cs)), flagsItem S (low v.ss) v.espAtSignal] r.mem u.mem

section

variable {S : Segments} {d : CallsData} {layout : Layout (pmIntCallCode d)} {n : PmIntCall} {p : Processor}
  {w : SigWords}

theorem pmIntCall_loads (eip : p.regs.eip = layout.place ⟨n, 0⟩) (room : CallRoom S d n p w)
    (words : sigWordsAt p.mem (d.dos (S.base (p.regs.seg .cs))).start = w) :
    ∃ m, Comes S layout p (layout.place ⟨n, 28⟩) true (p.regs.gpr espReg) 1 m (loadedContext w p.regs) [] ∧
      (sigWordsAt m (d.saved (S.base (p.regs.seg .cs))).start).frame =
        { (sigWordsAt p.mem (d.saved (S.base (p.regs.seg .cs))).start).frame with regs := registersOf p.regs } ∧
      KeptOutside [d.saved (S.base (p.regs.seg .cs))] p.mem m := by
  have fresh := OnStack.fresh S true p 1 room.narrow (by decide)
  have start : Records S layout p (layout.place ⟨n, 0⟩) (p.regs.gpr espReg) 1
      (S.base (p.regs.seg .ss) + d.savedContext) 22 p.mem p.regs [] _ := Records.start (Comes.start eip fresh) _ 22
  rw [← sigWordsAt_list] at start
  have apart : (flagsItem S (p.regs.seg .ss) (p.regs.gpr espReg)).Apart
      ⟨S.base (p.regs.seg .ss) + d.savedContext, 88⟩ := room.same ▸ room.own.1
  have saves := saveContext_records (k := 0) (b := d.savedContext) ⟨_, rfl⟩ start (by decide) apart
  obtain ⟨m, comes, written⟩ := saveStack_records (k := 13) (b := d.savedContext) ⟨_, rfl⟩ saves apart
  rw [room.same] at written
  have kept : KeptOutside [d.saved (S.base (p.regs.seg .cs))] p.mem m := .of_agree written.kept
  have words : sigWordsAt m (d.dos (S.base (p.regs.seg .cs))).start = w :=
    (sigWordsAt_agree written.kept fun x inside covered => room.slots x covered inside).trans words
  have loads := loadContext_comes (k := 15) (b := d.dosContext) ⟨_, rfl⟩ comes (by decide) room.own.2 words
  refine ⟨m, loads, ?_, kept⟩
  have saved := SigWords.list_injective ((sigWordsAt_list _ _).trans written.words)
  have start : (d.saved (S.base (p.regs.seg .cs))).start = S.base (p.regs.seg .cs) + d.savedContext := rfl
  rw [start, saved]
  simp only [SigWords.frame, savedWords, registersOf, low_setLow]

theorem pmIntCall_begins (eip : p.regs.eip = layout.place ⟨n, 0⟩) (room : CallRoom S d n p w)
    (words : sigWordsAt p.mem (d.dos (S.base (p.regs.seg .cs))).start = w) :
    ∃ q, LeadsTo S layout p q ∧ ClientCalled S d layout n p w q := by
  obtain ⟨m, loads, saved, kept⟩ := pmIntCall_loads eip room words
  have size := itemSize_le n.wide
  have others : AgreeOn (d.dos (S.base (p.regs.seg .cs))).Covers p.mem m := kept.agree fun c among => by
    rw [List.mem_singleton.mp among]
    exact room.slots.symm
  have words : sigWordsAt m (d.dos (S.base (p.regs.seg .cs))).start = w :=
    (sigWordsAt_agree others fun x inside => inside).trans words
  obtain ⟨q1, on1, s1⟩ := loads.lss n.wide _ _ _ 3 (k := 28) rfl
    (fun q on => context_stack on room.own.2 words) room.room (by omega)
  have s2 := s1.next rfl fun q on => on.pushf (by decide)
  have s3 := s2.lcallAt .cs (d.saddr n) rfl (Nat.le_refl 3)
    (room.saddr (interruptFrame S n w) (by simp))
  obtain ⟨q, reaches, target, on⟩ := s3
  have before : KeptOutside [d.saved (S.base (p.regs.seg .cs)), flagsItem S (p.regs.seg .ss) (p.regs.gpr espReg)]
      p.mem q1.mem := kept.trans on1.keptOutside
  have address : AgreeOn (d.address (S.base (p.regs.seg .cs)) n).Covers p.mem q1.mem := by
    refine before.agree fun c among => ?_
    rcases List.mem_cons.mp among with rfl | among
    · exact (room.saddr (d.saved _) (by simp)).symm
    · rw [List.mem_singleton.mp among]
      exact (room.saddr (flagsItem S _ _) (by simp)).symm
  have context {a : Dword} (own : (flagsItem S (p.regs.seg .ss) (p.regs.gpr espReg)).Apart ⟨a, 88⟩)
      (client : (interruptFrame S n w).Apart ⟨a, 88⟩) : sigWordsAt q.mem a = sigWordsAt m a := by
    rw [sigWordsAt_agree on.kept fun x inside covered => client x covered inside]
    exact sigWordsAt_agree on1.kept fun x inside covered => own x covered inside
  refine ⟨q, reaches, ?_, ?_, ?_, ?_, ?_, ?_, ?_⟩
  · exact target.trans (readItem_agree address fun x inside => Block.within_of_le (Nat.le_add_right _ 2) x inside)
  · rw [on.seg]
    exact readWord_agree address fun x inside => Block.covers_of_inner (Nat.le_refl _) (by omega) inside
  · rw [registersOf_onStack on, on.esp_eq]
    rfl
  · rw [on.stackTop]
    exact on.items.itemsAt_all
  · exact (congrArg SigWords.frame (context room.own.1 room.client.1)).trans saved
  · exact (context room.own.2 room.client.2).trans words
  · exact before.trans on.keptOutside

theorem pmIntCall_ends {r : Processor} {v : SigWords} (eip : r.regs.eip = layout.place ⟨n, pmIntCallBack⟩)
    (words : sigWordsAt r.mem (d.saved (S.base (r.regs.seg .cs))).start = v)
    (same : S.base (low v.ss) = S.base (r.regs.seg .cs))
    (narrow : S.big (low v.ss) = false → 4 ≤ (low v.espAtSignal).toNat)
    (own : (flagsItem S (low v.ss) v.espAtSignal).Apart (d.saved (S.base (r.regs.seg .cs))) ∧
      (flagsItem S (low v.ss) v.espAtSignal).Apart (d.dos (S.base (r.regs.seg .cs))))
    (slots : (d.saved (S.base (r.regs.seg .cs))).Apart (d.dos (S.base (r.regs.seg .cs)))) :
    ∃ u, LeadsTo S layout r u ∧ CallerBack S d layout n v r u := by
  have fresh := OnStack.fresh S true r 0 (fun _ => Nat.zero_le _) (by decide)
  have start : Comes S layout r (layout.place ⟨n, 31⟩) true (r.regs.gpr espReg) 0 r.mem r.regs [] :=
    Comes.start eip fresh
  obtain ⟨q, on, s1⟩ := start.lss true _ _ _ 1 rfl
    (fun q on => context_stack on (fun x covered => absurd covered (Nat.not_lt_zero _)) words) narrow (by decide)
  have unchanged : q.mem = r.mem := funext fun x => on.kept x (Nat.not_lt_zero _)
  rw [unchanged] at s1
  have segment : (r.regs.withSeg .ss (low v.ss)).seg .ss = low v.ss := Context.withSeg_self _ _ _
  have records := Records.start s1 (S.base ((r.regs.withSeg .ss (low v.ss)).seg .ss) + d.dosContext) 22
  rw [← sigWordsAt_list] at records
  have saves := saveContext_records (k := 32) (b := d.dosContext) ⟨_, rfl⟩ records (by decide) (by
    rw [segment, same]
    exact own.2)
  rw [segment, same] at saves
  obtain ⟨m, comes, written⟩ := saves
  have kept : sigWordsAt m (d.saved (S.base (r.regs.seg .cs))).start = v :=
    (sigWordsAt_agree written.kept fun x inside covered => slots x inside covered).trans words
  obtain ⟨u, reaches, target, after⟩ := loadContext_comes (k := 45) (b := d.savedContext) ⟨_, rfl⟩ comes (by decide)
    (by rw [segment]; exact own.1) kept
  have context {a : Dword} (apart : (flagsItem S (low v.ss) v.espAtSignal).Apart ⟨a, 88⟩) :
      sigWordsAt u.mem a = sigWordsAt m a :=
    sigWordsAt_agree after.kept fun x inside covered => apart x covered inside
  refine ⟨u, reaches, target, ?_, ?_, ?_, ?_, ?_⟩
  · rw [after.seg]
    rfl
  · have esp : u.regs.gpr espReg = v.espAtSignal := after.esp_eq.trans (BitVec.sub_zero _)
    rw [registersOf_onStack after, esp]
    rfl
  · exact (context own.1).trans kept
  · exact (context own.2).trans (SigWords.list_injective ((sigWordsAt_list _ _).trans written.words))
  · exact (KeptOutside.of_agree written.kept).trans after.keptOutside

end

/-! ## The functions -/

/-- What `do_pm_int_call32` and `do_pm_int_call16` have done when the code at `addr` is called, from the
memory `m`. -/
structure CallBegun (S : Segments) (d : CallsData) {code : PmIntCall → List (Instruction PmIntCall)}
    (layout : Layout code) (n : PmIntCall) (scp addr : Dword) (m : Memory) (st : Statics) (p q : Processor) :
    Prop where
  eip : q.regs.eip = readItem n.wide m addr
  cs : q.regs.seg .cs = readWord m (addr + BitVec.ofNat 32 (itemSize n.wide))
  registers : registersOf q.regs =
    { (beginCall S.base (S.base (p.regs.seg .cs)) (sigWordsAt m scp).frame (registersOf p.regs)
        (callSlots d (S.base (p.regs.seg .cs)) m st)).2 with
      esp := (sigWordsAt m scp).espAtSignal - BitVec.ofNat 32 (itemSize n.wide * 3) }
  slots : callSlots d (S.base (p.regs.seg .cs)) q.mem st =
    (beginCall S.base (S.base (p.regs.seg .cs)) (sigWordsAt m scp).frame (registersOf p.regs)
      (callSlots d (S.base (p.regs.seg .cs)) m st)).1
  stacked : itemsAt n.wide q.mem (q.stackTop S) 3 =
    [layout.place ⟨n, pmIntCallBack⟩, (p.regs.seg .cs).setWidth 32, (sigWordsAt m scp).eflags].map (cutItem n.wide)
  kept : KeptOutside [d.dos (S.base (p.regs.seg .cs)), d.address (S.base (p.regs.seg .cs)) n,
    d.saved (S.base (p.regs.seg .cs)), flagsItem S (p.regs.seg .ss) (p.regs.gpr espReg),
    interruptFrame S n (sigWordsAt m scp)] m q.mem

/-- The code called in `q` has returned to what it finds on its stack; `saved_context` is as it was. -/
structure ClientReturns (S : Segments) (d : CallsData) (n : PmIntCall) (base : Dword) (q r : Processor) : Prop where
  eip : r.regs.eip = readItem n.wide q.mem (q.stackTop S)
  cs : r.regs.seg .cs = low (readItem n.wide q.mem (q.stackTop S + BitVec.ofNat 32 (itemSize n.wide)))
  saved : AgreeOn (d.saved base).Covers q.mem r.mem

structure CallEnded (S : Segments) (d : CallsData) {code : PmIntCall → List (Instruction PmIntCall)}
    (layout : Layout code) (n : PmIntCall) (scp : Dword) (st : Statics) (p r u : Processor) : Prop where
  eip : u.regs.eip = layout.place ⟨n, pmIntCallEnd⟩
  cs : u.regs.seg .cs = p.regs.seg .cs
  registers : registersOf u.regs = registersOf p.regs
  caller : registersOf u.regs = (endCall S.base (S.base (p.regs.seg .cs)) (registersOf r.regs)
    (callSlots d (S.base (p.regs.seg .cs)) r.mem st)).2.1
  slots : callSlots d (S.base (p.regs.seg .cs)) u.mem st =
    (endCall S.base (S.base (p.regs.seg .cs)) (registersOf r.regs)
      (callSlots d (S.base (p.regs.seg .cs)) r.mem st)).1
  scp : (sigWordsAt (assignBack d (S.base (p.regs.seg .cs)) scp u.mem) scp).frame =
    (endCall S.base (S.base (p.regs.seg .cs)) (registersOf r.regs)
      (callSlots d (S.base (p.regs.seg .cs)) r.mem st)).2.2
  kept : KeptOutside [d.dos (S.base (p.regs.seg .cs)), flagsItem S (p.regs.seg .ss) (p.regs.gpr espReg)] r.mem u.mem

section

variable {S : Segments} {d : CallsData} {layout : Layout (pmIntCallCode d)} {n : PmIntCall} {p : Processor}
  {m : Memory} {scp addr base : Dword}

theorem sigWordsAt_copy (m : Memory) (dst src : Dword) : sigWordsAt (copy m dst src 88) dst = sigWordsAt m src := by
  apply SigWords.list_injective
  rw [sigWordsAt_list, sigWordsAt_list]
  exact itemsAt_copy m dst src (n := 22) (by decide)

theorem assignCall_slots (n : PmIntCall) (scp : Dword) (m : Memory)
    (saddr : ∀ b ∈ [d.saved base, d.dos base], b.Apart (d.address base n))
    (slots : (d.saved base).Apart (d.dos base)) (apart : (Block.mk addr (itemSize n.wide + 2)).Apart (d.dos base)) :
    sigWordsAt (assignCall d base n scp addr m) (d.dos base).start = sigWordsAt m scp ∧
      sigWordsAt (assignCall d base n scp addr m) (d.saved base).start = sigWordsAt m (d.saved base).start ∧
      readItem n.wide (assignCall d base n scp addr m) (d.address base n).start = readItem n.wide m addr ∧
      readWord (assignCall d base n scp addr m)
          ((d.address base n).start + BitVec.ofNat 32 (itemSize n.wide)) =
        readWord m (addr + BitVec.ofNat 32 (itemSize n.wide)) := by
  have size := itemSize_le n.wide
  have first : AgreeOn (¬(d.dos base).Covers ·) m (copy m (d.dos base).start scp 88) :=
    copy_agree m fun _ outside => outside
  have second : AgreeOn (¬(d.address base n).Covers ·) (copy m (d.dos base).start scp 88)
      (assignCall d base n scp addr m) := copy_agree _ fun _ outside => outside
  have other (k : Nat) (wide : Bool) (inside : k + itemSize wide ≤ itemSize n.wide + 2) :
      readItem wide (copy m (d.dos base).start scp 88) (addr + BitVec.ofNat 32 k) =
        readItem wide m (addr + BitVec.ofNat 32 k) :=
    readItem_agree first fun x covered => apart x (Block.covers_of_inner inside (by omega) covered)
  refine ⟨?_, ?_, ?_, ?_⟩
  · exact (sigWordsAt_agree second fun x inside => saddr (d.dos base) (by simp) x inside).trans
      (sigWordsAt_copy _ _ _)
  · exact (sigWordsAt_agree second fun x inside => saddr (d.saved base) (by simp) x inside).trans
      (sigWordsAt_agree first fun x inside => slots x inside)
  · have start := (readItem_copy n.wide (copy m (d.dos base).start scp 88) (d.address base n).start addr (k := 0)
      (n := itemSize n.wide + 2) (by omega) (by decide)).trans (other 0 n.wide (by omega))
    rwa [BitVec.add_zero, BitVec.add_zero] at start
  · have segment := (readItem_copy false (copy m (d.dos base).start scp 88) (d.address base n).start addr
      (k := itemSize n.wide) (n := itemSize n.wide + 2) (Nat.le_refl _) (by omega)).trans
      (other (itemSize n.wide) false (Nat.le_refl _))
    have word := congrArg low segment
    exact ((low_zext _).symm.trans word).trans (low_zext _)

/-- A handler's call to the client's code, and what it has of it, are those of `beginCall` and `endCall`; the
handler goes on with its own registers. -/
theorem pmIntCall_served {st : Statics} (eip : p.regs.eip = layout.place ⟨n, 0⟩)
    (assigned : p.mem = assignCall d (S.base (p.regs.seg .cs)) n scp addr m)
    (room : CallRoom S d n p (sigWordsAt m scp))
    (apart : (Block.mk addr (itemSize n.wide + 2)).Apart (d.dos (S.base (p.regs.seg .cs))))
    (near : cutItem n.wide (layout.place ⟨n, pmIntCallBack⟩) = layout.place ⟨n, pmIntCallBack⟩) :
    ∃ q, LeadsTo S layout p q ∧ CallBegun S d layout n scp addr m st p q ∧
      ∀ r, ClientReturns S d n (S.base (p.regs.seg .cs)) q r →
        ∃ u, LeadsTo S layout r u ∧ CallEnded S d layout n scp st p r u := by
  obtain ⟨dos, saved, offset, selector⟩ := assignCall_slots n scp m
    (fun b among => room.saddr b (by simp at among ⊢; tauto)) room.slots apart
  rw [← assigned] at dos saved offset selector
  obtain ⟨q, reaches, called⟩ := pmIntCall_begins eip room dos
  have own : S.base (registersOf p.regs).ss = S.base (p.regs.seg .cs) := room.same
  have begun : CallBegun S d layout n scp addr m st p q := by
    refine ⟨called.eip.trans offset, called.cs.trans selector, called.registers, ?_, called.stacked, ?_⟩
    · simp only [callSlots, beginCall, if_pos own, called.saved, called.dos, saved]
    · have assignments :
          KeptOutside [d.dos (S.base (p.regs.seg .cs)), d.address (S.base (p.regs.seg .cs)) n] m p.mem := by
        rw [assigned]
        exact (KeptOutside.copy m _ scp 88).trans (KeptOutside.copy _ _ addr _)
      exact assignments.trans called.kept
  refine ⟨q, reaches, begun, fun r returned => ?_⟩
  obtain ⟨top, rest⟩ := List.cons.inj called.stacked
  obtain ⟨next, -⟩ := List.cons.inj rest
  have cs : r.regs.seg .cs = p.regs.seg .cs := by
    rw [returned.cs, next]
    cases n with
    | int32 => exact low_zext _
    | int16 => exact (low_cutItem _).trans (low_zext _)
  have back : r.regs.eip = layout.place ⟨n, pmIntCallBack⟩ := (returned.eip.trans top).trans near
  have words := sigWordsAt_agree (a := (d.saved (S.base (p.regs.seg .cs))).start) returned.saved
    fun x inside => inside
  generalize held : sigWordsAt q.mem (d.saved (S.base (p.regs.seg .cs))).start = v at words
  have frame : v.frame.regs = registersOf p.regs := by
    rw [← held]
    exact congrArg SigFrame.regs called.saved
  have ss : low v.ss = p.regs.seg .ss := congrArg Registers.ss frame
  have esp : v.espAtSignal = p.regs.gpr espReg := congrArg Registers.esp frame
  have ends : ∃ u, LeadsTo S layout r u ∧ CallerBack S d layout n v r u := by
    refine pmIntCall_ends back (cs ▸ words) ?_ ?_ ?_ ?_
    · rw [ss, cs]
      exact room.same
    · rw [ss, esp]
      exact room.narrow
    · rw [ss, esp, cs]
      exact room.own
    · rw [cs]
      exact room.slots
  obtain ⟨u, reached, ended⟩ := ends
  obtain ⟨goes, code, registers, kept, stored, unchanged⟩ := ended
  rw [cs] at code kept stored unchanged
  rw [ss, esp] at unchanged
  have still : (sigWordsAt r.mem (d.saved (S.base (p.regs.seg .cs))).start).frame = v.frame := congrArg _ words
  have same : S.base v.frame.regs.ss = S.base (p.regs.seg .cs) := by rw [frame]; exact own
  refine ⟨u, reached, goes, code, registers.trans frame, ?_, ?_, ?_, unchanged⟩
  · rw [registers, endCall, callSlots, still]
  · simp only [callSlots, endCall, kept, stored, still, savedWords_frame, if_pos same]
    rfl
  · rw [assignBack, sigWordsAt_copy, stored, savedWords_frame]
    simp only [endCall, callSlots, still, if_pos same]
    rfl

end

/-! ## A call -/

def PmIntCall.number : PmIntCall → Nat
  | .int32 => 0
  | .int16 => 1

def callsLayout (d : CallsData) : Layout (pmIntCallCode d) where
  place here := BitVec.ofNat 32 (64 * here.label.number + here.index)
  fetch a := [PmIntCall.int32, .int16][a.toNat / 64]?.map (Position.mk · (a.toNat % 64))
  found l k inside := by
    have few : (pmIntCallCode d l).length = 58 := rfl
    have known : [PmIntCall.int32, .int16][l.number]? = some l ∧ l.number < 2 := by cases l <;> decide
    have place : (BitVec.ofNat 32 (64 * l.number + k)).toNat = 64 * l.number + k := Nat.mod_eq_of_lt (by omega)
    have label : (64 * l.number + k) / 64 = l.number := by omega
    have index : (64 * l.number + k) % 64 = k := by omega
    rw [place, label, index, known.1]
    rfl

def callsData : CallsData where
  savedContext := 0x2100
  dosContext := 0x2200
  saddr n := if n.wide then 0x2300 else 0x2310

def callSegments : Segments := ⟨fun s => if s = 0x97 then 0x40000 else 0x10000, fun s => s ≠ 0x97⟩

/-- A context with the stack 97h:8000h at 1a000h, and 9fh:1234h at 1b000h. -/
def callMemory : Memory :=
  writeDword (writeDword (writeDword (writeDword (fun _ => 0) 0x1a040 0x202) 0x1a044 0x8000) 0x1a048 0x97)
    0x1b000 0x9f1234

def int16Called : Processor where
  regs := { gpr := fun _ => 0xa000, seg := fun _ => 0x8f, eip := (callsLayout callsData).place ⟨.int16, 0⟩,
            eflags := 0x46 }
  mem := assignCall callsData 0x10000 .int16 0x1a000 0x1b000 callMemory

def clientReturn (S : Segments) (n : PmIntCall) (q : Processor) : Processor :=
  { q with regs :=
      { (q.regs.withGpr 0 0x4c00).withSeg .cs
          (low (readItem n.wide q.mem (q.stackTop S + BitVec.ofNat 32 (itemSize n.wide)))) with
        eip := readItem n.wide q.mem (q.stackTop S) } }

theorem pmIntCall_served_int16 : ∃ q u, LeadsTo callSegments (callsLayout callsData) int16Called q ∧
    q.regs.eip = 0x1234 ∧ q.regs.seg .cs = 0x9f ∧ (registersOf q.regs).esp = 0x7ffa ∧
    LeadsTo callSegments (callsLayout callsData) (clientReturn callSegments .int16 q) u ∧
    registersOf u.regs = registersOf int16Called.regs := by
  have frame : interruptFrame callSegments .int16 (sigWordsAt callMemory 0x1a000) = ⟨0x47ffa, 6⟩ := by
    decide +kernel
  have own : flagsItem callSegments (int16Called.regs.seg .ss) (int16Called.regs.gpr espReg) = ⟨0x19ffc, 4⟩ := by
    decide +kernel
  have apart : [callsData.saved 0x10000, callsData.dos 0x10000, callsData.address 0x10000 .int16, ⟨0x19ffc, 4⟩,
      ⟨0x47ffa, 6⟩, ⟨0x1b000, 4⟩].Pairwise fun b c =>
        b.length ≤ offset b.start c.start ∧ c.length ≤ offset c.start b.start := by decide
  obtain ⟨saved, rest⟩ := List.pairwise_cons.mp (apart.imp fun far => Block.apart_of_offset far.1 far.2)
  obtain ⟨dos, rest⟩ := List.pairwise_cons.mp rest
  obtain ⟨address, -⟩ := List.pairwise_cons.mp rest
  have room : CallRoom callSegments callsData .int16 int16Called (sigWordsAt callMemory 0x1a000) := by
    refine ⟨rfl, (by decide), fun _ => (by decide +kernel), saved _ (by decide), ?_, ?_⟩
    · rw [frame, own]
      intro b among
      simp only [List.mem_cons, List.not_mem_nil, or_false] at among
      rcases among with rfl | rfl | rfl | rfl
      · exact saved (callsData.address 0x10000 .int16) (by decide)
      · exact dos (callsData.address 0x10000 .int16) (by decide)
      · exact (address ⟨0x19ffc, 4⟩ (by decide)).symm
      · exact (address ⟨0x47ffa, 6⟩ (by decide)).symm
    · rw [frame, own]
      intro b among
      simp only [List.mem_cons, List.not_mem_nil, or_false] at among
      rcases among with rfl | rfl
      · exact ⟨(saved ⟨0x19ffc, 4⟩ (by decide)).symm, (dos ⟨0x19ffc, 4⟩ (by decide)).symm⟩
      · exact ⟨(saved ⟨0x47ffa, 6⟩ (by decide)).symm, (dos ⟨0x47ffa, 6⟩ (by decide)).symm⟩
  obtain ⟨q, reaches, begun, back⟩ :=
    @pmIntCall_served callSegments callsData (callsLayout callsData) .int16 int16Called callMemory 0x1a000 0x1b000
      residentStatics rfl rfl room (dos ⟨0x1b000, 4⟩ (by decide)).symm (by decide)
  have returned : ClientReturns callSegments callsData .int16 0x10000 q (clientReturn callSegments .int16 q) :=
    ⟨rfl, Context.withSeg_self (q.regs.withGpr 0 0x4c00) .cs _, AgreeOn.refl _⟩
  obtain ⟨u, returns, ended⟩ := back _ returned
  refine ⟨q, u, reaches, begun.eip.trans (by decide +kernel), begun.cs.trans (by decide +kernel), ?_, returns,
    ended.registers⟩
  rw [begun.registers]
  decide +kernel

end Pmdapi
