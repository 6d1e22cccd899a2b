import Pmdapi.StubEntry

/-!
`_dos32_int21` and `_dos16_int21` executed: the client's registers into the slots, the change to the private
stack and back, and the far return to the client.
-/

namespace Pmdapi
open Bytes X86

section

variable {S : Segments} {d : EntryData} {layout : Layout (entryCode d)} {p : Processor} {t : Dword} {room : Nat}
  {m : Memory} {c : Context} {values : List Dword} {l : EntryLabel} {st : Statics}

def savedStatics (st : Statics) (r : Registers) : Statics :=
  { st with tmpSs := r.ss, tmpFlags := r.eflags, tmpEsp := r.esp }

def slotBlocks (d : EntryData) (base : Dword) : List Block := d.slots.map fun a => ⟨base + a, 4⟩

def savedContext (c : Context) (dseg : Word) (f : Dword) : Context :=
  { (c.withGpr 7 (dseg.setWidth 32)).withGpr 6 ((c.seg .ss).setWidth 32) with eflags := f }

theorem save_comes (stands : CodeAt (entryCode d) l 0 (saveCode d))
    (start : Comes S layout p (layout.place ⟨l, 0⟩) true t room m c values) (fits : values.length + 4 ≤ room)
    (ready : ModuleReady S d (S.base (c.seg .cs)) m st)
    (apart : SlotsApart S d (S.base (c.seg .cs)) (c.seg .ss) t room) :
    ∃ f n, SlotsHold d (S.base (c.seg .cs)) n { st with
        tmpSs := c.seg .ss, tmpFlags := c.eflags, tmpEsp := t - BitVec.ofNat 32 (4 * values.length) } ∧
      KeptOutside (slotBlocks d (S.base (c.seg .cs))) m n ∧
      Comes S layout p (layout.place ⟨l, 12⟩) true t room n (savedContext c st.dseg32 f)
        (c.gpr 7 :: c.gpr 6 :: values) := by
  have slot {a : Dword} (among : a ∈ d.slots) := apart a among
  have s1 := start.next (stands.get 0 rfl) fun q on => on.pushOp (v := c.gpr 6) (by omega)
    (on.read_reg (by decide) true)
  have s2 := s1.next (stands.get 1 rfl) fun q on => on.pushOp (v := c.gpr 7) (by simp; omega)
    (on.read_reg (by decide) true)
  have s3 := s2.next (stands.get 2 rfl) fun q on => on.pushSeg (by simp; omega) .ds
  have s4 := s3.next (stands.get 3 rfl) fun q on => on.movReg (r := 7) (by decide)
    ((on.read_slot .cs d.dseg32 (slot (by simp [EntryData.slots]))).trans ready.slots.dseg32)
  have s5 := s4.next (stands.get 4 rfl) fun q on => on.movToSeg (r := .ds) (by decide) (q := 7) (by decide)
  obtain ⟨e, same⟩ : ∃ e, e = (c.withGpr 7 (st.dseg32.setWidth 32)).withSeg .ds
    (low ((c.withGpr 7 (st.dseg32.setWidth 32)).gpr 7)) := ⟨_, rfl⟩
  rw [← same] at s5
  have ss : e.seg .ss = c.seg .ss := by rw [same]; rfl
  have flags : e.eflags = c.eflags := by rw [same]; rfl
  have base : S.base (e.seg .ds) = S.base (c.seg .cs) := by
    rw [same, Context.withSeg_self, Context.withGpr_self, low_zext]
    exact ready.data
  have own {a : Dword} (among : a ∈ d.slots) :
      (stackItems true (stackLinear S (e.seg .ss) t) room).Apart ⟨S.base (e.seg .ds) + a, 4⟩ := by
    rw [ss, base]
    exact slot among
  have s6 := s5.next (stands.get 5 rfl) fun q on => on.segSlot .ss .ds d.tmpSs fun a inside covered =>
    own (a := d.tmpSs) (by simp [EntryData.slots]) a inside (Block.within_of_le (by decide) a covered)
  have s7 := s6.next (stands.get 6 rfl) fun q on => on.pushf (by simp; omega)
  have s8 := s7.next (stands.get 7 rfl) fun q on => on.popSlot .ds d.tmpFlags (own (by simp [EntryData.slots]))
  have s9 := s8.next (stands.get 8 rfl) fun q on => on.movSlot .ds d.tmpEsp (own (by simp [EntryData.slots]))
    on.read_esp
  have pushed : itemSize true * ((c.seg .ds).setWidth 32 :: c.gpr 7 :: c.gpr 6 :: values).length =
      4 * (values.length + 3) := rfl
  rw [pushed, base, ss, flags] at s9
  obtain ⟨n, known⟩ : ∃ n, n = writeDword (writeWord m (S.base (c.seg .cs) + d.tmpSs) (c.seg .ss))
    (S.base (c.seg .cs) + d.tmpFlags) c.eflags := ⟨_, rfl⟩
  rw [← known] at s9
  have written : readDword (writeDword n (S.base (c.seg .cs) + d.tmpEsp)
      (t - BitVec.ofNat 32 (4 * (values.length + 3)))) (S.base (c.seg .cs) + d.tmpEsp) + 12 =
      t - BitVec.ofNat 32 (4 * values.length) :=
    (congrArg (· + 12) (readItem_writeItem true n _ _)).trans (itemAddress_up true t values.length 3)
  obtain ⟨f, s10⟩ := s9.addSlot (stands.get 9 rfl) (own (by simp [EntryData.slots]))
  rw [base, written] at s10
  have s11 := s10.next (stands.get 10 rfl) fun q on => on.popSeg (r := .ds) (by decide)
  have s12 := s11.next (stands.get 11 rfl) fun q on => on.movFromSeg (q := 6) (by decide) .ss
  have back : { e with eflags := f }.withSeg .ds (low ((c.seg .ds).setWidth 32)) =
      { c.withGpr 7 (st.dseg32.setWidth 32) with eflags := f } := by
    rw [same, low_zext]
    exact Context.withSeg_back { c.withGpr 7 (st.dseg32.setWidth 32) with eflags := f } .ds _
  rw [back] at s12
  refine ⟨f, _, ?_, ?_, s12⟩
  · have pairs := ready.distinct.pairs
    rw [known]
    have saved := (ready.slots.tmpSsWritten pairs (c.seg .ss)).tmpFlagsWritten pairs c.eflags
    exact (saved.tmpEspWritten pairs _).tmpEspWritten pairs _
  · rw [known]
    refine ((((KeptOutside.writeWord m _ _).trans (KeptOutside.writeDword _ _ _)).trans
      (KeptOutside.writeDword _ _ _)).trans (KeptOutside.writeDword _ _ _)).mono ?_
    simp [slotBlocks, EntryData.slots]

theorem switch_calls {k : Nat} {e : Context} {n : Memory} {u esi edi : Dword} {dseg : Word}
    (stands : CodeAt (entryCode d) l k (switchCode ⟨.dosInt21, 0⟩))
    (start : Comes S layout p (layout.place ⟨l, k⟩) true t 4 n e [d.stackEnd, dseg.setWidth 32, edi, esi])
    (segment : e.gpr 6 = (e.seg .ss).setWidth 32) (pointer : e.gpr 7 = u)
    (points : ∀ j ≤ 4, S.base (e.seg .ss) + (u + BitVec.ofNat 32 (4 * j)) =
      itemAddress true (stackLinear S (e.seg .ss) t) (4 - j))
    (big : S.big dseg = true)
    (apart : (stackItems true (stackLinear S dseg d.stackEnd) 30).Apart
      (stackItems true (stackLinear S (e.seg .ss) t) 4)) :
    ∃ q, OnStack S true t 4 n e [d.stackEnd, dseg.setWidth 32, edi, esi] q ∧
      Comes S layout p (layout.place ⟨.dosInt21, 0⟩) true d.stackEnd 30 q.mem
        (((e.withSeg .ss dseg).withGpr 6 esi).withGpr 7 edi)
        [layout.place ⟨l, k + 9⟩, u, (e.seg .ss).setWidth 32] := by
  have first : S.base (e.seg .ss) + (u + 0) = itemAddress true (stackLinear S (e.seg .ss) t) 4 :=
    points 0 (by decide)
  have far (q : Processor) (on : OnStack S true t 4 n e [d.stackEnd, dseg.setWidth 32, edi, esi] q) :
      Operand.address S q true .ss (some 7) 0 = itemAddress true (stackLinear S (e.seg .ss) t) 4 ∧
        readDword q.mem (itemAddress true (stackLinear S (e.seg .ss) t) 4) = d.stackEnd ∧
        readDword q.mem (itemAddress true (stackLinear S (e.seg .ss) t) 4 + 4) = dseg.setWidth 32 := by
    have address : Operand.address S q true .ss (some 7) 0 = S.base (q.regs.seg .ss) + (q.regs.gpr 7 + 0) := rfl
    have next : itemAddress true (stackLinear S (e.seg .ss) t) 4 + 4 =
        itemAddress true (stackLinear S (e.seg .ss) t) 3 := itemAddress_next true _ 3
    refine ⟨?_, on.read_dword (List.suffix_refl _) rfl, ?_⟩
    · rw [address, on.seg, on.gpr (by decide), pointer, first]
    · rw [next]
      exact on.read_dword (List.suffix_cons _ _) rfl
  obtain ⟨q, on, s1⟩ := start.lss true _ _ _ 30 (stands.get 0 rfl) far
    (by rw [low_zext, big]; exact fun narrow => by cases narrow) (by decide)
  rw [low_zext] at s1
  -- the client's ESI and EDI are still on its own stack
  have item {r : Processor} {f : Context} {pushed : List Dword}
      (here : OnStack S true d.stackEnd 30 q.mem f pushed r) (ss : f.seg .ss = dseg) (ds : f.seg .ds = e.seg .ss)
      (register : f.gpr 7 = u) {v : Dword} {deeper : List Dword} (j : Nat)
      (among : v :: deeper <:+ [d.stackEnd, dseg.setWidth 32, edi, esi]) (depth : deeper.length + 1 = 4 - j)
      (few : j ≤ 4) : (Operand.mem true .ds (some 7) (BitVec.ofNat 32 (4 * j))).read S r true = v := by
    have address : Operand.address S r true .ds (some 7) (BitVec.ofNat 32 (4 * j)) =
        S.base (r.regs.seg .ds) + (r.regs.gpr 7 + BitVec.ofNat 32 (4 * j)) := rfl
    have inside : (Block.mk (itemAddress true (stackLinear S (e.seg .ss) t) (4 - j)) 4).Within
        (stackItems true (stackLinear S (e.seg .ss) t) 4) := by
      rw [← depth]
      exact item_within _ (by omega) (by decide)
    have kept := here.read_kept true (a := itemAddress true (stackLinear S (e.seg .ss) t) (4 - j)) (by
      rw [ss]
      exact fun a covered within => apart a covered (inside a within))
    rw [Operand.read, address, here.seg, here.gpr (by decide), ds, register, points j few, kept]
    exact on.read_dword among depth
  refine ⟨q, on, ?_⟩
  have s2 := s1.next (stands.get 1 rfl) fun q on => on.pushOp (v := (e.seg .ss).setWidth 32) (by decide)
    (by rw [on.read_reg (by decide), cutItem_wide]; exact segment)
  have s3 := s2.next (stands.get 2 rfl) fun q on => on.pushOp (v := u) (by simp)
    (by rw [on.read_reg (by decide), cutItem_wide]; exact pointer)
  have s4 := s3.next (stands.get 3 rfl) fun q on => on.pushSeg (by simp) .ds
  have s5 := s4.next (stands.get 4 rfl) fun q on => on.movToSeg (r := .ds) (by decide) (q := 6) (by decide)
  have client : low ((e.withSeg .ss dseg).gpr 6) = e.seg .ss := (congrArg low segment).trans (low_zext _)
  rw [client] at s5
  have s6 := s5.next (stands.get 5 rfl) fun q on => on.movReg (r := 6) (v := esi) (by decide)
    (item on rfl rfl pointer 3 ⟨[d.stackEnd, dseg.setWidth 32, edi], rfl⟩ rfl (by decide))
  have s7 := s6.next (stands.get 6 rfl) fun q on => on.movReg (r := 7) (v := edi) (by decide)
    (item on rfl rfl pointer 2 ⟨[d.stackEnd, dseg.setWidth 32], rfl⟩ rfl (by decide))
  have s8 := s7.next (stands.get 7 rfl) fun q on => on.popSeg (r := .ds) (by decide)
  have s9 := s8.call (stands.get 8 rfl) (by simp)
  rw [low_zext] at s9
  have back := Context.withSeg_back (((e.withSeg .ss dseg).withGpr 6 esi).withGpr 7 edi) .ds (e.seg .ss)
  rw [← back]
  exact s9

/-- Behind `dos_int21`: the client's stack pointer is taken from the private stack. -/
theorem switch_back {k : Nat} {u : Dword} {ss : Word}
    (stands : CodeAt (entryCode d) l k (switchCode ⟨.dosInt21, 0⟩))
    (start : Comes S layout p (layout.place ⟨.dosInt21, 4⟩) true t room m c
      [layout.place ⟨l, k + 9⟩, u, ss.setWidth 32])
    (big : S.big (c.seg .ss) = true) (narrow : S.big ss = false → 4 ≤ (low (u + 16)).toNat) :
    ∃ q f, OnStack S true t room m c [u, ss.setWidth 32] q ∧
      Comes S layout p (layout.place ⟨l, k + 11⟩) true (u + 16) 1 q.mem { c.withSeg .ss ss with eflags := f } [] := by
  have s1 := start.ret rfl
  have far (q : Processor) (on : OnStack S true t room m c [u, ss.setWidth 32] q) :
      Operand.address S q true .ss (some 4) 0 = itemAddress true (stackLinear S (c.seg .ss) t) 2 ∧
        readDword q.mem (itemAddress true (stackLinear S (c.seg .ss) t) 2) = u ∧
        readDword q.mem (itemAddress true (stackLinear S (c.seg .ss) t) 2 + 4) = ss.setWidth 32 := by
    have next : itemAddress true (stackLinear S (c.seg .ss) t) 2 + 4 =
        itemAddress true (stackLinear S (c.seg .ss) t) 1 := itemAddress_next true _ 1
    refine ⟨on.address_up big (r := 4) (n := 2) 0 (on.esp_big big) on.within,
      on.read_dword (List.suffix_refl _) rfl, ?_⟩
    rw [next]
    exact on.read_dword (List.suffix_cons _ _) rfl
  obtain ⟨q, on, s2⟩ := s1.lss true _ _ _ 0 (stands.get 9 rfl) far (fun _ => Nat.zero_le _) (by decide)
  rw [low_zext] at s2
  obtain ⟨f, s3⟩ := s2.rise 1 (stands.get 10 rfl) (by
    rw [Context.withSeg_self]
    exact narrow) (by decide)
  exact ⟨q, f, on, s3⟩

theorem leave_returns {k n : Nat} {wide : Bool} {v : Dword}
    (stands : CodeAt (entryCode d) l k (leaveCode d (.lret wide (BitVec.ofNat 32 n))))
    (start : Comes S layout p (layout.place ⟨l, k⟩) true t 1 m c [])
    (slot : (stackItems true (stackLinear S (c.seg .ss) t) 1).Apart ⟨S.base (c.seg .cs) + d.tmpFlags, 4⟩)
    (saved : readDword m (S.base (c.seg .cs) + d.tmpFlags) = v)
    (within : S.big (c.seg .ss) = false → (low t).toNat + itemSize wide < 2 ^ 16)
    (apart : (stackItems true (stackLinear S (c.seg .ss) t) 1).Apart
      ⟨stackLinear S (c.seg .ss) t, 2 * itemSize wide⟩) :
    ∃ u, LeadsTo S layout p u ∧ FarReturned S wide n t 1 m { c with eflags := v } u := by
  have s1 := start.next (stands.get 0 rfl) fun q on => on.pushOp (v := v) (by decide)
    ((on.read_slot .cs d.tmpFlags slot).trans saved)
  have s2 := s1.next (stands.get 1 rfl) fun q on => on.popf
  exact s2.farReturn (stands.get 2 rfl) within apart

/-! ## Which stack -/

def int21Label (is32 : Bool) : EntryLabel := if is32 then .dos32Int21 else .dos16Int21

def switchIndex (is32 : Bool) : Nat := if is32 then 17 else 20

def afterSwitch (is32 : Bool) : Position EntryLabel := ⟨int21Label is32, switchIndex is32 + 9⟩

def underPointer (is32 : Bool) (esp : Dword) : Dword :=
  if is32 then esp - 16 else ((esp - 16).setWidth 16).setWidth 32

theorem slot_word {a : Dword} {v : Word} {q : Processor} (on : OnStack S true t room m c values q)
    (apart : (stackItems true (stackLinear S (c.seg .ss) t) room).Apart ⟨S.base (c.seg .cs) + a, 4⟩)
    (saved : readDword m (S.base (c.seg .cs) + a) = v.setWidth 32) :
    (Operand.mem true .cs none a).read S q false = v.setWidth 32 := by
  have kept : readItem false q.mem (S.base (c.seg .cs) + a) = readItem false m (S.base (c.seg .cs) + a) :=
    on.read_kept false fun x covered inside => apart x covered (Block.within_of_le (by decide) x inside)
  have word : readWord m (S.base (c.seg .cs) + a) = v := by
    rw [← low_readDword, saved, low_zext]
  rw [Operand.read, on.address_plain, kept]
  exact congrArg (BitVec.setWidth 32) word

theorem segments_differ {v w : Word} (other : w ≠ v) (f : Dword) :
    (flagsOf .cmp false (v.setWidth 32) (cutItem false (w.setWidth 32)) f).getLsbD 6 = false := by
  rw [flagsOf_cmp, low_cutItem, low_zext, low_zext]
  simpa using other.symm

theorem asks_stack (is32 : Bool) {n : Memory} {dseg : Word} {f edi esi : Dword}
    (start : Comes S layout p (layout.place ⟨int21Label is32, 12⟩) true t 4 n (savedContext c dseg f) [edi, esi])
    (other : c.seg .ss ≠ dseg)
    (slot : (stackItems true (stackLinear S (c.seg .ss) t) 4).Apart ⟨S.base (c.seg .cs) + d.dseg32, 4⟩)
    (saved : readDword n (S.base (c.seg .cs) + d.dseg32) = dseg.setWidth 32) :
    ∃ g, Comes S layout p (layout.place ⟨int21Label is32, switchIndex is32⟩) true t 4 n
      { (savedContext c dseg f).withGpr 7 (underPointer is32 t) with eflags := g }
      [d.stackEnd, dseg.setWidth 32, edi, esi] := by
  cases is32 with
  | true =>
    have s1 := start.next rfl fun q on => on.cmp false (slot_word on slot saved) (on.read_reg (by decide) false)
    have s2 := s1.je rfl (segments_differ other _)
    have s3 := s2.next rfl fun q on => on.pushOp (v := dseg.setWidth 32) (by simp) (on.read_reg (by decide) true)
    have s4 := s3.next rfl fun q on => on.pushOp (v := d.stackEnd) (by simp) rfl
    have s5 := s4.next rfl fun q on => on.movReg (r := 7) (v := t - 16) (by decide) on.read_esp
    exact ⟨_, s5⟩
  | false =>
    have s1 := start.next rfl fun q on => on.cmp false (on.read_reg (by decide) false) (on.read_reg (by decide) false)
    have differ : (flagsOf .cmp false (cutItem false (dseg.setWidth 32)) (cutItem false ((c.seg .ss).setWidth 32))
        f).getLsbD 6 = false := by
      rw [flagsOf_cmp, low_cutItem, low_cutItem, low_zext, low_zext]
      simpa using other.symm
    have s2 := s1.jne rfl differ
    have s3 := s2.next rfl fun q on => on.pushOp (v := dseg.setWidth 32) (by simp) (on.read_reg (by decide) true)
    have s4 := s3.next rfl fun q on => on.pushOp (v := d.stackEnd) (by simp) rfl
    have s5 := s4.next rfl fun q on => on.movzx (r := 7) (v := underPointer false t) (by decide) (by
      rw [Operand.read, show q.regs.gpr 4 = _ from on.esp_eq]
      rfl)
    exact ⟨_, s5⟩

theorem underPointer_eq {is32 : Bool} {esp : Dword} (narrow : is32 = false → 16 ≤ (low esp).toNat) :
    underPointer is32 esp = pointed is32 esp - 16 := by
  cases is32 with
  | true => rfl
  | false =>
    have narrow := narrow rfl
    have split : low (esp - 16) = low esp - 16 := low_sub esp 16
    show (low (esp - 16)).setWidth 32 = (low esp).setWidth 32 - 16
    rw [split]
    generalize low esp = sp at *
    bv_omega

@[simp] theorem pointed_pointed (big : Bool) (esp : Dword) : pointed big (pointed big esp) = pointed big esp := by
  cases big with
  | true => rfl
  | false => exact congrArg (BitVec.setWidth 32) (low_zext (low esp))

theorem underPointer_points {is32 : Bool} {esp base : Dword} (narrow : is32 = false → 16 ≤ (low esp).toNat) {j : Nat}
    (few : j ≤ 4) : base + (underPointer is32 esp + BitVec.ofNat 32 (4 * j)) =
      itemAddress true (base + pointed is32 esp) (4 - j) := by
  have sum : BitVec.ofNat 32 (4 * j) + BitVec.ofNat 32 (4 * (4 - j)) = 16 := by
    rw [← BitVec.ofNat_add, show 4 * j + 4 * (4 - j) = 16 by omega]
    rfl
  rw [underPointer_eq narrow]
  show base + (pointed is32 esp - 16 + _) = base + pointed is32 esp - BitVec.ofNat 32 (4 * (4 - j))
  bv_omega

end

/-! ## A call -/

/-- What the client's call left above its stack pointer: a far address and the flags. -/
def clientWords (is32 : Bool) : Nat := if is32 then 12 else 6

def clientBlock (S : Segments) (p : Processor) (is32 : Bool) : Block := ⟨p.stackTop S - 16, 16 + clientWords is32⟩

def privateBlock (S : Segments) (d : EntryData) (dseg : Word) : Block := ⟨S.base dseg + d.stackEnd - 120, 120⟩

/-- A client of the entry's width calls, on a stack other than the module's. -/
structure ClientCalls (S : Segments) (d : EntryData) (p : Processor) (st : Statics) (is32 : Bool) : Prop where
  size : p.big S = is32
  ready : ModuleReady S d (S.base (p.regs.seg .cs)) p.mem st
  big : S.big st.dseg32 = true
  other : p.regs.seg .ss ≠ st.dseg32
  under : is32 = false → 16 ≤ (low (p.regs.gpr espReg)).toNat
  within : is32 = false → (low (p.regs.gpr espReg)).toNat + 6 ≤ 2 ^ 16
  clientClear : SlotsClear d (S.base (p.regs.seg .cs)) (clientBlock S p is32)
  privateClear : SlotsClear d (S.base (p.regs.seg .cs)) (privateBlock S d st.dseg32)
  apart : (privateBlock S d st.dseg32).Apart (clientBlock S p is32)

def int21Entered (S : Segments) (d : EntryData) (layout : Layout (entryCode d)) (is32 : Bool) (p : Processor)
    (st : Statics) : Statics × Frame :=
  enterInt21 S.base (S.base (p.regs.seg .cs)) d.stackEnd (layout.place (afterSwitch is32)) is32 (registersOf p.regs)
    (readItem is32 p.mem (p.stackTop S)) st

/-- The client goes on in `u`, with the words `w` that the handler has left in `r`. -/
structure Int21Returned (S : Segments) (d : EntryData) (is32 : Bool) (p : Processor) (f : Frame) (w : SigWords)
    (r u : Processor) : Prop where
  eip : u.regs.eip = readItem is32 r.mem (p.stackTop S)
  cs : u.regs.seg .cs = low (readItem is32 r.mem (p.stackTop S + BitVec.ofNat 32 (itemSize is32)))
  registers : registersOf u.regs =
    { leaveFrame { f with scp := w.frame } 0 with
      esp := above is32 (leaveFrame { f with scp := w.frame } 0).esp (BitVec.ofNat 32 (clientWords is32)) }
  tmpFlags : readDword u.mem (S.base (p.regs.seg .cs) + d.tmpFlags) = w.eflags
  kept : KeptOutside [⟨S.base (p.regs.seg .cs) + d.tmpFlags, 4⟩, privateBlock S d f.ss, ⟨p.stackTop S - 4, 4⟩]
    r.mem u.mem

section

variable {S : Segments} {d : EntryData} {layout : Layout (entryCode d)} {p : Processor} {st : Statics}

theorem clientBlock_under (is32 : Bool) :
    (stackItems true (stackLinear S (p.regs.seg .ss) (p.regs.gpr espReg)) 4).Within (clientBlock S p is32) :=
  Block.within_of_le (Nat.le_add_right 16 _)

theorem privateBlock_eq {dseg : Word} (big : S.big dseg = true) :
    stackItems true (stackLinear S dseg d.stackEnd) 30 = privateBlock S d dseg := by
  have start : stackLinear S dseg d.stackEnd = S.base dseg + d.stackEnd := by
    rw [stackLinear, big]
    rfl
  rw [stackItems, itemAddress, start]
  rfl

theorem int21_comes (is32 : Bool) (eip : p.regs.eip = layout.place ⟨int21Label is32, 0⟩)
    (calls : ClientCalls S d p st is32) :
    ∃ n c, SlotsHold d (S.base (p.regs.seg .cs)) n (savedStatics st (registersOf p.regs)) ∧
      KeptOutside (slotBlocks d (S.base (p.regs.seg .cs)) ++ [⟨p.stackTop S - 16, 16⟩]) p.mem n ∧
      registersOf p.regs = { registersOf c with
        esp := p.regs.gpr espReg, ss := p.regs.seg .ss, eflags := p.regs.eflags } ∧
      c.seg .ss = st.dseg32 ∧ c.seg .cs = p.regs.seg .cs ∧
      Comes S layout p (layout.place ⟨.dosInt21, 0⟩) true d.stackEnd 30 n c
        [layout.place (afterSwitch is32), underPointer is32 (p.regs.gpr espReg), (p.regs.seg .ss).setWidth 32] := by
  have size : S.big (p.regs.seg .ss) = is32 := calls.size
  have fresh := OnStack.fresh S true p 4 (fun narrow => calls.under (calls.size ▸ narrow)) (by decide)
  have clear : SlotsApart S d (S.base (p.regs.seg .cs)) (p.regs.seg .ss) (p.regs.gpr espReg) 4 := fun a among =>
    (clientBlock_under is32).apart (calls.clientClear a among)
  have saves : CodeAt (entryCode d) (int21Label is32) 0 (saveCode d) := by
    cases is32 <;> exact ⟨_, rfl⟩
  obtain ⟨f, n, slots, kept, s1⟩ := save_comes saves (Comes.start eip fresh) (by decide) calls.ready clear
  rw [List.length_nil, Nat.mul_zero, BitVec.sub_zero] at slots
  have dseg : readDword n (S.base (p.regs.seg .cs) + d.dseg32) = st.dseg32.setWidth 32 := slots.dseg32
  obtain ⟨g, s2⟩ := asks_stack is32 s1 calls.other (clear d.dseg32 (by simp [EntryData.slots])) dseg
  have switch : CodeAt (entryCode d) (int21Label is32) (switchIndex is32) (switchCode ⟨.dosInt21, 0⟩) := by
    cases is32 <;> exact ⟨_, rfl⟩
  have onPrivate : stackItems true (stackLinear S st.dseg32 d.stackEnd) 30 = privateBlock S d st.dseg32 :=
    privateBlock_eq calls.big
  obtain ⟨q, on, s3⟩ := switch_calls switch s2 rfl rfl (fun j few => by
      show S.base (p.regs.seg .ss) + _ = itemAddress true (stackLinear S (p.regs.seg .ss) _) _
      rw [stackLinear, size]
      exact underPointer_points calls.under few) calls.big (by
      rw [onPrivate]
      exact (Block.Within.apart (clientBlock_under is32) calls.apart.symm).symm)
  refine ⟨q.mem, _, slots_kept slots on clear, ?_, ?_, ?_, ?_, s3⟩
  · exact kept.trans on.keptOutside
  · rfl
  · rfl
  · rfl

theorem clientBlock_inner {is32 : Bool} {a : Dword} {n : Nat} (k : Nat) (inner : k + n ≤ 16 + clientWords is32)
    (start : a = p.stackTop S - 16 + BitVec.ofNat 32 k) : (Block.mk a n).Within (clientBlock S p is32) := by
  have words : clientWords is32 ≤ 12 := by cases is32 <;> decide
  intro x inside
  rw [start] at inside
  exact Block.covers_of_inner inner (by omega) inside

theorem clientItem_eq {is32 : Bool} (size : p.big S = is32) :
    stackItems true (stackLinear S (p.regs.seg .ss) (pointed is32 (p.regs.gpr espReg))) 1 = ⟨p.stackTop S - 4, 4⟩ ∧
      stackLinear S (p.regs.seg .ss) (pointed is32 (p.regs.gpr espReg)) = p.stackTop S := by
  have isBig : S.big (p.regs.seg .ss) = is32 := size
  have start : stackLinear S (p.regs.seg .ss) (pointed is32 (p.regs.gpr espReg)) = p.stackTop S := by
    rw [stackLinear, Processor.stackTop, isBig, size, pointed_pointed]
  rw [start]
  exact ⟨rfl, rfl⟩

def leaveIndex (is32 : Bool) : Nat := if is32 then 32 else 31

theorem int21_goesBack {is32 : Bool} {r : Processor} {c : Context} {flags : Dword} (calls : ClientCalls S d p st is32)
    (ss : c.seg .ss = st.dseg32) (cs : c.seg .cs = p.regs.seg .cs)
    (comes : Comes S layout r (layout.place ⟨.dosInt21, 4⟩) true d.stackEnd 30
      (writeDword r.mem (S.base (p.regs.seg .cs) + d.tmpFlags) flags) c
      [layout.place (afterSwitch is32), underPointer is32 (p.regs.gpr espReg), (p.regs.seg .ss).setWidth 32]) :
    ∃ n u, LeadsTo S layout r u ∧
      KeptOutside [⟨S.base (p.regs.seg .cs) + d.tmpFlags, 4⟩, privateBlock S d st.dseg32] r.mem n ∧
      readDword n (S.base (p.regs.seg .cs) + d.tmpFlags) = flags ∧
      FarReturned S is32 (if is32 then 4 else 2) (pointed is32 (p.regs.gpr espReg)) 1 n
        { c.withSeg .ss (p.regs.seg .ss) with eflags := flags } u := by
  have size : S.big (p.regs.seg .ss) = is32 := calls.size
  obtain ⟨item, start⟩ := clientItem_eq calls.size
  have switch : CodeAt (entryCode d) (int21Label is32) (switchIndex is32) (switchCode ⟨.dosInt21, 0⟩) := by
    cases is32 <;> exact ⟨_, rfl⟩
  have leave : CodeAt (entryCode d) (int21Label is32) (leaveIndex is32)
      (leaveCode d (.lret is32 (BitVec.ofNat 32 (if is32 then 4 else 2)))) := by
    cases is32 <;> exact ⟨[], rfl⟩
  have rise : underPointer is32 (p.regs.gpr espReg) + 16 = pointed is32 (p.regs.gpr espReg) := by
    rw [underPointer_eq calls.under, BitVec.sub_add_cancel]
  have low (narrow : is32 = false) :
      low (pointed is32 (p.regs.gpr espReg)) = X86.low (p.regs.gpr espReg) := by
    rw [narrow]
    exact low_zext _
  obtain ⟨q, f, on, s1⟩ := switch_back switch comes (by rw [ss]; exact calls.big) (by
    intro narrow
    have narrow := size.symm.trans narrow
    rw [rise, low narrow]
    exact Nat.le_trans (by decide) (calls.under narrow))
  rw [rise] at s1
  have onPrivate : stackItems true (stackLinear S (c.seg .ss) d.stackEnd) 30 = privateBlock S d st.dseg32 := by
    rw [ss]
    exact privateBlock_eq calls.big
  have s2 : Comes S layout r (layout.place ⟨int21Label is32, leaveIndex is32⟩) true
      (pointed is32 (p.regs.gpr espReg)) 1 q.mem { c.withSeg .ss (p.regs.seg .ss) with eflags := f } [] := by
    cases is32 with
    | true => exact s1.jmp rfl
    | false => exact s1
  have kept := (KeptOutside.writeDword r.mem _ _).trans on.keptOutside
  have saved : readDword q.mem (S.base (p.regs.seg .cs) + d.tmpFlags) = flags := by
    have slot := on.read_kept true (a := S.base (p.regs.seg .cs) + d.tmpFlags) (by
      rw [onPrivate]
      exact calls.privateClear _ (by simp [EntryData.slots]))
    exact slot.trans (readItem_writeItem true _ _ _)
  rw [onPrivate] at kept
  have own : ({ c.withSeg .ss (p.regs.seg .ss) with eflags := f } : Context).seg .ss = p.regs.seg .ss :=
    Context.withSeg_self c .ss (p.regs.seg .ss)
  have code : ({ c.withSeg .ss (p.regs.seg .ss) with eflags := f } : Context).seg .cs = p.regs.seg .cs := cs
  have words := itemSize_le is32
  obtain ⟨u, reaches, back⟩ := leave_returns (v := flags) leave s2 (by
      rw [own, code, item]
      exact (clientBlock_inner 12 (by omega) (by bv_omega)).apart (calls.clientClear _ (by simp [EntryData.slots])))
    (by rw [code]; exact saved)
    (by
      rw [own, size]
      intro narrow
      rw [low narrow, narrow]
      have within := calls.within narrow
      show _ + 2 < _
      omega)
    (by
      rw [own, item, start]
      refine Block.apart_of_offset ?_ ?_
      · show 4 ≤ offset (p.stackTop S - 4) (p.stackTop S)
        rw [offset]
        bv_omega
      · show 2 * itemSize is32 ≤ offset (p.stackTop S) (p.stackTop S - 4)
        rw [offset]
        bv_omega)
  exact ⟨q.mem, u, reaches, kept, saved, back⟩

theorem int21Entered_eq {is32 : Bool} (calls : ClientCalls S d p st is32) :
    int21Entered S d layout is32 p st =
      let called := doInt S.base (S.base (p.regs.seg .cs)) (registersOf p.regs) st.dseg32 (d.stackEnd - 8 - 8)
        (layout.place (afterSwitch is32)) (underPointer is32 (p.regs.gpr espReg))
        (savedStatics st (registersOf p.regs))
      (called.1, ⟨.int21 is32, registersOf p.regs, true, st.dseg32, d.stackEnd - 8 - 8, called.2⟩) := by
  have switched : decide ((registersOf p.regs).ss ≠ st.dseg32) = true := decide_eq_true calls.other
  simp only [int21Entered, enterInt21, switched, if_true]
  rfl

theorem int21_returned {is32 : Bool} {r u : Processor} {c : Context} {n : Memory} {w : SigWords} {f : Frame}
    (calls : ClientCalls S d p st is32) (entered : f = (int21Entered S d layout is32 p st).2)
    (registers : registersOf c = { w.frame.regs with esp := c.gpr espReg, ss := f.ss, eflags := c.eflags })
    (pointer : w.cs = underPointer is32 (p.regs.gpr espReg))
    (kept : KeptOutside [⟨S.base (p.regs.seg .cs) + d.tmpFlags, 4⟩, privateBlock S d st.dseg32] r.mem n)
    (saved : readDword n (S.base (p.regs.seg .cs) + d.tmpFlags) = w.eflags)
    (back : FarReturned S is32 (if is32 then 4 else 2) (pointed is32 (p.regs.gpr espReg)) 1 n
      { c.withSeg .ss (p.regs.seg .ss) with eflags := w.eflags } u) : Int21Returned S d is32 p f w r u := by
  obtain ⟨item, start⟩ := clientItem_eq calls.size
  have size : S.big (p.regs.seg .ss) = is32 := calls.size
  have own : ({ c.withSeg .ss (p.regs.seg .ss) with eflags := w.eflags } : Context).seg .ss = p.regs.seg .ss :=
    Context.withSeg_self c .ss (p.regs.seg .ss)
  have frame : f.ss = st.dseg32 := by rw [entered, int21Entered_eq calls]
  have read {a : Dword} (k : Nat) (inner : k + itemSize is32 ≤ 16 + clientWords is32)
      (place : a = p.stackTop S - 16 + BitVec.ofNat 32 k) : readItem is32 n a = readItem is32 r.mem a := by
    refine readItem_agree (kept.agree (b := clientBlock S p is32) fun b among => ?_) fun x inside =>
      clientBlock_inner k inner place x inside
    simp only [List.mem_cons, List.not_mem_nil, or_false] at among
    rcases among with rfl | rfl
    · exact calls.clientClear _ (by simp [EntryData.slots])
    · exact calls.apart.symm
  have last : KeptOutside [⟨p.stackTop S - 4, 4⟩] n u.mem := fun a outside => back.kept a (by
    rw [own, item]
    exact outside _ List.mem_cons_self)
  refine ⟨?_, ?_, ?_, ?_, ?_⟩
  · rw [back.eip, own, start]
    exact read 16 (by cases is32 <;> decide) (by bv_omega)
  · rw [back.seg, own, start, read (16 + itemSize is32) (by cases is32 <;> decide)
      (by rw [BitVec.ofNat_add]; bv_omega)]
    exact Context.withSeg_self _ _ _
  · have loaded : registersOf u.regs = { registersOf c with
        esp := u.regs.gpr espReg, ss := p.regs.seg .ss, eflags := w.eflags } := by
      simp only [registersOf, back.seg, back.eflags, back.gpr (r := 0) (by decide), back.gpr (r := 1) (by decide),
        back.gpr (r := 2) (by decide), back.gpr (r := 3) (by decide), back.gpr (r := 6) (by decide),
        back.gpr (r := 7) (by decide), back.gpr (r := ebpReg) (by decide)]
      rfl
    have words : 2 * itemSize is32 + (if is32 then 4 else 2) = clientWords is32 := by cases is32 <;> rfl
    have rise : w.cs + 16 = pointed is32 (p.regs.gpr espReg) := by
      rw [pointer, underPointer_eq calls.under, BitVec.sub_add_cancel]
    have left : leaveFrame { f with scp := w.frame } 0 =
        { w.frame.regs with esp := pointed is32 (p.regs.gpr espReg), ss := p.regs.seg .ss } := by
      rw [entered, int21Entered_eq calls, ← rise]
      rfl
    rw [loaded, registers, back.esp, own, size, words, left]
    rfl
  · have slot : readItem true u.mem (S.base (p.regs.seg .cs) + d.tmpFlags) =
        readItem true n (S.base (p.regs.seg .cs) + d.tmpFlags) := by
      refine readItem_agree (last.agree (b := ⟨S.base (p.regs.seg .cs) + d.tmpFlags, 4⟩) fun b among => ?_)
        fun _ inside => inside
      rw [List.mem_singleton.mp among]
      exact ((clientBlock_inner 12 (by omega) (by bv_omega)).apart
        (calls.clientClear d.tmpFlags (by simp [EntryData.slots]))).symm
    exact slot.trans saved
  · rw [frame]
    exact kept.trans last

/-- `int21_handler` is called with the frame of `enterInt21` on the private stack, and the client goes on with the
registers that `leaveFrame` takes from the context, as long as the handler leaves there what belongs to the way
back. -/
theorem int21_served (is32 : Bool) (eip : p.regs.eip = layout.place ⟨int21Label is32, 0⟩)
    (calls : ClientCalls S d p st is32) :
    ∃ q, LeadsTo S layout p q ∧
      HandlerCalled S d.int21Handler (int21Entered S d layout is32 p st).2 (registersOf p.regs) st q ∧
      SlotsHold d (S.base (p.regs.seg .cs)) q.mem (int21Entered S d layout is32 p st).1 ∧
      KeptOutside (slotBlocks d (S.base (p.regs.seg .cs)) ++ [⟨p.stackTop S - 16, 16⟩, privateBlock S d st.dseg32])
        p.mem q.mem ∧
      ∀ r, CdeclReturn S d 6 q r →
        (sigWordsAt r.mem (scpAddress S q)).frame.eip = (int21Entered S d layout is32 p st).2.scp.eip →
        (sigWordsAt r.mem (scpAddress S q)).frame.cs = (int21Entered S d layout is32 p st).2.scp.cs →
        ∃ u, LeadsTo S layout r u ∧ Int21Returned S d is32 p (int21Entered S d layout is32 p st).2
          (sigWordsAt r.mem (scpAddress S q)) r u := by
  obtain ⟨n, c, slots, kept, regs, ss, cs, comes⟩ := int21_comes is32 eip calls
  have onPrivate : stackItems true (stackLinear S (c.seg .ss) d.stackEnd) 30 = privateBlock S d st.dseg32 := by
    rw [ss]
    exact privateBlock_eq calls.big
  have entered : int21Entered S d layout is32 p st = _ := int21Entered_eq calls
  have ready : ModuleReady S d (S.base (c.seg .cs)) n (savedStatics st (registersOf p.regs)) := by
    rw [cs]
    exact ⟨slots, calls.ready.distinct, calls.ready.data⟩
  obtain ⟨q, reaches, called, held, stack, back⟩ := scpCall_served (r := registersOf p.regs)
    (f := (int21Entered S d layout is32 p st).2) rfl comes (by rw [ss]; exact calls.big) (Nat.le_refl 30)
    (by rw [ss, cs]; exact calls.ready.data) ready
    (by rw [SlotsApart, onPrivate, cs]; exact calls.privateClear) regs (by rw [entered, ss])
    (by rw [entered]; exact BitVec.sub_sub d.stackEnd 8 8) (by rw [entered, cs])
  rw [cs] at held stack
  rw [onPrivate] at stack
  refine ⟨q, reaches, ⟨called.eip, called.argument, called.scp, called.registers⟩, ?_, ?_,
    fun r returned same pointer => ?_⟩
  · rw [entered] at held ⊢
    simp only [doInt, if_pos calls.ready.data]
    exact held
  · refine (kept.trans stack).mono ?_
    simp only [slotBlocks, EntryData.slots, List.map_cons, List.map_nil]
    intro b among
    simp only [List.mem_append, List.mem_cons, List.not_mem_nil, or_false] at among ⊢
    tauto
  · obtain ⟨c', registers, cs', comes'⟩ := back r returned
    generalize sigWordsAt r.mem (scpAddress S q) = w at *
    have eip' : w.eip = layout.place (afterSwitch is32) := by
      rw [entered] at same
      exact same
    have pointer' : w.cs = underPointer is32 (p.regs.gpr espReg) := by
      rw [entered] at pointer
      exact pointer
    have ss' : c'.seg .ss = st.dseg32 := by
      have same := congrArg Registers.ss registers
      rw [entered] at same
      exact same
    rw [eip', pointer', cs] at comes'
    obtain ⟨m, u, reaches', kept', saved, goes⟩ := int21_goesBack calls ss' (cs'.trans cs) comes'
    exact ⟨u, reaches', int21_returned calls rfl registers pointer' kept' saved goes⟩

end

/-! ## A call on the module's stack -/

def ownBlock (S : Segments) (p : Processor) : Block := ⟨p.stackTop S - 112, 124⟩

structure OwnCalls (S : Segments) (d : EntryData) (p : Processor) (st : Statics) : Prop where
  ready : ModuleReady S d (S.base (p.regs.seg .cs)) p.mem st
  big : p.big S = true
  own : p.regs.seg .ss = st.dseg32
  clear : SlotsClear d (S.base (p.regs.seg .cs)) (ownBlock S p)

def ownEntered (S : Segments) (d : EntryData) (layout : Layout (entryCode d)) (p : Processor) (st : Statics) :
    Statics × Frame :=
  enterInt21 S.base (S.base (p.regs.seg .cs)) d.stackEnd (layout.place ⟨.dos32Int21, 32⟩) true (registersOf p.regs)
    (readDword p.mem (p.stackTop S)) st

/-- The caller goes on in `u`. It goes where the `cs` of the context says. -/
structure OwnReturned (S : Segments) (d : EntryData) (p : Processor) (f : Frame) (w : SigWords) (r u : Processor) :
    Prop where
  eip : u.regs.eip = w.cs
  cs : u.regs.seg .cs = low (readDword p.mem (p.stackTop S + 4))
  registers : registersOf u.regs =
    { leaveFrame { f with scp := w.frame } 0 with esp := (leaveFrame { f with scp := w.frame } 0).esp + 12 }
  tmpFlags : readDword u.mem (S.base (p.regs.seg .cs) + d.tmpFlags) = w.eflags
  kept : KeptOutside [⟨S.base (p.regs.seg .cs) + d.tmpFlags, 4⟩, ownBlock S p] r.mem u.mem

section

variable {S : Segments} {d : EntryData} {layout : Layout (entryCode d)} {p : Processor} {st : Statics}

theorem ownBlock_eq (big : p.big S = true) :
    stackItems true (stackLinear S (p.regs.seg .ss) (p.regs.gpr espReg + BitVec.ofNat 32 (4 * 3))) 31 =
      ownBlock S p := OnStack.stackItems_above big 3 28

theorem savedContext_back (c : Context) (dseg : Word) (f g : Dword) :
    ({ savedContext c dseg f with eflags := g }.withGpr 7 (c.gpr 7)).withGpr 6 (c.gpr 6) =
      { c with eflags := g } := by
  refine congrArg (fun gpr => { c with gpr := gpr, eflags := g }) (funext fun q => ?_)
  by_cases esi : q = 6
  · rw [if_pos esi, esi]
  · rw [if_neg esi]
    by_cases edi : q = 7
    · exact (if_pos edi).trans (congrArg c.gpr edi.symm)
    · exact (if_neg edi).trans ((if_neg esi).trans (if_neg edi))

theorem own_comes (eip : p.regs.eip = layout.place ⟨.dos32Int21, 0⟩) (calls : OwnCalls S d p st) :
    ∃ n f, SlotsHold d (S.base (p.regs.seg .cs)) n (savedStatics st (registersOf p.regs)) ∧
      KeptOutside (slotBlocks d (S.base (p.regs.seg .cs))) p.mem n ∧
      Comes S layout p (layout.place ⟨.dosInt21, 0⟩) true (p.regs.gpr espReg + BitVec.ofNat 32 (4 * 3)) 31 n
        { p.regs with eflags := f }
        [layout.place ⟨.dos32Int21, 32⟩, readDword p.mem (p.stackTop S), readDword p.mem (p.stackTop S + 4),
          readDword p.mem (p.stackTop S + 4 + 4)] := by
  have on := OnStack.of_memory S p calls.big 3 31 (by decide) (by decide)
  have clear : SlotsApart S d (S.base (p.regs.seg .cs)) (p.regs.seg .ss)
      (p.regs.gpr espReg + BitVec.ofNat 32 (4 * 3)) 31 := by
    rw [SlotsApart, ownBlock_eq calls.big]
    exact calls.clear
  obtain ⟨f, n, slots, kept, s1⟩ := save_comes (l := .dos32Int21) ⟨_, rfl⟩ (Comes.start eip on)
    (show 7 ≤ 31 by decide) calls.ready clear
  have raised : p.regs.gpr espReg + BitVec.ofNat 32 (4 * 3) - BitVec.ofNat 32 (4 * 3) = p.regs.gpr espReg :=
    BitVec.add_sub_cancel _ _
  have length : (itemsAt true p.mem (p.stackTop S) 3).length = 3 := rfl
  rw [length, raised] at slots
  have same : low (cutItem false ((p.regs.seg .ss).setWidth 32)) = low (st.dseg32.setWidth 32) := by
    rw [low_cutItem, calls.own]
  have s2 := s1.next rfl fun q on => on.cmp false
    (slot_word on (clear d.dseg32 (by simp [EntryData.slots])) slots.dseg32) (on.read_reg (by decide) false)
  have equal : (flagsOf .cmp false (st.dseg32.setWidth 32) (cutItem false ((p.regs.seg .ss).setWidth 32))
      f).getLsbD 6 = true := by
    rw [flagsOf_cmp, same]
    simp
  have s3 := s2.je rfl equal
  have s4 := s3.next rfl fun q on => on.popReg (r := 7) (by decide)
  have s5 := s4.next rfl fun q on => on.popReg (r := 6) (by decide)
  have s6 := s5.call rfl (show 3 < 31 by decide)
  have back := savedContext_back p.regs st.dseg32 f (flagsOf .cmp false (st.dseg32.setWidth 32)
    (cutItem false ((p.regs.seg .ss).setWidth 32)) f)
  refine ⟨n, flagsOf .cmp false (st.dseg32.setWidth 32) (cutItem false ((p.regs.seg .ss).setWidth 32)) f, slots, kept,
    ?_⟩
  rw [← back]
  exact s6

/-- On the module's own stack `int21_handler` is called with the frame of `enterInt21`, too. -/
theorem int21_served_own (eip : p.regs.eip = layout.place ⟨.dos32Int21, 0⟩) (calls : OwnCalls S d p st) :
    ∃ q, LeadsTo S layout p q ∧
      HandlerCalled S d.int21Handler (ownEntered S d layout p st).2 (registersOf p.regs) st q ∧
      SlotsHold d (S.base (p.regs.seg .cs)) q.mem (ownEntered S d layout p st).1 ∧
      KeptOutside (slotBlocks d (S.base (p.regs.seg .cs)) ++ [ownBlock S p]) p.mem q.mem ∧
      ∀ r, CdeclReturn S d 7 q r →
        (sigWordsAt r.mem (scpAddress S q)).frame.eip = (ownEntered S d layout p st).2.scp.eip →
        ∃ u, LeadsTo S layout r u ∧ OwnReturned S d p (ownEntered S d layout p st).2
          (sigWordsAt r.mem (scpAddress S q)) r u := by
  obtain ⟨n, g, slots, kept, comes⟩ := own_comes eip calls
  have switched : decide ((registersOf p.regs).ss ≠ st.dseg32) = false := decide_eq_false (not_not.mpr calls.own)
  have base : S.base (p.regs.seg .ss) = S.base (p.regs.seg .cs) := by
    rw [calls.own]
    exact calls.ready.data
  have entered : ownEntered S d layout p st =
      let called := doInt S.base (S.base (p.regs.seg .cs)) (registersOf p.regs) (p.regs.seg .ss)
        (p.regs.gpr espReg - 8) (layout.place ⟨.dos32Int21, 32⟩) (readDword p.mem (p.stackTop S))
        (savedStatics st (registersOf p.regs))
      (called.1, ⟨.int21 true, registersOf p.regs, false, p.regs.seg .ss, p.regs.gpr espReg - 8, called.2⟩) := by
    simp only [ownEntered, enterInt21, switched, if_false, Bool.false_eq_true]
    rfl
  have block := ownBlock_eq calls.big
  have ready : ModuleReady S d (S.base (p.regs.seg .cs)) n (savedStatics st (registersOf p.regs)) :=
    ⟨slots, calls.ready.distinct, calls.ready.data⟩
  obtain ⟨q, reaches, called, held, stack, back⟩ := scpCall_served (r := registersOf p.regs)
    (f := (ownEntered S d layout p st).2) rfl comes calls.big (Nat.le_refl 31) base ready
    (by rw [SlotsApart, block]; exact calls.clear)
    rfl (by rw [entered])
    (by
      rw [entered]
      show p.regs.gpr espReg - 8 = p.regs.gpr espReg + BitVec.ofNat 32 (4 * 3) - BitVec.ofNat 32 (4 * 5)
      bv_omega) (by rw [entered])
  rw [block] at stack
  refine ⟨q, reaches, ⟨called.eip, called.argument, called.scp, called.registers⟩, ?_, ?_, fun r returned same => ?_⟩
  · rw [entered] at held ⊢
    simp only [doInt, if_pos base]
    exact held
  · refine (kept.trans stack).mono ?_
    simp only [slotBlocks, EntryData.slots, List.map_cons, List.map_nil]
    intro b among
    simp only [List.mem_append, List.mem_cons, List.not_mem_nil, or_false] at among ⊢
    tauto
  · obtain ⟨c', registers, cs', comes'⟩ := back r returned
    generalize sigWordsAt r.mem (scpAddress S q) = w at *
    have ss : c'.seg .ss = p.regs.seg .ss := by
      have own := congrArg Registers.ss registers
      rw [entered] at own
      exact own
    have eip' : w.eip = layout.place ⟨.dos32Int21, 32⟩ := by
      rw [entered] at same
      exact same
    have code : c'.seg .cs = p.regs.seg .cs := cs'
    rw [eip'] at comes'
    have slot : (stackItems true (stackLinear S (c'.seg .ss) (p.regs.gpr espReg + BitVec.ofNat 32 (4 * 3))) 31).Apart
        ⟨S.base (c'.seg .cs) + d.tmpFlags, 4⟩ := by
      rw [ss, block, code]
      exact calls.clear _ (by simp [EntryData.slots])
    have s1 := comes'.ret rfl
    have s2 := s1.next rfl fun q on => on.pushOp (v := w.eflags) (show 3 < 31 by decide)
      ((on.read_slot .cs d.tmpFlags slot).trans (by rw [code]; exact readItem_writeItem true _ _ _))
    have s3 := s2.next rfl fun q on => on.popf
    obtain ⟨u, reaches', goes, on⟩ := s3.lret [readDword p.mem (p.stackTop S + 4 + 4)] rfl
    rw [cutItem_wide] at on
    have esp : u.regs.gpr espReg = p.regs.gpr espReg + 12 := on.esp_eq.trans (BitVec.sub_zero _)
    have loaded : registersOf
        ({ c' with eflags := w.eflags }.withSeg .cs (low (readDword p.mem (p.stackTop S + 4)))) =
        { registersOf c' with eflags := w.eflags } := rfl
    refine ⟨u, reaches', goes.trans (cutItem_wide _), ?_, ?_, ?_, ?_⟩
    · rw [on.seg]
      exact Context.withSeg_self _ _ _
    · have left : leaveFrame { (ownEntered S d layout p st).2 with scp := w.frame } 0 =
          { w.frame.regs with esp := p.regs.gpr espReg - 8 + 8, ss := p.regs.seg .ss } := by
        rw [entered]
        rfl
      rw [registersOf_onStack on, esp, loaded, registers, left, BitVec.sub_add_cancel, entered]
      rfl
    · have kept := on.read_kept true slot
      rw [code] at kept
      exact kept.trans (readItem_writeItem true r.mem _ _)
    · have kept := (KeptOutside.writeDword r.mem _ _).trans on.keptOutside
      rw [← block, ← ss]
      exact kept

end

/-! ## Calls -/

def calledOwn : Processor where
  regs := { gpr := fun _ => 0xa000, seg := fun r => if r = .cs then 0x87 else 0x8f,
            eip := (roomyLayout residentData).place ⟨.dos32Int21, 0⟩, eflags := 0x202 }
  mem := writeDword (writeDword (writeDword (fun _ => 0) 0x12010 0x8f) 0x1a000 0x1234) 0x1a004 0x87

theorem int21_served_own_flat : ∃ q u, LeadsTo flatSegments (roomyLayout residentData) calledOwn q ∧
    q.regs.eip = 0x4000 ∧ (sigWordsAt q.mem (scpAddress flatSegments q)).cs = 0x1234 ∧
    LeadsTo flatSegments (roomyLayout residentData) (returnAtOnce flatSegments q) u ∧
    u.regs.eip = 0x1234 ∧ u.regs.seg .cs = 0x87 ∧ u.regs.gpr espReg = 0xa00c := by
  have block : ownBlock flatSegments calledOwn = ⟨0x19f90, 124⟩ := by decide +kernel
  have apart : (Block.mk 0x19f90 124 ::
      residentData.slots.map fun a => Block.mk (flatSegments.base 0x87 + a) 4).Pairwise
      fun b c => b.length ≤ offset b.start c.start ∧ c.length ≤ offset c.start b.start := by decide
  obtain ⟨clear, distinct⟩ := List.pairwise_cons.mp (apart.imp fun far => Block.apart_of_offset far.1 far.2)
  have ready : ModuleReady flatSegments residentData (flatSegments.base 0x87) calledOwn.mem residentStatics :=
    ⟨⟨by decide +kernel, by decide +kernel, by decide +kernel, by decide +kernel, by decide +kernel⟩, distinct, rfl⟩
  have stacked : readDword calledOwn.mem (calledOwn.stackTop flatSegments) = 0x1234 ∧
      low (readDword calledOwn.mem (calledOwn.stackTop flatSegments + 4)) = 0x87 := by decide +kernel
  have calls : OwnCalls flatSegments residentData calledOwn residentStatics := by
    refine ⟨ready, rfl, rfl, ?_⟩
    rw [block]
    exact fun a among => clear _ (List.mem_map_of_mem among)
  obtain ⟨q, reaches, called, -, -, back⟩ :=
    @int21_served_own flatSegments residentData (roomyLayout residentData) calledOwn residentStatics rfl calls
  have big : q.big flatSegments = true := rfl
  obtain ⟨u, returns, after⟩ := back (returnAtOnce flatSegments q) (returnAtOnce_returns _ _ big)
    (congrArg SigFrame.eip called.scp)
  have pointer : (sigWordsAt q.mem (scpAddress flatSegments q)).cs = 0x1234 :=
    (congrArg SigFrame.cs called.scp).trans stacked.1
  refine ⟨q, u, reaches, called.eip, pointer, returns, after.eip.trans pointer, after.cs.trans stacked.2, ?_⟩
  have left (w : SigFrame) : (leaveFrame { (ownEntered flatSegments residentData (roomyLayout residentData) calledOwn
      residentStatics).2 with scp := w } 0).esp = 0xa000 := rfl
  have risen := congrArg Registers.esp after.registers
  rw [left] at risen
  exact risen

def clientSegments : Segments := ⟨fun s => if s = 0x97 then 0x40000 else 0x10000, fun s => s ≠ 0x97⟩

def called16 : Processor where
  regs := { gpr := fun _ => 0x12342000, seg := fun r => if r = .cs then 0x87 else 0x97,
            eip := (roomyLayout residentData).place ⟨.dos16Int21, 0⟩, eflags := 0x202 }
  mem := writeDword (writeDword (fun _ => 0) 0x12010 0x8f) 0x42000 0x971234

/-- The upper half of ESP is lost. -/
theorem int21_served_16 : ∃ q u, LeadsTo clientSegments (roomyLayout residentData) called16 q ∧
    q.regs.eip = 0x4000 ∧ q.regs.seg .ss = 0x8f ∧
    LeadsTo clientSegments (roomyLayout residentData) (returnAtOnce clientSegments q) u ∧
    u.regs.eip = readItem false q.mem 0x42000 ∧ u.regs.gpr espReg = 0x2006 := by
  have client : clientBlock clientSegments called16 false = ⟨0x41ff0, 22⟩ := by decide +kernel
  have own : privateBlock clientSegments residentData 0x8f = ⟨0x17f88, 120⟩ := by decide +kernel
  have top : called16.stackTop clientSegments = 0x42000 := by decide +kernel
  have apart : (Block.mk 0x17f88 120 :: Block.mk 0x41ff0 22 ::
      residentData.slots.map fun a => Block.mk (clientSegments.base 0x87 + a) 4).Pairwise
      fun b c => b.length ≤ offset b.start c.start ∧ c.length ≤ offset c.start b.start := by decide
  obtain ⟨stack, rest⟩ := List.pairwise_cons.mp (apart.imp fun far => Block.apart_of_offset far.1 far.2)
  obtain ⟨clear, distinct⟩ := List.pairwise_cons.mp rest
  have ready : ModuleReady clientSegments residentData (clientSegments.base 0x87) called16.mem residentStatics :=
    ⟨⟨by decide +kernel, by decide +kernel, by decide +kernel, by decide +kernel, by decide +kernel⟩, distinct, rfl⟩
  have calls : ClientCalls clientSegments residentData called16 residentStatics false := by
    refine ⟨rfl, ready, rfl, by decide, fun _ => by decide, fun _ => by decide, ?_, ?_, ?_⟩
    · rw [client]
      exact fun a among => clear _ (List.mem_map_of_mem among)
    · show SlotsClear _ _ (privateBlock clientSegments residentData 0x8f)
      rw [own]
      exact fun a among => stack _ (List.mem_cons_of_mem _ (List.mem_map_of_mem among))
    · show (privateBlock clientSegments residentData 0x8f).Apart _
      rw [own, client]
      exact stack _ List.mem_cons_self
  obtain ⟨q, reaches, called, -, -, back⟩ :=
    @int21_served clientSegments residentData (roomyLayout residentData) called16 residentStatics false rfl calls
  have ss : q.regs.seg .ss = 0x8f := congrArg Registers.ss called.registers
  have big : q.big clientSegments = true := by
    rw [Processor.big, ss]
    rfl
  obtain ⟨u, returns, after⟩ := back (returnAtOnce clientSegments q) (returnAtOnce_returns _ _ big)
    (congrArg SigFrame.eip called.scp) (congrArg SigFrame.cs called.scp)
  have goes := after.eip
  rw [top] at goes
  refine ⟨q, u, reaches, called.eip, ss, returns, goes, ?_⟩
  have pointer : (sigWordsAt (returnAtOnce clientSegments q).mem (scpAddress clientSegments q)).frame.cs =
      underPointer false 0x12342000 := by
    refine (congrArg SigFrame.cs called.scp).trans ?_
    rw [int21Entered_eq calls]
    rfl
  generalize (sigWordsAt (returnAtOnce clientSegments q).mem (scpAddress clientSegments q)) = w at *
  have left := congrArg Registers.esp after.registers
  rw [int21Entered_eq calls] at left
  have risen : u.regs.gpr espReg = above false (w.frame.cs + 16) 6 := left
  rw [risen, pointer]
  decide

end Pmdapi
