import Pmdapi.EntryCode

/-!
`do_int` executed: the words of `struct sigcontext` on the stack when the handler is called, and the
registers taken from them when it is back.
-/

namespace Pmdapi
open Bytes X86

section

variable {S : Segments} {d : EntryData} {layout : Layout (entryCode d)} {p : Processor} {t : Dword} {room : Nat}
  {m : Memory} {c : Context} {pre : List Dword}

abbrev SlotsApart (S : Segments) (d : EntryData) (base : Dword) (ss : Word) (t : Dword) (room : Nat) : Prop :=
  SlotsClear d base (stackItems true (stackLinear S ss t) room)

/-- What `do_int` pushes: the segment registers, the general ones but for EBP, and what it finds elsewhere. -/
def pushedWords (c : Context) (ebp esp eip cs eflags espAtSignal ss fpstate oldmask cr2 : Dword) : SigWords where
  gs := (c.seg .gs).setWidth 32
  fs := (c.seg .fs).setWidth 32
  es := (c.seg .es).setWidth 32
  ds := (c.seg .ds).setWidth 32
  edi := c.gpr 7
  esi := c.gpr 6
  ebp := ebp
  esp := esp
  ebx := c.gpr 3
  edx := c.gpr 2
  ecx := c.gpr 1
  eax := c.gpr 0
  trapno := 0
  err := 0
  eip := eip
  cs := cs
  eflags := eflags
  espAtSignal := espAtSignal
  ss := ss
  fpstate := fpstate
  oldmask := oldmask
  cr2 := cr2

def afterSave (S : Segments) (d : EntryData) (m : Memory) (c : Context) : Memory :=
  writeDword m (S.base (c.seg .ss) + d.tmpEbp) (c.gpr ebpReg)

def handlerContext (S : Segments) (d : EntryData) (m : Memory) (c : Context) (f : Dword) : Context :=
  let dseg := readDword (afterSave S d m c) (S.base (c.seg .cs) + d.dseg32)
  ((({ c with eflags := f }).withGpr 0 dseg).withSeg .ds (low dseg)).withSeg .es (low dseg)

theorem doInt_calls {back handler w0 w4 w8 : Dword}
    (start : Comes S layout p (layout.place ⟨.doInt, 0⟩) true t room m c
      (back :: handler :: w0 :: w4 :: w8 :: pre))
    (big : S.big (c.seg .ss) = true) (frame : c.gpr ebpReg = below true t (BitVec.ofNat 32 (4 * (pre.length + 3))))
    (fits : pre.length + 29 ≤ room) (apart : SlotsApart S d (S.base (c.seg .cs)) (c.seg .ss) t room)
    (saved : (stackItems true (stackLinear S (c.seg .ss) t) room).Apart ⟨S.base (c.seg .ss) + d.tmpEbp, 4⟩) :
    ∃ f fpstate oldmask cr2,
      Comes S layout p handler true t room (afterSave S d m c) (handlerContext S d m c f)
        (layout.place ⟨.doInt, 21⟩ :: below true t (BitVec.ofNat 32 (4 * (pre.length + 27))) ::
          ((pushedWords c w0 (below true t (BitVec.ofNat 32 (4 * (pre.length + 15)))) w4 w8
            (readDword m (S.base (c.seg .cs) + d.tmpFlags)) (readDword m (S.base (c.seg .cs) + d.tmpEsp))
            (readDword m (S.base (c.seg .cs) + d.tmpSs)) fpstate oldmask cr2).list ++
            back :: handler :: w0 :: w4 :: w8 :: pre)) := by
  obtain ⟨f, unused, length, s1⟩ := start.subEsp 3 big (by simp only [List.length_cons]; omega) rfl
  obtain ⟨u0, u1, u2, rfl⟩ := List.length_eq_three.mp length
  refine ⟨f, u0, u1, u2, ?_⟩
  have slot {a : Dword} (among : a ∈ d.slots) := apart a among
  have s2 := s1.next rfl fun q on => on.pushOp (by simp; omega)
    (on.read_slot .cs d.tmpSs (slot (by simp [EntryData.slots])))
  have s3 := s2.next rfl fun q on => on.pushOp (by simp; omega)
    (on.read_slot .cs d.tmpEsp (slot (by simp [EntryData.slots])))
  have s4 := s3.next rfl fun q on => on.pushOp (by simp; omega)
    (on.read_slot .cs d.tmpFlags (slot (by simp [EntryData.slots])))
  have s5 := s4.next rfl fun q on => on.pushOp (v := w8) (by simp; omega) (on.read_item 10 rfl
    (on.address_up big (n := pre.length + 1) 2 ((on.gpr (by decide)).trans frame) (by omega)))
  have s6 := s5.next rfl fun q on => on.pushOp (v := w4) (by simp; omega) (on.read_item 10 rfl
    (on.address_up big (n := pre.length + 2) 1 ((on.gpr (by decide)).trans frame) (by omega)))
  have s7 := s6.next rfl fun q on => on.pushOp (v := 0) (by simp; omega) rfl
  have s8 := s7.next rfl fun q on => on.pushOp (v := 0) (by simp; omega) rfl
  have s9 := s8.next rfl fun q on => on.pusha big (by simp; omega)
  -- the client's EBP takes the place of the frame pointer
  have s10 := s9.next rfl fun q on => on.pushOp (v := w0) (by simp; omega) (on.read_item 20 rfl
    (on.address_up big (n := pre.length + 3) 0 ((on.gpr (by decide)).trans frame) (by omega)))
  have s11 := s10.next rfl fun q on => on.popItem [c.gpr 7, c.gpr 6]
    (on.drop.address_up big (n := pre.length + 21) 2 (on.drop.esp_big big) (by omega))
  have s12 := s11.next rfl fun q on => on.movSlot .ss d.tmpEbp saved (on.read_reg (by decide) true)
  have s13 := s12.next rfl fun q on => on.pushSeg (by simp; omega) .ds
  have s14 := s13.next rfl fun q on => on.pushSeg (by simp; omega) .es
  have s15 := s14.next rfl fun q on => on.pushSeg (by simp; omega) .fs
  have s16 := s15.next rfl fun q on => on.pushSeg (by simp; omega) .gs
  have s17 := s16.next rfl fun q on => on.movReg (r := 0) (by decide)
    (on.read_slot .cs d.dseg32 (slot (by simp [EntryData.slots])))
  have s18 := s17.next rfl fun q on => on.movToSeg (r := .ds) (by decide) (q := 0) (by decide)
  have s19 := s18.next rfl fun q on => on.movToSeg (r := .es) (by decide) (q := 0) (by decide)
  have s20 := s19.next rfl fun q on => on.pushOp (v := below true t (BitVec.ofNat 32 (4 * (pre.length + 27))))
    (by simp; omega) (on.esp_big big)
  exact s20.callAt rfl (by simp; omega) fun q on => on.read_item 24 rfl
    (on.address_down (k := pre.length + 3) big 1 ((on.gpr (by decide)).trans frame) (by omega))

/-- The registers are those of the words, but for the stack and EBP. -/
structure Restores (w : SigWords) (c c' : Context) : Prop where
  eax : c'.gpr 0 = w.eax
  ecx : c'.gpr 1 = w.ecx
  edx : c'.gpr 2 = w.edx
  ebx : c'.gpr 3 = w.ebx
  esi : c'.gpr 6 = w.esi
  edi : c'.gpr 7 = w.edi
  gs : c'.seg .gs = low w.gs
  fs : c'.seg .fs = low w.fs
  es : c'.seg .es = low w.es
  ds : c'.seg .ds = low w.ds
  ss : c'.seg .ss = c.seg .ss
  cs : c'.seg .cs = c.seg .cs

theorem doInt_returns {arg back handler w0 w4 w8 : Dword} {w : SigWords}
    (start : Comes S layout p (layout.place ⟨.doInt, 21⟩) true t room m c
      (arg :: (w.list ++ back :: handler :: w0 :: w4 :: w8 :: pre)))
    (big : S.big (c.seg .ss) = true) (frame : c.gpr ebpReg = below true t (BitVec.ofNat 32 (4 * (pre.length + 3))))
    (fits : pre.length + 29 ≤ room) (apart : SlotsApart S d (S.base (c.seg .cs)) (c.seg .ss) t room)
    (data : S.base (c.seg .ds) = S.base (c.seg .cs))
    (slots : (Block.mk (S.base (c.seg .cs) + d.tmpEbp) 4).Apart ⟨S.base (c.seg .cs) + d.tmpFlags, 4⟩)
    (saved : readDword m (S.base (c.seg .cs) + d.tmpEbp) = below true t (BitVec.ofNat 32 (4 * (pre.length + 3)))) :
    ∃ c', Restores w c c' ∧ c'.gpr ebpReg = below true t (BitVec.ofNat 32 (4 * (pre.length + 3))) ∧
      Comes S layout p back true t room (writeDword m (S.base (c.seg .cs) + d.tmpFlags) w.eflags) c'
        (handler :: w.ebp :: w.eip :: w.cs :: pre) := by
  have slot {a : Dword} (among : a ∈ d.slots) := apart a among
  obtain ⟨f, s22⟩ := start.addEsp [arg] big rfl
  have s23 := s22.next rfl fun q on => on.movReg (r := 0) (v := w.eflags) (by decide) (on.read_item 16 rfl
    (on.address_up big (n := pre.length + 11) 16 (on.esp_big big) (by omega)))
  have s24 := s23.next rfl fun q on => on.movSlot .ds d.tmpFlags (v := w.eflags)
    (data ▸ slot (by simp [EntryData.slots])) (on.read_reg (by decide) true)
  have s25 := s24.next rfl fun q on => on.popSeg (r := .gs) (by decide)
  have s26 := s25.next rfl fun q on => on.popSeg (r := .fs) (by decide)
  have s27 := s26.next rfl fun q on => on.popSeg (r := .es) (by decide)
  have s28 := s27.next rfl fun q on => on.popSeg (r := .ds) (by decide)
  have s29 := s28.next rfl fun q on => on.pushOp (v := w.ebp) (by simp; omega) (on.read_item 2 rfl
    (on.address_up big (n := pre.length + 21) 2 (on.esp_big big) (by omega)))
  have s30 := s29.next rfl fun q on => on.popItem (w.list.drop 4 ++ [back, handler])
    (on.drop.address_up big (n := pre.length + 3) 0 ((on.drop.gpr (by decide)).trans frame) (by omega))
  have s31 := s30.next rfl fun q on => on.popa
  have kept : readDword (writeDword m (S.base (c.seg .ds) + d.tmpFlags) w.eflags) (S.base (c.seg .cs) + d.tmpEbp) =
      below true t (BitVec.ofNat 32 (4 * (pre.length + 3))) := by
    rw [readDword_elsewhere m (by rw [data]; exact slots), saved]
  have s32 := s31.next rfl fun q on => on.movReg (r := 5) (by decide)
    ((on.read_slot .cs d.tmpEbp (slot (by simp [EntryData.slots]))).trans kept)
  obtain ⟨g, s33⟩ := s32.addEsp [w.trapno, w.err] big rfl
  have s34 := s33.next rfl fun q on => on.popItem (w.list.drop 15 ++ [back, handler, w.ebp])
    (on.drop.address_up big (n := pre.length + 2) 1 (on.drop.gpr (by decide)) (by omega))
  have s35 := s34.next rfl fun q on => on.popItem (w.list.drop 16 ++ [back, handler, w.ebp, w.eip])
    (on.drop.address_up big (n := pre.length + 1) 2 (on.drop.gpr (by decide)) (by omega))
  obtain ⟨h, s36⟩ := s35.addEsp (w.list.drop 16) big rfl
  rw [← data]
  refine ⟨_, ?_, ?_, s36.ret rfl⟩
  · exact ⟨rfl, rfl, rfl, rfl, rfl, rfl, rfl, rfl, rfl, rfl, rfl, rfl⟩
  · rfl

/-! ## The handler -/

theorem sigWordsAt_list (m : Memory) (a : Dword) : (sigWordsAt m a).list = itemsAt true m a 22 := by
  simp only [itemsAt, sigWordsAt, SigWords.list, itemSize, readItem, if_true, BitVec.add_assoc]
  rfl

theorem SigWords.list_injective {w v : SigWords} (same : w.list = v.list) : w = v := by
  cases w
  cases v
  simpa [SigWords.list] using same

theorem sigWordsAt_eq {w : SigWords} {rest : List Dword} {top : Dword} (items : Items true top m (w.list ++ rest)) :
    sigWordsAt m (itemAddress true top (rest.length + 22)) = w :=
  SigWords.list_injective ((sigWordsAt_list _ _).trans items.itemsAt_eq)

theorem items_sigWordsAt {rest : List Dword} {top : Dword} (items : Items true top m rest) :
    Items true top m ((sigWordsAt m (itemAddress true top (rest.length + 22))).list ++ rest) := by
  rw [sigWordsAt_list]
  exact (items.itemsAt_append 22).2

/-- The stack of a handler that has returned: its argument and its context may be others. -/
theorem handler_back {back arg : Dword} {w : SigWords} {rest : List Dword} {q r : Processor}
    (on : OnStack S true t room m c (back :: arg :: (w.list ++ rest)) q) (big : S.big (c.seg .ss) = true)
    (returned : CdeclReturn S d rest.length q r) :
    ∃ arg, OnStack S true t room r.mem r.regs
      (arg :: ((sigWordsAt r.mem (scpAddress S q)).list ++ rest)) r := by
  have ss : r.regs.seg .ss = c.seg .ss := by rw [returned.ss, on.seg]
  have top : q.stackTop S = itemAddress true (stackLinear S (c.seg .ss) t) (rest.length + 24) := on.stackTop
  have scp : scpAddress S q = itemAddress true (stackLinear S (c.seg .ss) t) (rest.length + 22) := by
    rw [scpAddress, top]
    exact itemAddress_up true _ (rest.length + 22) 2
  have behind : scpAddress S q + 88 = itemAddress true (stackLinear S (c.seg .ss) t) rest.length := by
    rw [scp]
    exact itemAddress_up true _ rest.length 22
  have within : rest.length + 24 ≤ room := on.within
  have small : 4 * room < 2 ^ 32 := on.small
  have upper : Items true (stackLinear S (c.seg .ss) t) r.mem rest := by
    have before : Items true (stackLinear S (c.seg .ss) t) q.mem rest := fun v deeper among =>
      on.items v deeper (among.trans (List.suffix_append (back :: arg :: w.list) rest))
    refine before.agree returned.frame (fun a inside => ?_) (by show 4 * rest.length < _; omega)
    rw [behind]
    exact inside
  have words := items_sigWordsAt upper
  rw [← scp] at words
  refine ⟨readDword r.mem (itemAddress true (stackLinear S (c.seg .ss) t) (rest.length + 23)), ?_⟩
  refine ⟨?_, on.small, ?_, ?_, fun _ => rfl, rfl, rfl, ?_, fun _ _ => rfl⟩
  · rw [ss]
    exact on.narrow
  · show rest.length + 23 ≤ room
    omega
  · rw [returned.esp, on.esp, ss, big]
    show t - BitVec.ofNat 32 (4 * (rest.length + 24)) + 4 = t - BitVec.ofNat 32 (4 * (rest.length + 23))
    have one : BitVec.ofNat 32 (4 * (rest.length + 24)) = BitVec.ofNat 32 (4 * (rest.length + 23)) + 4 := by
      rw [show 4 * (rest.length + 24) = 4 * (rest.length + 23) + 4 by omega, BitVec.ofNat_add]
      rfl
    rw [one]
    bv_omega
  · rw [ss]
    exact words.cons rfl

/-! ## A stub around `do_int` -/

section Call

variable {l : EntryLabel} {cname : Dword} {ir : Instruction EntryLabel} {w4 w8 : Dword}

def framed (t : Dword) (pre : List Dword) (c : Context) : Context :=
  c.withGpr ebpReg (below true t (BitVec.ofNat 32 (4 * (pre.length + 3))))

theorem scpCall_calls (is : entryCode d l = scpCallCode cname ir)
    (start : Comes S layout p (layout.place ⟨l, 0⟩) true t room m c (w4 :: w8 :: pre))
    (big : S.big (c.seg .ss) = true) (fits : pre.length + 29 ≤ room)
    (apart : SlotsApart S d (S.base (c.seg .cs)) (c.seg .ss) t room)
    (saved : (stackItems true (stackLinear S (c.seg .ss) t) room).Apart ⟨S.base (c.seg .ss) + d.tmpEbp, 4⟩) :
    ∃ f fpstate oldmask cr2,
      Comes S layout p cname true t room (afterSave S d m (framed t pre c))
        (handlerContext S d m (framed t pre c) f)
        (layout.place ⟨.doInt, 21⟩ :: below true t (BitVec.ofNat 32 (4 * (pre.length + 27))) ::
          ((pushedWords c (c.gpr ebpReg) (below true t (BitVec.ofNat 32 (4 * (pre.length + 15)))) w4 w8
            (readDword m (S.base (c.seg .cs) + d.tmpFlags)) (readDword m (S.base (c.seg .cs) + d.tmpEsp))
            (readDword m (S.base (c.seg .cs) + d.tmpSs)) fpstate oldmask cr2).list ++
            layout.place ⟨l, 3⟩ :: cname :: c.gpr ebpReg :: w4 :: w8 :: pre)) := by
  obtain ⟨h0, s1⟩ := start.enter (by rw [is]; rfl) big (by simp; omega)
  have s2 := s1.next (by rw [is]; rfl) fun q on => on.movItem [] (v := cname)
    (on.address_down (k := pre.length + 3) big 1 (on.gpr (r := ebpReg) (by decide)) (by omega)) rfl
  have s3 := s2.call (by rw [is]; rfl) (by simp; omega)
  exact doInt_calls s3 big rfl fits apart saved

theorem scpCall_returns (is : entryCode d l = scpCallCode cname ir) {q r : Processor} {arg e : Dword} {w : SigWords}
    (on : OnStack S true t room m c (layout.place ⟨.doInt, 21⟩ :: arg ::
      (w.list ++ layout.place ⟨l, 3⟩ :: cname :: e :: w4 :: w8 :: pre)) q)
    (big : S.big (c.seg .ss) = true) (frame : c.gpr ebpReg = below true t (BitVec.ofNat 32 (4 * (pre.length + 3))))
    (fits : pre.length + 29 ≤ room) (apart : SlotsApart S d (S.base (c.seg .cs)) (c.seg .ss) t room)
    (data : S.base (c.seg .ds) = S.base (c.seg .cs))
    (slots : (Block.mk (S.base (c.seg .cs) + d.tmpEbp) 4).Apart ⟨S.base (c.seg .cs) + d.tmpFlags, 4⟩)
    (saved : readDword m (S.base (c.seg .cs) + d.tmpEbp) = below true t (BitVec.ofNat 32 (4 * (pre.length + 3))))
    (returned : CdeclReturn S d (pre.length + 5) q r) :
    ∃ c', Restores (sigWordsAt r.mem (scpAddress S q)) c c' ∧
      c'.gpr ebpReg = (sigWordsAt r.mem (scpAddress S q)).ebp ∧
      Comes S layout r (layout.place ⟨l, 4⟩) true t room
        (writeDword r.mem (S.base (c.seg .cs) + d.tmpFlags) (sigWordsAt r.mem (scpAddress S q)).eflags) c'
        ((sigWordsAt r.mem (scpAddress S q)).eip :: (sigWordsAt r.mem (scpAddress S q)).cs :: pre) := by
  obtain ⟨arg', back⟩ := handler_back on big returned
  generalize sigWordsAt r.mem (scpAddress S q) = v at *
  have cs : r.regs.seg .cs = c.seg .cs := by rw [returned.cs, on.seg]
  have ss : r.regs.seg .ss = c.seg .ss := by rw [returned.ss, on.seg]
  have ds : r.regs.seg .ds = c.seg .ds := by rw [returned.ds, on.seg]
  have eip : r.regs.eip = layout.place ⟨.doInt, 21⟩ := returned.eip.trans on.top
  have kept : readDword r.mem (S.base (c.seg .cs) + d.tmpEbp) =
      below true t (BitVec.ofNat 32 (4 * (pre.length + 3))) := by
    have slot := returned.slot
    rw [on.seg] at slot
    rw [slot, ← saved]
    exact on.read_kept true (apart _ (by simp [EntryData.slots]))
  obtain ⟨c', restored, ebp, s1⟩ := doInt_returns (Comes.start eip back) (by rw [ss]; exact big)
    (by rw [returned.ebp, on.gpr (by decide), frame]) fits (by rw [cs, ss]; exact apart) (by rw [ds, cs]; exact data)
    (by rw [cs]; exact slots) (by rw [cs]; exact kept)
  have same : Restores v c c' := { restored with ss := restored.ss.trans ss, cs := restored.cs.trans cs }
  have s2 := s1.next (by rw [is]; rfl) fun q on => on.leave [cname] (by rw [same.ss]; exact big) ebp
  rw [cs] at s2
  refine ⟨_, ?_, ?_, s2⟩
  · exact { same with }
  · rfl

end Call

/-! ## What the handler finds -/

theorem called_words {q : Processor} {back arg : Dword} {w : SigWords} {rest : List Dword}
    (on : OnStack S true t room m c (back :: arg :: (w.list ++ rest)) q) :
    sigWordsAt q.mem (scpAddress S q) = w ∧ readDword q.mem (q.stackTop S + 4) = arg := by
  have top : q.stackTop S = itemAddress true (stackLinear S (c.seg .ss) t) (rest.length + 24) := on.stackTop
  constructor
  · have scp : scpAddress S q = itemAddress true (stackLinear S (c.seg .ss) t) (rest.length + 22) := by
      rw [scpAddress, top]
      exact itemAddress_up true _ (rest.length + 22) 2
    rw [scp]
    exact sigWordsAt_eq fun v deeper among => on.items v deeper (among.trans (List.suffix_append [back, arg] _))
  · have next : q.stackTop S + 4 = itemAddress true (stackLinear S (c.seg .ss) t) (rest.length + 23) := by
      rw [top]
      exact itemAddress_next true _ (rest.length + 23)
    rw [next]
    exact on.items arg (w.list ++ rest) (List.suffix_append [back] _)

structure SlotPairs (d : EntryData) (base : Dword) : Prop where
  flagsEsp : (Block.mk (base + d.tmpFlags) 4).Apart ⟨base + d.tmpEsp, 4⟩
  flagsSs : (Block.mk (base + d.tmpFlags) 4).Apart ⟨base + d.tmpSs, 4⟩
  flagsEbp : (Block.mk (base + d.tmpFlags) 4).Apart ⟨base + d.tmpEbp, 4⟩
  flagsDseg : (Block.mk (base + d.tmpFlags) 4).Apart ⟨base + d.dseg32, 4⟩
  espSs : (Block.mk (base + d.tmpEsp) 4).Apart ⟨base + d.tmpSs, 4⟩
  espEbp : (Block.mk (base + d.tmpEsp) 4).Apart ⟨base + d.tmpEbp, 4⟩
  espDseg : (Block.mk (base + d.tmpEsp) 4).Apart ⟨base + d.dseg32, 4⟩
  ssEbp : (Block.mk (base + d.tmpSs) 4).Apart ⟨base + d.tmpEbp, 4⟩
  ssDseg : (Block.mk (base + d.tmpSs) 4).Apart ⟨base + d.dseg32, 4⟩
  ebpDseg : (Block.mk (base + d.tmpEbp) 4).Apart ⟨base + d.dseg32, 4⟩

theorem SlotsDistinct.pairs {base : Dword} (distinct : SlotsDistinct d base) : SlotPairs d base := by
  simp only [SlotsDistinct, EntryData.slots, List.map_cons, List.map_nil, List.pairwise_cons, List.mem_cons,
    forall_eq_or_imp] at distinct
  obtain ⟨⟨fe, fs, fb, fd, -⟩, ⟨es, eb, ed, -⟩, ⟨sb, sd, -⟩, ⟨bd, -⟩, -⟩ := distinct
  exact ⟨fe, fs, fb, fd, es, eb, ed, sb, sd, bd⟩

theorem readDword_wordElsewhere (m : Memory) {a b : Dword} {v : Word} (apart : (Block.mk b 4).Apart ⟨a, 4⟩) :
    readDword (writeWord m a v) b = readDword m b :=
  have within : (Block.mk a 2).Within ⟨a, 4⟩ := Block.within_of_le (by decide)
  have kept : readItem true (writeWord m a v) b = readItem true m b :=
    readItem_agree (P := (Block.mk b 4).Covers)
      (writeWord_agree m fun x inside covered => apart x inside (within x covered)) fun _ inside => inside
  kept

section Slots

variable {base : Dword} {st : Statics}

theorem SlotsHold.tmpEbpWritten (slots : SlotsHold d base m st) (pairs : SlotPairs d base) (v : Dword) :
    SlotsHold d base (writeDword m (base + d.tmpEbp) v) { st with tmpEbp := v } where
  tmpFlags := (readDword_elsewhere m pairs.flagsEbp).trans slots.tmpFlags
  tmpEsp := (readDword_elsewhere m pairs.espEbp).trans slots.tmpEsp
  tmpSs := (congrArg low (readDword_elsewhere m pairs.ssEbp)).trans slots.tmpSs
  tmpEbp := readItem_writeItem true m _ v
  dseg32 := (readDword_elsewhere m pairs.ebpDseg.symm).trans slots.dseg32

theorem SlotsHold.tmpFlagsWritten (slots : SlotsHold d base m st) (pairs : SlotPairs d base) (v : Dword) :
    SlotsHold d base (writeDword m (base + d.tmpFlags) v) { st with tmpFlags := v } where
  tmpFlags := readItem_writeItem true m _ v
  tmpEsp := (readDword_elsewhere m pairs.flagsEsp.symm).trans slots.tmpEsp
  tmpSs := (congrArg low (readDword_elsewhere m pairs.flagsSs.symm)).trans slots.tmpSs
  tmpEbp := (readDword_elsewhere m pairs.flagsEbp.symm).trans slots.tmpEbp
  dseg32 := (readDword_elsewhere m pairs.flagsDseg.symm).trans slots.dseg32

theorem SlotsHold.tmpEspWritten (slots : SlotsHold d base m st) (pairs : SlotPairs d base) (v : Dword) :
    SlotsHold d base (writeDword m (base + d.tmpEsp) v) { st with tmpEsp := v } where
  tmpFlags := (readDword_elsewhere m pairs.flagsEsp).trans slots.tmpFlags
  tmpEsp := readItem_writeItem true m _ v
  tmpSs := (congrArg low (readDword_elsewhere m pairs.espSs.symm)).trans slots.tmpSs
  tmpEbp := (readDword_elsewhere m pairs.espEbp.symm).trans slots.tmpEbp
  dseg32 := (readDword_elsewhere m pairs.espDseg.symm).trans slots.dseg32

theorem SlotsHold.tmpSsWritten (slots : SlotsHold d base m st) (pairs : SlotPairs d base) (v : Word) :
    SlotsHold d base (writeWord m (base + d.tmpSs) v) { st with tmpSs := v } where
  tmpFlags := (readDword_wordElsewhere m pairs.flagsSs).trans slots.tmpFlags
  tmpEsp := (readDword_wordElsewhere m pairs.espSs).trans slots.tmpEsp
  tmpSs := (low_readDword _ _).trans (readWord_writeWord m _ v)
  tmpEbp := (readDword_wordElsewhere m pairs.ssEbp.symm).trans slots.tmpEbp
  dseg32 := (readDword_wordElsewhere m pairs.ssDseg.symm).trans slots.dseg32

end Slots

theorem registersOf_handler {dseg : Word} {f : Dword}
    (read : readDword (afterSave S d m c) (S.base (c.seg .cs) + d.dseg32) = dseg.setWidth 32) :
    registersOf (handlerContext S d m c f) =
      { registersOf c with eax := dseg.setWidth 32, ds := dseg, es := dseg, eflags := f } ∧
      (handlerContext S d m c f).seg .ds = dseg := by
  simp only [handlerContext, read, low_zext]
  exact ⟨rfl, rfl⟩

theorem registersOf_onStack {wide : Bool} {values : List Dword} {q : Processor}
    (on : OnStack S wide t room m c values q) :
    registersOf q.regs = { registersOf c with esp := q.regs.gpr espReg } := by
  simp only [registersOf, on.seg, on.eflags, on.gpr (r := 0) (by decide), on.gpr (r := 1) (by decide),
    on.gpr (r := 2) (by decide), on.gpr (r := 3) (by decide), on.gpr (r := 6) (by decide),
    on.gpr (r := 7) (by decide), on.gpr (r := ebpReg) (by decide)]

theorem slots_kept {values : List Dword} {q : Processor} {base : Dword} {st : Statics}
    (slots : SlotsHold d base m st) (on : OnStack S true t room m c values q)
    (apart : SlotsApart S d base (c.seg .ss) t room) : SlotsHold d base q.mem st := by
  have kept {a : Dword} (among : a ∈ d.slots) : readDword q.mem (base + a) = readDword m (base + a) :=
    on.read_kept true (apart a among)
  refine ⟨?_, ?_, ?_, ?_, ?_⟩
  · rw [kept (by simp [EntryData.slots])]
    exact slots.tmpFlags
  · rw [kept (by simp [EntryData.slots])]
    exact slots.tmpEsp
  · rw [kept (by simp [EntryData.slots])]
    exact slots.tmpSs
  · rw [kept (by simp [EntryData.slots])]
    exact slots.tmpEbp
  · rw [kept (by simp [EntryData.slots])]
    exact slots.dseg32

/-- A stub serves its caller: the handler finds the frame, and its context goes back to the registers. -/
theorem scpCall_served {l : EntryLabel} {cname w4 w8 : Dword} {ir : Instruction EntryLabel} {st : Statics}
    {r : Registers} {f : Frame} (is : entryCode d l = scpCallCode cname ir)
    (start : Comes S layout p (layout.place ⟨l, 0⟩) true t room m c (w4 :: w8 :: pre))
    (big : S.big (c.seg .ss) = true) (fits : pre.length + 29 ≤ room) (same : S.base (c.seg .ss) = S.base (c.seg .cs))
    (ready : ModuleReady S d (S.base (c.seg .cs)) m st)
    (apart : SlotsApart S d (S.base (c.seg .cs)) (c.seg .ss) t room)
    (regs : r = { registersOf c with esp := r.esp, ss := r.ss, eflags := r.eflags }) (ss : f.ss = c.seg .ss)
    (ebp : f.ebp = t - BitVec.ofNat 32 (4 * (pre.length + 3)))
    (scp : f.scp = (doInt S.base (S.base (c.seg .cs)) r f.ss f.ebp w4 w8 st).2) :
    ∃ q, LeadsTo S layout p q ∧ HandlerCalled S cname f r st q ∧
      SlotsHold d (S.base (c.seg .cs)) q.mem { st with tmpEbp := f.ebp } ∧
      KeptOutside [⟨S.base (c.seg .cs) + d.tmpEbp, 4⟩, stackItems true (stackLinear S (c.seg .ss) t) room] m q.mem ∧
      ∀ u, CdeclReturn S d (pre.length + 5) q u → ∃ c',
        registersOf c' = { (sigWordsAt u.mem (scpAddress S q)).frame.regs with
          esp := c'.gpr espReg, ss := f.ss, eflags := c'.eflags } ∧
        c'.seg .cs = c.seg .cs ∧
        Comes S layout u (layout.place ⟨l, 4⟩) true t room
          (writeDword u.mem (S.base (c.seg .cs) + d.tmpFlags) (sigWordsAt u.mem (scpAddress S q)).eflags) c'
          ((sigWordsAt u.mem (scpAddress S q)).eip :: (sigWordsAt u.mem (scpAddress S q)).cs :: pre) := by
  obtain ⟨flags, fpstate, oldmask, cr2, q, reaches, eip, on⟩ :=
    scpCall_calls is start big fits apart (by rw [same]; exact apart _ (by simp [EntryData.slots]))
  have memory : afterSave S d m (framed t pre c) = writeDword m (S.base (c.seg .cs) + d.tmpEbp) f.ebp := by
    rw [afterSave, framed, Context.withGpr_self, ebp]
    exact congrArg (fun base => writeDword m (base + d.tmpEbp) _) same
  have saved : SlotsHold d (S.base (c.seg .cs)) (afterSave S d m (framed t pre c)) { st with tmpEbp := f.ebp } := by
    rw [memory]
    exact ready.slots.tmpEbpWritten ready.distinct.pairs _
  rw [memory] at on saved
  obtain ⟨words, argument⟩ := called_words on
  have dseg : readDword (afterSave S d m (framed t pre c)) (S.base (c.seg .cs) + d.dseg32) =
      st.dseg32.setWidth 32 := by
    rw [memory]
    exact saved.dseg32
  obtain ⟨registers, ds⟩ := registersOf_handler (f := flags) dseg
  have esp : q.regs.gpr espReg = t - BitVec.ofNat 32 (4 * (pre.length + 29)) := on.esp_big big
  have pointer : below true t (BitVec.ofNat 32 (4 * (pre.length + 3))) = f.ebp := ebp.symm
  have frame : f.ebp - BitVec.ofNat 32 frameDepth = t - BitVec.ofNat 32 (4 * (pre.length + 29)) := by
    rw [ebp, BitVec.sub_sub, ← BitVec.ofNat_add]
    congr 2
  refine ⟨q, reaches, ⟨eip, ?_, ?_, ?_⟩, slots_kept saved on apart, ?_, fun u returned => ?_⟩
  · rw [argument, esp]
    exact (itemAddress_up true t (pre.length + 27) 2).symm
  · rw [words, scp, regs]
    simp only [SigWords.frame, pushedWords, doInt, ready.slots.tmpFlags, ready.slots.tmpEsp, ready.slots.tmpSs,
      low_zext]
    rfl
  · rw [registersOf_onStack on, esp, on.eflags, registers, regs, handlerRegisters, frame, ss, ← pointer]
    rfl
  · exact (KeptOutside.writeDword m _ _).trans on.keptOutside
  · obtain ⟨c', restored, popped, back⟩ := scpCall_returns is on big rfl fits apart
      (by rw [ds]; exact ready.data) ready.distinct.pairs.flagsEbp.symm (by rw [pointer]; exact saved.tmpEbp) returned
    refine ⟨c', ?_, restored.cs, back⟩
    generalize sigWordsAt u.mem (scpAddress S q) = w at *
    simp only [registersOf, SigWords.frame, restored.eax, restored.ecx, restored.edx, restored.ebx, restored.esi,
      restored.edi, restored.gs, restored.fs, restored.es, restored.ds, restored.ss, popped, ss]
    rfl

end

end Pmdapi
