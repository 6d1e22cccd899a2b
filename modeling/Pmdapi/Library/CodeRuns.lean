import Pmdapi.Library.StackFrames

/-!
Runs of assembly code from one place to the next, with what is on the stack there.
-/

namespace Pmdapi.X86
open Bytes

section

variable (S : Segments) {Label : Type} {code : Label → List (Instruction Label)} (layout : Layout code)

def LeadsTo (p q : Processor) : Prop := ∃ n, runCode S layout n p = some q

theorem runCode_add {p q : Processor} {a : Nat} (b : Nat) (first : runCode S layout a p = some q) :
    runCode S layout (a + b) p = runCode S layout b q := by
  induction a generalizing p with
  | zero =>
    obtain rfl := Option.some.inj first
    rw [Nat.zero_add]
  | succ a ih =>
    obtain ⟨r, step, rest⟩ := Option.bind_eq_some_iff.mp first
    rw [Nat.succ_add, runCode, step]
    exact ih rest

theorem LeadsTo.trans {p q r : Processor} (first : LeadsTo S layout p q) (second : LeadsTo S layout q r) :
    LeadsTo S layout p r := by
  obtain ⟨a, first⟩ := first
  obtain ⟨b, second⟩ := second
  exact ⟨a + b, (runCode_add S layout b first).trans second⟩

def CodeAt (code : Label → List (Instruction Label)) (l : Label) (k : Nat) (part : List (Instruction Label)) : Prop :=
  part <+: (code l).drop k

theorem CodeAt.get {l : Label} {k : Nat} {part : List (Instruction Label)} (stands : CodeAt code l k part) (i : Nat)
    {x : Instruction Label} (is : part[i]? = some x) : (code l)[k + i]? = some x := by
  obtain ⟨rest, whole⟩ := stands
  obtain ⟨inside, -⟩ := List.getElem?_eq_some_iff.mp is
  rw [← List.getElem?_drop, ← whole, List.getElem?_append_left inside, is]

/-- The program leads from `p` to `eip`, with `values` on the stack. -/
def Comes (p : Processor) (eip : Dword) (wide : Bool) (t : Dword) (room : Nat) (m : Memory) (c : Context)
    (values : List Dword) : Prop :=
  ∃ q, LeadsTo S layout p q ∧ q.regs.eip = eip ∧ OnStack S wide t room m c values q

variable {S layout} {p : Processor} {l : Label} {k : Nat} {wide : Bool} {t : Dword} {room : Nat} {m : Memory}
  {c : Context} {values : List Dword}

theorem Comes.start {eip : Dword} (here : p.regs.eip = eip) (on : OnStack S wide t room m c values p) :
    Comes S layout p eip wide t room m c values :=
  ⟨p, ⟨0, rfl⟩, here, on⟩

theorem Comes.goes (comes : Comes S layout p (layout.place ⟨l, k⟩) wide t room m c values)
    {i : Instruction Label} (is : (code l)[k]? = some i) {P : Processor → Prop}
    (does : ∀ q, OnStack S wide t room m c values q → P (i.exec S layout ⟨l, k⟩ q)) :
    ∃ q, LeadsTo S layout p q ∧ P q := by
  obtain ⟨q, before, eip, on⟩ := comes
  have step : stepCode S layout q = some (i.exec S layout ⟨l, k⟩ q) := by
    rw [stepCode, eip, layout.found l k (List.getElem?_eq_some_iff.mp is).1]
    show ((code l)[k]?.bind fun i => some (i.exec S layout ⟨l, k⟩ q)) = _
    rw [is]
    rfl
  refine ⟨_, before.trans S layout ⟨1, ?_⟩, does q on⟩
  rw [runCode, step]
  rfl

theorem Comes.next (comes : Comes S layout p (layout.place ⟨l, k⟩) wide t room m c values) {x : Plain}
    (is : (code l)[k]? = some (.plain x)) {wide' : Bool} {t' : Dword} {room' : Nat} {m' : Memory} {c' : Context}
    {values' : List Dword} (does : ∀ q, OnStack S wide t room m c values q →
      OnStack S wide' t' room' m' c' values' (x.exec S q)) :
    Comes S layout p (layout.place ⟨l, k + 1⟩) wide' t' room' m' c' values' :=
  comes.goes is fun q on => ⟨rfl, (does q on).jumpTo _⟩

theorem Comes.call (comes : Comes S layout p (layout.place ⟨l, k⟩) true t room m c values)
    {target : Position Label} (is : (code l)[k]? = some (.call target)) (fits : values.length < room) :
    Comes S layout p (layout.place target) true t room m c (layout.place ⟨l, k + 1⟩ :: values) :=
  comes.goes is fun _ on => ⟨rfl, (on.push fits _).jumpTo _⟩

theorem Comes.callAt (comes : Comes S layout p (layout.place ⟨l, k⟩) true t room m c values) {src : Operand}
    (is : (code l)[k]? = some (.callAt src)) (fits : values.length < room) {target : Dword}
    (value : ∀ q, OnStack S true t room m c values q → src.read S q true = target) :
    Comes S layout p target true t room m c (layout.place ⟨l, k + 1⟩ :: values) :=
  comes.goes is fun q on => ⟨value q on, (on.push fits _).jumpTo _⟩

theorem Comes.lcallAt (comes : Comes S layout p (layout.place ⟨l, k⟩) wide t room m c values) (seg : SegReg)
    (disp : Dword) (is : (code l)[k]? = some (.lcallAt wide (.mem true seg none disp)))
    (fits : values.length + 2 ≤ room)
    (apart : (stackItems wide (stackLinear S (c.seg .ss) t) room).Apart
      ⟨S.base (c.seg seg) + disp, itemSize wide + 2⟩) :
    Comes S layout p (readItem wide m (S.base (c.seg seg) + disp)) wide t room m
      (c.withSeg .cs (readWord m (S.base (c.seg seg) + disp + BitVec.ofNat 32 (itemSize wide))))
      (layout.place ⟨l, k + 1⟩ :: (c.seg .cs).setWidth 32 :: values) :=
  comes.goes is fun q on => by
    have size := itemSize_le wide
    have start := on.read_kept wide fun a covered inside =>
      apart a covered (Block.within_of_le (Nat.le_add_right _ 2) a inside)
    have segment : readWord q.mem (S.base (c.seg seg) + disp + BitVec.ofNat 32 (itemSize wide)) =
        readWord m (S.base (c.seg seg) + disp + BitVec.ofNat 32 (itemSize wide)) :=
      readWord_agree on.kept fun a inside covered =>
        apart a covered (Block.covers_of_inner (Nat.le_refl _) (by omega) inside)
    have offset : (loadFar S wide q (.mem true seg none disp)).1 = readItem wide m (S.base (c.seg seg) + disp) := by
      rw [loadFar, on.address_plain, start]
    have selector : (loadFar S wide q (.mem true seg none disp)).2 =
        readWord m (S.base (c.seg seg) + disp + BitVec.ofNat 32 (itemSize wide)) := by
      rw [loadFar, on.address_plain, segment]
    have pushed := (on.push (by omega) ((q.regs.seg .cs).setWidth 32)).push (by rw [List.length_cons]; omega)
      (layout.place ⟨l, k + 1⟩)
    have called := (pushed.jumpTo (loadFar S wide q (.mem true seg none disp)).1).withSeg (r := .cs) (by decide)
      (loadFar S wide q (.mem true seg none disp)).2
    have own : q.regs.seg .cs = c.seg .cs := congrFun on.seg .cs
    refine ⟨offset, ?_⟩
    rw [← selector, ← own]
    exact called

theorem Comes.ret {back : Dword}
    (comes : Comes S layout p (layout.place ⟨l, k⟩) true t room m c (back :: values))
    (is : (code l)[k]? = some .ret) : Comes S layout p back true t room m c values :=
  comes.goes is fun _ on => ⟨on.top.trans (cutItem_wide _), on.drop.jumpTo _⟩

theorem Comes.lret {a b : Dword} (released : List Dword)
    (comes : Comes S layout p (layout.place ⟨l, k⟩) wide t room m c (a :: b :: (released ++ values)))
    (is : (code l)[k]? = some (.lret wide (BitVec.ofNat 32 (itemSize wide * released.length)))) :
    Comes S layout p (cutItem wide a) wide t room m (c.withSeg .cs (low (cutItem wide b))) values :=
  comes.goes is fun q on => by
    have after := ((on.drop.drop.release released).jumpTo (q.top S wide)).withSeg (r := .cs) (by decide)
      (low (cutItem wide b))
    refine ⟨on.top, ?_⟩
    rw [← on.drop.top]
    rw [← on.drop.top] at after
    exact after

theorem Comes.iret {a b f : Dword}
    (comes : Comes S layout p (layout.place ⟨l, k⟩) true t room m c (a :: b :: f :: values))
    (is : (code l)[k]? = some (.iret true)) :
    Comes S layout p a true t room m { c.withSeg .cs (low b) with eflags := f } values :=
  comes.goes is fun q on => by
    have cs : (q.drop S true).top S true = b := on.drop.top.trans (cutItem_wide _)
    have flags : ((q.drop S true).drop S true).top S true = f := on.drop.drop.top.trans (cutItem_wide _)
    have released := on.drop.drop.drop
    refine ⟨on.top.trans (cutItem_wide _), ?_⟩
    simp only [Instruction.exec, setPart_wide, cs, flags]
    generalize ((q.drop S true).drop S true).drop S true = r at *
    exact ((released.jumpTo (q.top S true)).withSeg (r := .cs) (by decide) (low b)).withFlags f

theorem Comes.jmp (comes : Comes S layout p (layout.place ⟨l, k⟩) wide t room m c values)
    {target : Position Label} (is : (code l)[k]? = some (.jmp target)) :
    Comes S layout p (layout.place target) wide t room m c values :=
  comes.goes is fun _ on => ⟨rfl, on.jumpTo _⟩

theorem Comes.je (comes : Comes S layout p (layout.place ⟨l, k⟩) wide t room m c values) {target : Position Label}
    (is : (code l)[k]? = some (.je target)) {b : Bool} (zero : c.eflags.getLsbD 6 = b) :
    Comes S layout p (layout.place (if b then target else ⟨l, k + 1⟩)) wide t room m c values :=
  comes.goes is fun q on => ⟨by rw [← zero, ← on.eflags]; rfl, on.jumpTo _⟩

theorem Comes.jne (comes : Comes S layout p (layout.place ⟨l, k⟩) wide t room m c values) {target : Position Label}
    (is : (code l)[k]? = some (.jne target)) {b : Bool} (zero : c.eflags.getLsbD 6 = b) :
    Comes S layout p (layout.place (if b then ⟨l, k + 1⟩ else target)) wide t room m c values :=
  comes.goes is fun q on => ⟨by rw [← zero, ← on.eflags]; rfl, on.jumpTo _⟩

/-- Another stack in use; the memory is as it was left. -/
theorem Comes.lss (comes : Comes S layout p (layout.place ⟨l, k⟩) wide t room m c values) {addr32 : Bool}
    {seg : SegReg} {index : Option (BitVec 3)} {disp : Dword} (wide' : Bool) (a v w : Dword) (room' : Nat)
    (is : (code l)[k]? = some (.plain (.lss (.mem addr32 seg index disp))))
    (far : ∀ q, OnStack S wide t room m c values q → Operand.address S q addr32 seg index disp = a ∧
      readDword q.mem a = v ∧ readDword q.mem (a + 4) = w)
    (narrow : S.big (low w) = false → itemSize wide' * room' ≤ (low v).toNat)
    (small : itemSize wide' * room' < 2 ^ 32) :
    ∃ q, OnStack S wide t room m c values q ∧
      Comes S layout p (layout.place ⟨l, k + 1⟩) wide' v room' q.mem (c.withSeg .ss (low w)) [] := by
  obtain ⟨u, reaches, q, eip, before, after⟩ := comes.goes is
    (P := fun u => ∃ q, u.regs.eip = layout.place ⟨l, k + 1⟩ ∧ OnStack S wide t room m c values q ∧
      OnStack S wide' v room' q.mem (c.withSeg .ss (low w)) [] u) fun q on => by
      obtain ⟨address, esp, ss⟩ := far q on
      exact ⟨q, rfl, on, (on.lss wide' address esp ss narrow small).jumpTo _⟩
  exact ⟨q, before, u, reaches, eip, after⟩

theorem Comes.rise (comes : Comes S layout p (layout.place ⟨l, k⟩) wide t 0 m c []) {n : Dword} (room' : Nat)
    (is : (code l)[k]? = some (.plain (.add true (.reg espReg) (.imm n))))
    (narrow : S.big (c.seg .ss) = false → itemSize wide * room' ≤ (low (t + n)).toNat)
    (small : itemSize wide * room' < 2 ^ 32) :
    ∃ f, Comes S layout p (layout.place ⟨l, k + 1⟩) wide (t + n) room' m { c with eflags := f } [] := by
  obtain ⟨u, reaches, f, eip, on⟩ := comes.goes is (P := fun u => ∃ f, u.regs.eip = layout.place ⟨l, k + 1⟩ ∧
    OnStack S wide (t + n) room' m { c with eflags := f } [] u) fun q on => by
      obtain ⟨f, risen⟩ := on.rise n narrow small
      exact ⟨f, rfl, risen.jumpTo _⟩
  exact ⟨f, u, reaches, eip, on⟩

theorem Comes.addSlot (comes : Comes S layout p (layout.place ⟨l, k⟩) wide t room m c values) {seg : SegReg}
    {a n : Dword} (is : (code l)[k]? = some (.plain (.add true (.mem true seg none a) (.imm n))))
    (apart : (stackItems wide (stackLinear S (c.seg .ss) t) room).Apart ⟨S.base (c.seg seg) + a, 4⟩) :
    ∃ f, Comes S layout p (layout.place ⟨l, k + 1⟩) wide t room
      (writeDword m (S.base (c.seg seg) + a) (readDword m (S.base (c.seg seg) + a) + n)) { c with eflags := f }
      values := by
  obtain ⟨u, reaches, f, eip, on⟩ := comes.goes is (P := fun u => ∃ f, u.regs.eip = layout.place ⟨l, k + 1⟩ ∧
    OnStack S wide t room (writeDword m (S.base (c.seg seg) + a) (readDword m (S.base (c.seg seg) + a) + n))
      { c with eflags := f } values u) fun q on => by
      obtain ⟨f, added⟩ := on.addSlot seg a n apart
      exact ⟨f, rfl, added.jumpTo _⟩
  exact ⟨f, u, reaches, eip, on⟩

/-- A far return through what lies above the stack's start: an offset and a segment of either width, and `n`
bytes more. -/
structure FarReturned (S : Segments) (wide : Bool) (n : Nat) (t : Dword) (room : Nat) (m : Memory) (c : Context)
    (u : Processor) : Prop where
  eip : u.regs.eip = readItem wide m (stackLinear S (c.seg .ss) t)
  seg : u.regs.seg =
    (c.withSeg .cs (low (readItem wide m (stackLinear S (c.seg .ss) t + BitVec.ofNat 32 (itemSize wide))))).seg
  esp : u.regs.gpr espReg = above (S.big (c.seg .ss)) t (BitVec.ofNat 32 (2 * itemSize wide + n))
  gpr : ∀ {r}, r ≠ espReg → u.regs.gpr r = c.gpr r
  eflags : u.regs.eflags = c.eflags
  kept : AgreeOn (¬(stackItems true (stackLinear S (c.seg .ss) t) room).Covers ·) m u.mem

theorem Comes.farReturn (comes : Comes S layout p (layout.place ⟨l, k⟩) true t room m c []) {n : Nat}
    (is : (code l)[k]? = some (.lret wide (BitVec.ofNat 32 n)))
    (within : S.big (c.seg .ss) = false → (low t).toNat + itemSize wide < 2 ^ 16)
    (apart : (stackItems true (stackLinear S (c.seg .ss) t) room).Apart
      ⟨stackLinear S (c.seg .ss) t, 2 * itemSize wide⟩) :
    ∃ u, LeadsTo S layout p u ∧ FarReturned S wide n t room m c u := by
  refine comes.goes is fun q on => ?_
  have esp : q.regs.gpr espReg = t := on.esp_eq.trans (BitVec.sub_zero _)
  have first : q.stackTop S = stackLinear S (c.seg .ss) t := by
    rw [Processor.stackTop, on.big, on.seg, esp, stackLinear]
  have second : (q.drop S wide).stackTop S =
      stackLinear S (c.seg .ss) t + BitVec.ofNat 32 (itemSize wide) := by
    show S.base (q.regs.seg .ss) + pointed (S.big (q.regs.seg .ss))
      ((q.regs.withGpr espReg (above (q.big S) (q.regs.gpr espReg) _)).gpr espReg) = _
    rw [Context.withGpr_self, on.big, on.seg, esp]
    exact base_above _ within
  have inner (j : Nat) (few : j ≤ itemSize wide) :
      readItem wide q.mem (stackLinear S (c.seg .ss) t + BitVec.ofNat 32 j) =
        readItem wide m (stackLinear S (c.seg .ss) t + BitVec.ofNat 32 j) := by
    have size := itemSize_le wide
    exact on.read_kept wide fun a covered inside =>
      apart a covered (Block.covers_of_inner (by omega) (by omega) inside)
  have top : (q.drop S wide).top S wide =
      readItem wide m (stackLinear S (c.seg .ss) t + BitVec.ofNat 32 (itemSize wide)) := by
    rw [Processor.top, second]
    exact inner _ (Nat.le_refl _)
  have whole : (((q.drop S wide).drop S wide).raise S (BitVec.ofNat 32 n)).regs.gpr espReg =
      above (S.big (c.seg .ss)) t (BitVec.ofNat 32 (2 * itemSize wide + n)) := by
    simp only [Processor.drop, Processor.raise_esp, Processor.raise_big, above_above, on.big, esp, ← BitVec.ofNat_add]
    rw [Nat.two_mul, Nat.add_assoc]
  refine ⟨?_, ?_, whole, fun other => ?_, on.eflags, on.kept⟩
  · have start := inner 0 (Nat.zero_le _)
    rw [BitVec.add_zero] at start
    show q.top S wide = _
    rw [Processor.top, first, start]
  · show (q.regs.withSeg .cs (low ((q.drop S wide).top S wide))).seg = _
    rw [top]
    exact congrArg (fun seg => fun r => if r = .cs then _ else seg r) on.seg
  · show (((q.drop S wide).drop S wide).raise S (BitVec.ofNat 32 n)).regs.gpr _ = _
    simp only [Processor.drop, Processor.raise, Context.withGpr_withGpr, Context.withGpr_other _ _ _ other]
    exact on.gpr other

theorem Comes.addEsp (released : List Dword)
    (comes : Comes S layout p (layout.place ⟨l, k⟩) wide t room m c (released ++ values))
    (size : S.big (c.seg .ss) = wide)
    (is : (code l)[k]? = some (.plain (.add wide (.reg espReg)
      (.imm (BitVec.ofNat 32 (itemSize wide * released.length)))))) :
    ∃ f, Comes S layout p (layout.place ⟨l, k + 1⟩) wide t room m { c with eflags := f } values := by
  obtain ⟨q, reaches, f, eip, on⟩ := comes.goes is (P := fun q => ∃ f, q.regs.eip = layout.place ⟨l, k + 1⟩ ∧
    OnStack S wide t room m { c with eflags := f } values q) fun q on => by
      obtain ⟨f, after⟩ := on.addEsp released size
      exact ⟨f, rfl, after.jumpTo _⟩
  exact ⟨f, q, reaches, eip, on⟩

theorem Comes.enter (comes : Comes S layout p (layout.place ⟨l, k⟩) true t room m c values)
    (is : (code l)[k]? = some (.plain (.enter 4))) (big : S.big (c.seg .ss) = true)
    (fits : values.length + 2 ≤ room) :
    ∃ unused, Comes S layout p (layout.place ⟨l, k + 1⟩) true t room m
      (c.withGpr ebpReg (below true t (BitVec.ofNat 32 (4 * (values.length + 1)))))
      (unused :: c.gpr ebpReg :: values) := by
  obtain ⟨q, reaches, unused, eip, on⟩ := comes.goes is
    (P := fun q => ∃ unused, q.regs.eip = layout.place ⟨l, k + 1⟩ ∧ OnStack S true t room m
      (c.withGpr ebpReg (below true t (BitVec.ofNat 32 (4 * (values.length + 1)))))
      (unused :: c.gpr ebpReg :: values) q) fun q on => by
      obtain ⟨unused, entered⟩ := on.enter big fits
      exact ⟨unused, rfl, entered.jumpTo _⟩
  exact ⟨unused, q, reaches, eip, on⟩

theorem Comes.subEsp (n : Nat) (comes : Comes S layout p (layout.place ⟨l, k⟩) true t room m c values)
    (size : S.big (c.seg .ss) = true) (fits : values.length + n ≤ room)
    (is : (code l)[k]? = some (.plain (.sub true (.reg espReg) (.imm (BitVec.ofNat 32 (4 * n)))))) :
    ∃ f unused, unused.length = n ∧
      Comes S layout p (layout.place ⟨l, k + 1⟩) true t room m { c with eflags := f } (unused ++ values) := by
  obtain ⟨q, reaches, f, unused, length, eip, on⟩ := comes.goes is
    (P := fun q => ∃ f unused, unused.length = n ∧ q.regs.eip = layout.place ⟨l, k + 1⟩ ∧
      OnStack S true t room m { c with eflags := f } (unused ++ values) q) fun q on => by
      obtain ⟨f, unused, length, reserved⟩ := on.subEsp size n fits
      exact ⟨f, unused, length, rfl, reserved.jumpTo _⟩
  exact ⟨f, unused, length, q, reaches, eip, on⟩

end

end Pmdapi.X86
