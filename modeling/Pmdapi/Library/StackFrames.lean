import Pmdapi.Library.Assembly

/-!
What a program has on its stack: the items it pushed, and the registers but for the stack pointer. Items
are pushed, popped and written in place, and the rest of the memory is kept.
-/

namespace Pmdapi.X86
open Bytes

/-! ## Registers -/

namespace Context

variable (c : Context) (r : BitVec 3) (v : Dword)

@[simp] theorem withGpr_self : (c.withGpr r v).gpr r = v := if_pos rfl

@[simp] theorem withGpr_withGpr (w : Dword) : (c.withGpr r v).withGpr r w = c.withGpr r w := by
  refine congrArg (fun gpr => { c with gpr := gpr }) (funext fun q => ?_)
  by_cases same : q = r
  · rw [if_pos same, if_pos same]
  · rw [if_neg same, if_neg same]
    exact if_neg same

@[simp] theorem withSeg_self (s : SegReg) (v : Word) : (c.withSeg s v).seg s = v := if_pos rfl

theorem withSeg_back (s : SegReg) (v : Word) : (c.withSeg s v).withSeg s (c.seg s) = c := by
  refine congrArg (fun seg => { c with seg := seg }) (funext fun q => ?_)
  by_cases same : q = s
  · rw [if_pos same, same]
  · rw [if_neg same]
    exact if_neg same

theorem withGpr_other {q : BitVec 3} (other : q ≠ r) : (c.withGpr r v).gpr q = c.gpr q := if_neg other

end Context

@[simp] theorem setPart_wide (d v : Dword) : setPart true d v = v := if_pos rfl

/-! ## Stack pointers -/

@[simp] theorem low_setLow (d : Dword) (w : Word) : low (setLow d w) = w := BitVec.setWidth_append_eq_right

theorem setLow_setLow (d : Dword) (v w : Word) : setLow (setLow d v) w = setLow d w := by
  apply BitVec.eq_of_getLsbD_eq
  intro i inside
  simp only [setLow, BitVec.getLsbD_append, BitVec.getLsbD_extractLsb']
  split
  · rfl
  next upper =>
    have above : ¬ (16 + (i - 16) < 16) := by omega
    simp [above]

theorem toNat_setLow (d : Dword) (w : Word) : (setLow d w).toNat = d.toNat / 65536 * 65536 + w.toNat := by
  have bound := d.isLt
  rw [setLow, BitVec.toNat_append, ← Nat.shiftLeft_add_eq_or_of_lt w.isLt, BitVec.extractLsb'_toNat,
    Nat.shiftRight_eq_div_pow, Nat.shiftLeft_eq]
  omega

@[simp] theorem low_zext (w : Word) : low (w.setWidth 32) = w :=
  (BitVec.setWidth_setWidth_of_le _ (by decide)).trans (BitVec.setWidth_eq _)

theorem low_add (a b : Dword) : low (a + b) = low a + low b := BitVec.setWidth_add a b (by decide)

theorem low_sub (a b : Dword) : low (a - b) = low a - low b := by
  rw [BitVec.eq_sub_iff_add_eq, ← low_add, BitVec.sub_add_cancel]

theorem below_below (big : Bool) (t a b : Dword) : below big (below big t a) b = below big t (a + b) := by
  cases big with
  | true => simp only [below, if_true, BitVec.sub_sub]
  | false =>
    simp only [below, if_false, Bool.false_eq_true, low_setLow, setLow_setLow, low_add, BitVec.sub_sub]

theorem above_above (big : Bool) (t a b : Dword) : above big (above big t a) b = above big t (a + b) := by
  cases big with
  | true => simp only [above, if_true, BitVec.add_assoc]
  | false =>
    simp only [above, if_false, Bool.false_eq_true, low_setLow, setLow_setLow, low_add, BitVec.add_assoc]

theorem above_below (big : Bool) (t a b : Dword) : above big (below big t (a + b)) b = below big t a := by
  cases big with
  | true =>
    simp only [above, below, if_true]
    bv_omega
  | false =>
    simp only [above, below, if_false, Bool.false_eq_true, low_setLow, setLow_setLow, low_add]
    congr 1
    bv_omega

theorem pointed_add (big : Bool) (t a d : Dword) :
    pointed big (below big t a + d) = pointed big (below big t (a - d)) := by
  cases big with
  | true =>
    simp only [pointed, below, if_true]
    bv_omega
  | false =>
    simp only [pointed, below, if_false, Bool.false_eq_true, low_setLow, low_add, low_sub]
    congr 1
    bv_omega

theorem below_eq {big : Bool} {t : Dword} {k : Nat} (narrow : big = false → k ≤ (low t).toNat) :
    below big t (BitVec.ofNat 32 k) = t - BitVec.ofNat 32 k := by
  cases big with
  | true => rfl
  | false =>
    have narrow := narrow rfl
    have bound := t.isLt
    rw [low, BitVec.toNat_setWidth] at narrow
    apply BitVec.eq_of_toNat_eq
    show (setLow t (low t - low (BitVec.ofNat 32 k))).toNat = _
    rw [toNat_setLow, BitVec.toNat_sub, BitVec.toNat_sub, low, low, BitVec.toNat_setWidth, BitVec.toNat_setWidth,
      BitVec.toNat_ofNat]
    omega

@[simp] theorem below_zero (big : Bool) (t : Dword) : below big t 0 = t :=
  (below_eq fun _ => Nat.zero_le _).trans (BitVec.sub_zero t)

theorem base_pointed {big : Bool} {t : Dword} {k room : Nat} (base : Dword)
    (narrow : big = false → room ≤ (low t).toNat) (within : k ≤ room) (small : room < 2 ^ 32) :
    base + pointed big (below big t (BitVec.ofNat 32 k)) = base + pointed big t - BitVec.ofNat 32 k := by
  have wrap : (BitVec.ofNat 32 k).toNat = k := Nat.mod_eq_of_lt (by omega)
  cases big with
  | true =>
    simp only [pointed, below, if_true]
    bv_omega
  | false =>
    have narrow := narrow rfl
    have bound := (low t).isLt
    simp only [pointed, below, if_false, Bool.false_eq_true, low_setLow]
    have down : (low (BitVec.ofNat 32 k)).toNat = k := by
      rw [low, BitVec.toNat_setWidth, wrap]
      exact Nat.mod_eq_of_lt (by omega)
    generalize low (BitVec.ofNat 32 k) = d at *
    generalize low t = sp at *
    bv_omega

theorem base_above {big : Bool} {t : Dword} {k : Nat} (base : Dword)
    (inside : big = false → (low t).toNat + k < 2 ^ 16) :
    base + pointed big (above big t (BitVec.ofNat 32 k)) = base + pointed big t + BitVec.ofNat 32 k := by
  cases big with
  | true =>
    simp only [pointed, above, if_true]
    bv_omega
  | false =>
    have inside := inside rfl
    have wrap : (BitVec.ofNat 32 k).toNat = k := Nat.mod_eq_of_lt (by omega)
    simp only [pointed, above, if_false, Bool.false_eq_true, low_setLow]
    have up : (low (BitVec.ofNat 32 k)).toNat = k := by
      rw [low, BitVec.toNat_setWidth, wrap]
      exact Nat.mod_eq_of_lt (by omega)
    generalize low (BitVec.ofNat 32 k) = d at *
    generalize low t = sp at *
    bv_omega

/-! ## Items -/

theorem low_readDword (m : Memory) (a : Dword) : low (readDword m a) = readWord m a :=
  BitVec.setWidth_append_eq_right

section Items

variable {wide : Bool} (top : Dword)

theorem items_apart {d e room : Nat} (different : d < e) (within : e < room)
    (small : itemSize wide * room < 2 ^ 32) :
    (Block.mk (itemAddress wide top (d + 1)) (itemSize wide)).Apart
      ⟨itemAddress wide top (e + 1), itemSize wide⟩ := by
  intro a one other
  have bound (n : Nat) (fewer : n < room) : itemSize wide * (n + 1) < 2 ^ 32 :=
    Nat.lt_of_le_of_lt (Nat.mul_le_mul_left _ fewer) small
  have first := (offset_item (bound d (by omega)) a).mp one
  have second := (offset_item (bound e within) a).mp other
  have order : itemSize wide * (d + 1) ≤ itemSize wide * e := Nat.mul_le_mul_left _ different
  omega

theorem item_within {d room : Nat} (within : d < room) (small : itemSize wide * room < 2 ^ 32) :
    (Block.mk (itemAddress wide top (d + 1)) (itemSize wide)).Within (stackItems wide top room) := by
  intro a inside
  have order : itemSize wide * (d + 1) ≤ itemSize wide * room := Nat.mul_le_mul_left _ within
  have own := (offset_item (by omega) a).mp inside
  rw [stackItems_covers small]
  omega

@[simp] theorem cutItem_wide (v : Dword) : cutItem true v = v := if_pos rfl

theorem low_cutItem (v : Dword) : low (cutItem false v) = low v := by
  show (BitVec.setWidth 32 (BitVec.setWidth 16 v)).setWidth 16 = v.setWidth 16
  exact BitVec.setWidth_setWidth_of_le _ (by decide)

theorem cutItem_readItem (wide : Bool) (m : Memory) (a : Dword) :
    cutItem wide (readItem wide m a) = readItem wide m a := by
  cases wide with
  | true => rfl
  | false =>
    have kept : ((readWord m a).setWidth 32).setWidth 16 = readWord m a :=
      (BitVec.setWidth_setWidth_of_le _ (by decide)).trans (BitVec.setWidth_eq _)
    exact congrArg (BitVec.setWidth 32) kept

theorem readItem_writeItem (wide : Bool) (m : Memory) (a v : Dword) :
    readItem wide (writeItem wide m a v) a = cutItem wide v := by
  apply readItem_of_bytes
  intro k inside
  have few := itemSize_le wide
  rw [writeItem_apply, offset_add a (by omega), if_pos inside]

theorem writeItem_agree {P : Dword → Prop} (m : Memory) {a v : Dword}
    (clear : ∀ x, P x → ¬(Block.mk a (itemSize wide)).Covers x) : AgreeOn P m (writeItem wide m a v) := by
  intro x inside
  rw [writeItem_apply]
  exact if_neg (clear x inside)

theorem readItem_elsewhere {wide' : Bool} (m : Memory) {a b v : Dword}
    (apart : (Block.mk b (itemSize wide')).Apart ⟨a, itemSize wide⟩) :
    readItem wide' (writeItem wide m a v) b = readItem wide' m b :=
  readItem_agree (writeItem_agree m fun x inside => apart x inside) fun _ inside => inside

theorem readDword_elsewhere (m : Memory) {a b v : Dword} (apart : (Block.mk b 4).Apart ⟨a, 4⟩) :
    readDword (writeDword m a v) b = readDword m b := by
  have kept : readItem true (writeItem true m a v) b = readItem true m b := readItem_elsewhere m apart
  rwa [readItem, readItem, writeItem, if_pos rfl, if_pos rfl, if_pos rfl] at kept

end Items

namespace Processor

variable (S : Segments) (p : Processor) (n : Dword)

@[simp] theorem raise_esp : (p.raise S n).regs.gpr espReg = above (p.big S) (p.regs.gpr espReg) n :=
  Context.withGpr_self _ _ _

@[simp] theorem raise_big : (p.raise S n).big S = p.big S := rfl

end Processor

/-! ## What is on the stack -/

theorem flagsOf_cmp (wide : Bool) (a b d : Dword) :
    (flagsOf .cmp wide a b d).getLsbD 6 = if wide then decide (a = b) else decide (low a = low b) := by
  have zero {w : Nat} (x y : BitVec w) : (AluOp.cmp.run x y false).zero = decide (x = y) := by
    have difference : x - y - BitVec.ofNat w 0 = x - y := BitVec.sub_zero _
    show decide (x - y - BitVec.ofNat w 0 = 0) = decide (x = y)
    rw [difference]
    exact decide_eq_decide.mpr ⟨fun same => by
      rw [← BitVec.sub_add_cancel x y, same]
      exact BitVec.zero_add y, fun same => by rw [same]; exact BitVec.sub_self y⟩
  cases wide with
  | true => exact (AluResult.flags_zero _ _).trans (zero a b)
  | false => exact (AluResult.flags_zero _ _).trans (zero (low a) (low b))

def stackLinear (S : Segments) (ss : Word) (t : Dword) : Dword := S.base ss + pointed (S.big ss) t

/-- `values` at the items below `top`, the last one highest. -/
def Items (wide : Bool) (top : Dword) (m : Memory) (values : List Dword) : Prop :=
  ∀ v deeper, v :: deeper <:+ values → readItem wide m (itemAddress wide top (deeper.length + 1)) = cutItem wide v

theorem Items.cons {wide : Bool} {top : Dword} {m : Memory} {values : List Dword} (items : Items wide top m values)
    {v : Dword} (read : readItem wide m (itemAddress wide top (values.length + 1)) = cutItem wide v) :
    Items wide top m (v :: values) := by
  intro w deeper among
  rcases List.suffix_cons_iff.mp among with same | earlier
  · obtain ⟨rfl, rfl⟩ := List.cons.inj same
    exact read
  · exact items w deeper earlier

theorem Items.agree {wide : Bool} {top : Dword} {m n : Memory} {values : List Dword} {P : Dword → Prop}
    (items : Items wide top m values) (agree : AgreeOn P m n)
    (inside : ∀ a, (stackItems wide top values.length).Covers a → P a)
    (small : itemSize wide * values.length < 2 ^ 32) :
    Items wide top n values := by
  intro v deeper among
  have few := among.length_le
  rw [List.length_cons] at few
  rw [readItem_agree agree fun x covered => inside x (item_within _ few small x covered)]
  exact items v deeper among

theorem itemAddress_up (wide : Bool) (top : Dword) (n j : Nat) :
    itemAddress wide top (n + j) + BitVec.ofNat 32 (itemSize wide * j) = itemAddress wide top n := by
  rw [itemAddress, itemAddress, Nat.mul_add, BitVec.ofNat_add, ← BitVec.sub_sub, BitVec.sub_add_cancel]

theorem itemAddress_next (wide : Bool) (top : Dword) (n : Nat) :
    itemAddress wide top (n + 1) + BitVec.ofNat 32 (itemSize wide) = itemAddress wide top n := by
  have up := itemAddress_up wide top n 1
  rwa [Nat.mul_one] at up

def itemsAt (wide : Bool) (m : Memory) (a : Dword) : Nat → List Dword
  | 0 => []
  | n + 1 => readItem wide m a :: itemsAt wide m (a + BitVec.ofNat 32 (itemSize wide)) n

theorem Items.itemsAt_cut {wide : Bool} {top : Dword} {m : Memory} {upper values : List Dword}
    (items : Items wide top m (upper ++ values)) :
    itemsAt wide m (itemAddress wide top (values.length + upper.length)) upper.length = upper.map (cutItem wide) := by
  induction upper with
  | nil => rfl
  | cons v upper ih =>
    have first := items v (upper ++ values) (List.suffix_refl _)
    rw [List.length_append, Nat.add_comm upper.length] at first
    rw [List.length_cons, itemsAt, ← Nat.add_assoc, first, itemAddress_next,
      ih fun w deeper among => items w deeper (among.trans (List.suffix_cons _ _)), List.map_cons]

theorem Items.itemsAt_all {wide : Bool} {top : Dword} {m : Memory} {values : List Dword}
    (items : Items wide top m values) :
    itemsAt wide m (itemAddress wide top values.length) values.length = values.map (cutItem wide) := by
  rw [← List.append_nil values] at items
  have read := items.itemsAt_cut
  rwa [List.length_nil, Nat.zero_add] at read

theorem Items.itemsAt_eq {top : Dword} {m : Memory} {upper values : List Dword}
    (items : Items true top m (upper ++ values)) :
    itemsAt true m (itemAddress true top (values.length + upper.length)) upper.length = upper :=
  items.itemsAt_cut.trans (List.map_id'' cutItem_wide upper)

theorem Items.itemsAt_append {wide : Bool} {top : Dword} {m : Memory} {values : List Dword}
    (items : Items wide top m values) (n : Nat) :
    (itemsAt wide m (itemAddress wide top (values.length + n)) n).length = n ∧
      Items wide top m (itemsAt wide m (itemAddress wide top (values.length + n)) n ++ values) := by
  induction n with
  | zero => exact ⟨rfl, items⟩
  | succ n ih =>
    obtain ⟨length, more⟩ := ih
    rw [itemsAt, ← Nat.add_assoc, itemAddress_next]
    refine ⟨congrArg (· + 1) length, more.cons ?_⟩
    rw [List.length_append, length, Nat.add_comm n, cutItem_readItem]

/-- `values`, the one on top first, below the offset `t` of the stack segment of `c`, and no more than
`room` of them, over the memory `m`. EIP is left open. Their low words count where the items are narrow. -/
structure OnStack (S : Segments) (wide : Bool) (t : Dword) (room : Nat) (m : Memory) (c : Context)
    (values : List Dword) (p : Processor) : Prop where
  narrow : S.big (c.seg .ss) = false → itemSize wide * room ≤ (low t).toNat
  small : itemSize wide * room < 2 ^ 32
  within : values.length ≤ room
  esp : p.regs.gpr espReg =
    below (S.big (c.seg .ss)) t (BitVec.ofNat 32 (itemSize wide * values.length))
  gpr : ∀ {r}, r ≠ espReg → p.regs.gpr r = c.gpr r
  seg : p.regs.seg = c.seg
  eflags : p.regs.eflags = c.eflags
  items : Items wide (stackLinear S (c.seg .ss) t) p.mem values
  kept : AgreeOn (¬(stackItems wide (stackLinear S (c.seg .ss) t) room).Covers ·) m p.mem

namespace OnStack

variable {S : Segments} {wide : Bool} {t : Dword} {room : Nat} {m : Memory} {c : Context} {values : List Dword}
  {p : Processor}

theorem keptOutside (on : OnStack S wide t room m c values p) :
    KeptOutside [stackItems wide (stackLinear S (c.seg .ss) t) room] m p.mem := fun a outside =>
  on.kept a (outside _ List.mem_cons_self)

theorem big (on : OnStack S wide t room m c values p) : p.big S = S.big (c.seg .ss) := by
  rw [Processor.big, on.seg]

theorem esp_big (on : OnStack S wide t room m c values p) (big : S.big (c.seg .ss) = true) :
    p.regs.gpr espReg = below true t (BitVec.ofNat 32 (itemSize wide * values.length)) := by
  rw [on.esp, big]

theorem address (on : OnStack S wide t room m c values p) {n : Nat} (within : n ≤ room) :
    S.base (c.seg .ss) + pointed (S.big (c.seg .ss))
      (below (S.big (c.seg .ss)) t (BitVec.ofNat 32 (itemSize wide * n))) =
      itemAddress wide (stackLinear S (c.seg .ss) t) n :=
  base_pointed _ on.narrow (Nat.mul_le_mul_left _ within) on.small

theorem stackTop (on : OnStack S wide t room m c values p) :
    p.stackTop S = itemAddress wide (stackLinear S (c.seg .ss) t) values.length := by
  rw [Processor.stackTop, on.big, on.seg, on.esp]
  exact on.address on.within

theorem push (on : OnStack S wide t room m c values p) (fits : values.length < room) (v : Dword) :
    OnStack S wide t room m c (v :: values) (p.push S wide v) := by
  have size : below (p.big S) (p.regs.gpr espReg) (BitVec.ofNat 32 (itemSize wide)) =
      below (S.big (c.seg .ss)) t (BitVec.ofNat 32 (itemSize wide * (values.length + 1))) := by
    rw [on.big, on.esp, below_below, ← BitVec.ofNat_add]
    rfl
  have here : (p.lower S (BitVec.ofNat 32 (itemSize wide))).stackTop S =
      itemAddress wide (stackLinear S (c.seg .ss) t) (values.length + 1) := by
    rw [Processor.stackTop, Processor.lower, size, Context.withGpr_self]
    show S.base (p.regs.seg .ss) + pointed (p.big S) _ = _
    rw [on.big, on.seg]
    exact on.address fits
  refine ⟨on.narrow, on.small, fits, ?_, fun other => ?_, on.seg, on.eflags, fun w deeper among => ?_, ?_⟩
  · exact (Context.withGpr_self _ _ _).trans size
  · exact (Context.withGpr_other _ _ _ other).trans (on.gpr other)
  · show readItem wide (writeItem wide p.mem _ v) _ = _
    rw [here]
    rcases List.suffix_cons_iff.mp among with same | earlier
    · obtain ⟨rfl, rfl⟩ := List.cons.inj same
      exact readItem_writeItem _ _ _ _
    · have fewer := earlier.length_le
      rw [List.length_cons] at fewer
      rw [readItem_elsewhere _ (items_apart _ fewer fits on.small)]
      exact on.items w deeper earlier
  · refine on.kept.trans ?_
    show AgreeOn _ p.mem (writeItem wide p.mem _ v)
    rw [here]
    exact writeItem_agree _ fun a outside covered => outside (item_within _ fits on.small a covered)

theorem top {v : Dword} (on : OnStack S wide t room m c (v :: values) p) : p.top S wide = cutItem wide v := by
  rw [Processor.top, on.stackTop]
  exact on.items v values (List.suffix_refl _)

theorem cut {released : List Dword} (on : OnStack S wide t room m c (released ++ values) p) :
    OnStack S wide t room m c values { p with
      regs := p.regs.withGpr espReg
        (below (S.big (c.seg .ss)) t (BitVec.ofNat 32 (itemSize wide * values.length))) } := by
  have within := on.within
  rw [List.length_append] at within
  exact { on with
    within := by omega
    esp := Context.withGpr_self _ _ _
    gpr := fun other => (Context.withGpr_other _ _ _ other).trans (on.gpr other)
    items := fun v deeper among => on.items v deeper (among.trans (List.suffix_append _ _)) }

theorem release (released : List Dword) (on : OnStack S wide t room m c (released ++ values) p) :
    OnStack S wide t room m c values
      (p.raise S (BitVec.ofNat 32 (itemSize wide * released.length))) := by
  have cut := on.cut
  rwa [← above_below _ t _ (BitVec.ofNat 32 (itemSize wide * released.length)), ← BitVec.ofNat_add, ← Nat.mul_add,
    Nat.add_comm values.length, ← List.length_append, ← on.esp, ← on.big] at cut

theorem drop {v : Dword} (on : OnStack S wide t room m c (v :: values) p) :
    OnStack S wide t room m c values (p.drop S wide) := by
  have released := on.release [v]
  rwa [List.length_singleton, Nat.mul_one] at released

theorem put {upper : List Dword} {w : Dword} (on : OnStack S wide t room m c (upper ++ w :: values) p) (v : Dword) :
    OnStack S wide t room m c (upper ++ v :: values)
      { p with
        mem := writeItem wide p.mem (itemAddress wide (stackLinear S (c.seg .ss) t) (values.length + 1)) v } := by
  have within := on.within
  rw [List.length_append, List.length_cons] at within
  have length : (upper ++ v :: values).length = (upper ++ w :: values).length := by simp
  refine ⟨on.narrow, on.small, length ▸ on.within, length ▸ on.esp, on.gpr, on.seg, on.eflags,
    fun x deeper among => ?_, ?_⟩
  · have own : x :: deeper <:+ v :: values → readItem wide (writeItem wide p.mem
        (itemAddress wide (stackLinear S (c.seg .ss) t) (values.length + 1)) v)
        (itemAddress wide (stackLinear S (c.seg .ss) t) (deeper.length + 1)) = cutItem wide x := by
      intro low
      rcases List.suffix_cons_iff.mp low with same | earlier
      · obtain ⟨rfl, rfl⟩ := List.cons.inj same
        exact readItem_writeItem _ _ _ _
      · have fewer := earlier.length_le
        rw [List.length_cons] at fewer
        rw [readItem_elsewhere _ (items_apart _ fewer (by omega) on.small)]
        exact on.items x deeper ((earlier.trans (List.suffix_cons _ _)).trans (List.suffix_append _ _))
    rcases List.suffix_or_suffix_of_suffix among (List.suffix_append upper (v :: values)) with low | ⟨ups, high⟩
    · exact own low
    · cases ups with
      | nil => exact own (high ▸ List.suffix_refl _)
      | cons y ups =>
        obtain ⟨rfl, rfl⟩ := List.cons.inj high
        have upper' : y :: ups <:+ upper := List.suffix_append_self_iff.mp
          (show y :: ups ++ (v :: values) <:+ upper ++ (v :: values) from among)
        have among' : y :: ups ++ (w :: values) <:+ upper ++ (w :: values) := List.suffix_append_self_iff.mpr upper'
        have before := on.items y (ups ++ w :: values) among'
        have bound := upper'.length_le
        rw [List.length_append, List.length_cons] at before
        rw [List.length_cons] at bound
        have deep : (ups.append (v :: values)).length = ups.length + (values.length + 1) := List.length_append
        show readItem wide (writeItem wide p.mem _ v) _ = _
        rw [deep]
        have apart := items_apart (stackLinear S (c.seg .ss) t)
          (by omega : values.length < ups.length + (values.length + 1)) (by omega) on.small
        rw [readItem_elsewhere _ apart.symm]
        exact before
  · exact on.kept.trans (writeItem_agree _ fun a outside covered =>
      outside (item_within _ (by omega) on.small a covered))

/-- A stack as it is: `n` items on it belong to whoever comes here. -/
theorem of_memory (S : Segments) (p : Processor) (big : p.big S = true) (n room : Nat) (within : n ≤ room)
    (small : 4 * room < 2 ^ 32) :
    OnStack S true (p.regs.gpr espReg + BitVec.ofNat 32 (4 * n)) room p.mem p.regs
      (itemsAt true p.mem (p.stackTop S) n) p := by
  have isBig : S.big (p.regs.seg .ss) = true := big
  have top : p.stackTop S = itemAddress true
      (stackLinear S (p.regs.seg .ss) (p.regs.gpr espReg + BitVec.ofNat 32 (4 * n))) n := by
    rw [Processor.stackTop, big, stackLinear, isBig]
    show S.base (p.regs.seg .ss) + p.regs.gpr espReg =
      S.base (p.regs.seg .ss) + (p.regs.gpr espReg + BitVec.ofNat 32 (4 * n)) - BitVec.ofNat 32 (4 * n)
    rw [← BitVec.add_assoc, BitVec.add_sub_cancel]
  have none : Items true (stackLinear S (p.regs.seg .ss) (p.regs.gpr espReg + BitVec.ofNat 32 (4 * n))) p.mem [] :=
    fun v deeper among => by cases List.suffix_nil.mp among
  obtain ⟨length, items⟩ := none.itemsAt_append n
  rw [List.append_nil, List.length_nil, Nat.zero_add, ← top] at items
  rw [List.length_nil, Nat.zero_add, ← top] at length
  refine ⟨fun narrow => ?_, small, by rwa [length], ?_, fun _ => rfl, rfl, rfl, items, fun _ _ => rfl⟩
  · rw [isBig] at narrow
    cases narrow
  · rw [length, isBig]
    exact (BitVec.add_sub_cancel _ _).symm

theorem fresh (S : Segments) (wide : Bool) (p : Processor) (room : Nat)
    (narrow : p.big S = false → itemSize wide * room ≤ (low (p.regs.gpr espReg)).toNat)
    (small : itemSize wide * room < 2 ^ 32) : OnStack S wide (p.regs.gpr espReg) room p.mem p.regs [] p where
  narrow := narrow
  small := small
  within := Nat.zero_le _
  esp := (below_zero _ _).symm
  gpr _ := rfl
  seg := rfl
  eflags := rfl
  items v deeper among := by cases List.suffix_nil.mp among
  kept := AgreeOn.refl _

theorem esp_eq (on : OnStack S wide t room m c values p) :
    p.regs.gpr espReg = t - BitVec.ofNat 32 (itemSize wide * values.length) := by
  rw [on.esp]
  exact below_eq fun big => Nat.le_trans (Nat.mul_le_mul_left _ on.within) (on.narrow big)

theorem stackItems_above {S : Segments} {p : Processor} (big : p.big S = true) (n k : Nat) :
    stackItems true (stackLinear S (p.regs.seg .ss) (p.regs.gpr espReg + BitVec.ofNat 32 (4 * n))) (n + k) =
      ⟨p.stackTop S - BitVec.ofNat 32 (4 * k), 4 * (n + k)⟩ := by
  have isBig : S.big (p.regs.seg .ss) = true := big
  have top : stackLinear S (p.regs.seg .ss) (p.regs.gpr espReg + BitVec.ofNat 32 (4 * n)) =
      p.stackTop S + BitVec.ofNat 32 (4 * n) := by
    rw [stackLinear, Processor.stackTop, big, isBig]
    exact (BitVec.add_assoc _ _ _).symm
  have start : p.stackTop S + BitVec.ofNat 32 (4 * n) - BitVec.ofNat 32 (4 * (n + k)) =
      p.stackTop S - BitVec.ofNat 32 (4 * k) := by
    rw [Nat.mul_add, BitVec.ofNat_add, ← BitVec.sub_sub, BitVec.add_sub_cancel]
  rw [top, stackItems, itemAddress, ← start]
  rfl

/-! ### Registers and other memory -/

theorem withGpr (on : OnStack S wide t room m c values p) {r : BitVec 3} (other : r ≠ espReg) (v : Dword) :
    OnStack S wide t room m (c.withGpr r v) values { p with regs := p.regs.withGpr r v } where
  narrow := on.narrow
  small := on.small
  within := on.within
  esp := (Context.withGpr_other _ _ _ other.symm).trans on.esp
  gpr := by
    intro q apart
    by_cases same : q = r
    · exact (if_pos same).trans (if_pos same).symm
    · exact (if_neg same).trans ((on.gpr apart).trans (if_neg same).symm)
  seg := on.seg
  eflags := on.eflags
  items := on.items
  kept := on.kept

theorem withSeg (on : OnStack S wide t room m c values p) {r : SegReg} (other : r ≠ .ss) (v : Word) :
    OnStack S wide t room m (c.withSeg r v) values { p with regs := p.regs.withSeg r v } := by
  have same : (c.withSeg r v).seg .ss = c.seg .ss := if_neg other.symm
  refine ⟨same ▸ on.narrow, on.small, on.within, same ▸ on.esp, on.gpr, ?_, on.eflags, same ▸ on.items,
    same ▸ on.kept⟩
  exact congrArg (fun seg => fun q => if q = r then v else seg q) on.seg

theorem withFlags (on : OnStack S wide t room m c values p) (f : Dword) :
    OnStack S wide t room m { c with eflags := f } values { p with regs := { p.regs with eflags := f } } :=
  { on with eflags := rfl }

theorem jumpTo (on : OnStack S wide t room m c values p) (eip : Dword) :
    OnStack S wide t room m c values (p.jumpTo eip) := { on with }

theorem elsewhere (on : OnStack S wide t room m c values p) (wide' : Bool) {a : Dword} (v : Dword)
    (apart : (stackItems wide (stackLinear S (c.seg .ss) t) room).Apart ⟨a, itemSize wide'⟩) :
    OnStack S wide t room (writeItem wide' m a v) c values { p with mem := writeItem wide' p.mem a v } :=
  { on with
    items := fun w deeper among => by
      have few := among.length_le
      have within := on.within
      rw [List.length_cons] at few
      have inside := item_within (stackLinear S (c.seg .ss) t)
        (by omega : deeper.length < room) on.small
      rw [readItem_elsewhere _ (inside.apart apart)]
      exact on.items w deeper among
    kept := fun x outside => by
      show writeItem wide' p.mem a v x = _
      rw [writeItem_apply, writeItem_apply, on.kept x outside] }

/-! ### Operands -/

theorem read_reg (on : OnStack S wide t room m c values p) {r : BitVec 3} (other : r ≠ espReg) (wide' : Bool) :
    (Operand.reg r).read S p wide' = cutItem wide' (c.gpr r) := by
  rw [Operand.read, on.gpr other]

theorem read_esp (on : OnStack S wide t room m c values p) :
    (Operand.reg espReg).read S p true = t - BitVec.ofNat 32 (itemSize wide * values.length) :=
  (cutItem_wide _).trans on.esp_eq

theorem read_kept (on : OnStack S wide t room m c values p) (wide' : Bool) {a : Dword}
    (apart : (stackItems wide (stackLinear S (c.seg .ss) t) room).Apart ⟨a, itemSize wide'⟩) :
    readItem wide' p.mem a = readItem wide' m a :=
  readItem_agree on.kept fun x inside covered => apart x covered inside

theorem address_plain (on : OnStack S wide t room m c values p) (seg : SegReg) (disp : Dword) :
    Operand.address S p true seg none disp = S.base (c.seg seg) + disp := by
  rw [Operand.address, on.seg]
  simp

theorem address_frame (on : OnStack S wide t room m c values p) {big : Bool} (size : S.big (c.seg .ss) = big)
    {r : BitVec 3} {k n : Nat} {disp : Dword}
    (points : p.regs.gpr r = below big t (BitVec.ofNat 32 (itemSize wide * k)))
    (item : BitVec.ofNat 32 (itemSize wide * k) - disp = BitVec.ofNat 32 (itemSize wide * n)) (within : n ≤ room) :
    Operand.address S p big .ss (some r) disp = itemAddress wide (stackLinear S (c.seg .ss) t) n := by
  have start : Operand.address S p big .ss (some r) disp =
      S.base (p.regs.seg .ss) + pointed big (p.regs.gpr r + disp) := rfl
  rw [start, on.seg, points, pointed_add, item, ← on.address within, size]

theorem address_up (on : OnStack S wide t room m c values p) {big : Bool} (size : S.big (c.seg .ss) = big)
    {r : BitVec 3} {n : Nat} (j : Nat)
    (points : p.regs.gpr r = below big t (BitVec.ofNat 32 (itemSize wide * (n + j)))) (within : n ≤ room) :
    Operand.address S p big .ss (some r) (BitVec.ofNat 32 (itemSize wide * j)) =
      itemAddress wide (stackLinear S (c.seg .ss) t) n := by
  refine on.address_frame size points ?_ within
  rw [Nat.mul_add, BitVec.ofNat_add, BitVec.add_sub_cancel]

theorem address_down (on : OnStack S wide t room m c values p) {big : Bool} (size : S.big (c.seg .ss) = big)
    {r : BitVec 3} {k : Nat} (j : Nat)
    (points : p.regs.gpr r = below big t (BitVec.ofNat 32 (itemSize wide * k))) (within : k + j ≤ room) :
    Operand.address S p big .ss (some r) (-BitVec.ofNat 32 (itemSize wide * j)) =
      itemAddress wide (stackLinear S (c.seg .ss) t) (k + j) := by
  refine on.address_frame size points ?_ within
  rw [Nat.mul_add, BitVec.ofNat_add, BitVec.sub_neg]

theorem read_item (on : OnStack S wide t room m c values p) {addr32 : Bool} {seg : SegReg} {index : Option (BitVec 3)}
    {disp v : Dword} {deeper : List Dword} (n : Nat) (among : values.drop n = v :: deeper)
    (address : Operand.address S p addr32 seg index disp =
      itemAddress wide (stackLinear S (c.seg .ss) t) (deeper.length + 1)) :
    (Operand.mem addr32 seg index disp).read S p wide = cutItem wide v := by
  rw [Operand.read, address]
  exact on.items v deeper (among ▸ List.drop_suffix n values)

theorem read_dword (on : OnStack S true t room m c values p) {v : Dword} {deeper : List Dword} {n : Nat}
    (among : v :: deeper <:+ values) (depth : deeper.length + 1 = n) :
    readDword p.mem (itemAddress true (stackLinear S (c.seg .ss) t) n) = v := by
  have item := on.items v deeper among
  rwa [readItem, if_pos rfl, cutItem_wide, depth] at item

/-! ### Instructions -/

theorem pushes (vs : List Dword) {values : List Dword} {p : Processor} (on : OnStack S wide t room m c values p)
    (fits : values.length + vs.length ≤ room) :
    OnStack S wide t room m c (vs.reverse ++ values) (vs.foldl (Processor.push S · wide) p) := by
  induction vs generalizing values p with
  | nil => exact on
  | cons v vs ih =>
    rw [List.length_cons] at fits
    have rest := ih (on.push (by omega) v) (by rw [List.length_cons]; omega)
    rwa [List.reverse_cons, List.append_assoc]

theorem pusha (on : OnStack S true t room m c values p) (big : S.big (c.seg .ss) = true)
    (fits : values.length + 8 ≤ room) :
    OnStack S true t room m c (c.gpr 7 :: c.gpr 6 :: c.gpr 5 :: below true t (BitVec.ofNat 32 (4 * values.length)) ::
      c.gpr 3 :: c.gpr 2 :: c.gpr 1 :: c.gpr 0 :: values) (Plain.pusha.exec S p) := by
  have esp : p.regs.gpr 4 = below true t (BitVec.ofNat 32 (4 * values.length)) := on.esp_big big
  have regs : generalRegs p.regs = [c.gpr 0, c.gpr 1, c.gpr 2, c.gpr 3,
      below true t (BitVec.ofNat 32 (4 * values.length)), c.gpr 5, c.gpr 6, c.gpr 7] := by
    simp only [generalRegs, List.map_cons, List.map_nil]
    rw [on.gpr (r := 0) (by decide), on.gpr (r := 1) (by decide), on.gpr (r := 2) (by decide),
      on.gpr (r := 3) (by decide), esp, on.gpr (r := 5) (by decide), on.gpr (r := 6) (by decide),
      on.gpr (r := 7) (by decide)]
  rw [Plain.exec, regs]
  exact on.pushes [c.gpr 0, c.gpr 1, c.gpr 2, c.gpr 3, _, c.gpr 5, c.gpr 6, c.gpr 7] fits

theorem popInto {v : Dword} (on : OnStack S true t room m c (v :: values) p) {r : BitVec 3} (other : r ≠ espReg) :
    OnStack S true t room m (c.withGpr r v) values (p.popInto S r) := by
  rw [Processor.popInto, if_neg other, on.top, cutItem_wide]
  exact on.drop.withGpr other v

theorem popInto_esp {v : Dword} (on : OnStack S true t room m c (v :: values) p) :
    OnStack S true t room m c values (p.popInto S espReg) := by
  rw [Processor.popInto, if_pos rfl]
  exact on.drop

theorem popReg {v : Dword} (on : OnStack S true t room m c (v :: values) p) {r : BitVec 3} (other : r ≠ espReg) :
    OnStack S true t room m (c.withGpr r v) values ((Plain.pop true (.reg r)).exec S p) := by
  have popped := on.popInto other
  rw [Processor.popInto, if_neg other] at popped
  show OnStack S true t room m _ values { p.drop S true with
    regs := (p.drop S true).regs.withGpr r (setPart true ((p.drop S true).regs.gpr r) (p.top S true)) }
  rwa [setPart_wide]

theorem popSeg {v : Dword} (on : OnStack S true t room m c (v :: values) p) {r : SegReg} (other : r ≠ .ss) :
    OnStack S true t room m (c.withSeg r (low v)) values ((Plain.popSeg true r).exec S p) := by
  have popped := on.drop.withSeg other (low v)
  show OnStack S true t room m _ values
    { p.drop S true with regs := (p.drop S true).regs.withSeg r (low (p.top S true)) }
  rwa [on.top, cutItem_wide]

def withGeneral (c : Context) (eax ecx edx ebx ebp esi edi : Dword) : Context :=
  ((((((c.withGpr 7 edi).withGpr 6 esi).withGpr 5 ebp).withGpr 3 ebx).withGpr 2 edx).withGpr 1 ecx).withGpr 0 eax

theorem popa {eax ecx edx ebx esp ebp esi edi : Dword}
    (on : OnStack S true t room m c (edi :: esi :: ebp :: esp :: ebx :: edx :: ecx :: eax :: values) p) :
    OnStack S true t room m (withGeneral c eax ecx edx ebx ebp esi edi) values (Plain.popa.exec S p) := by
  have five := ((on.popInto (r := 7) (by decide)).popInto (r := 6) (by decide)).popInto (r := 5) (by decide)
  have three := ((five.popInto_esp.popInto (r := 3) (by decide)).popInto (r := 2) (by decide)).popInto
    (r := 1) (by decide)
  exact three.popInto (r := 0) (by decide)

theorem pushOp (on : OnStack S wide t room m c values p) (fits : values.length < room) {src : Operand} {v : Dword}
    (value : src.read S p wide = v) : OnStack S wide t room m c (v :: values) ((Plain.push wide src).exec S p) := by
  rw [← value]
  exact on.push fits _

theorem pushSeg (on : OnStack S wide t room m c values p) (fits : values.length < room) (r : SegReg) :
    OnStack S wide t room m c ((c.seg r).setWidth 32 :: values) ((Plain.pushSeg wide r).exec S p) := by
  rw [← on.seg]
  exact on.push fits _

theorem movReg (on : OnStack S wide t room m c values p) {r : BitVec 3} (other : r ≠ espReg) {src : Operand}
    {v : Dword} (value : src.read S p true = v) :
    OnStack S wide t room m (c.withGpr r v) values ((Plain.mov true (.reg r) src).exec S p) := by
  have moved := on.withGpr other v
  show OnStack S wide t room m _ values
    { p with regs := p.regs.withGpr r (setPart true (p.regs.gpr r) (src.read S p true)) }
  rwa [setPart_wide, value]

theorem movToSeg (on : OnStack S wide t room m c values p) {r : SegReg} (other : r ≠ .ss) {q : BitVec 3}
    (general : q ≠ espReg) :
    OnStack S wide t room m (c.withSeg r (low (c.gpr q))) values ((Plain.movToSeg r (.reg q)).exec S p) := by
  have part : low ((Operand.reg q).read S p false) = low (c.gpr q) := by
    rw [on.read_reg general, low_cutItem]
  rw [← part]
  exact on.withSeg other _

theorem read_slot (on : OnStack S wide t room m c values p) (seg : SegReg) (a : Dword)
    (apart : (stackItems wide (stackLinear S (c.seg .ss) t) room).Apart ⟨S.base (c.seg seg) + a, 4⟩) :
    (Operand.mem true seg none a).read S p true = readDword m (S.base (c.seg seg) + a) := by
  rw [Operand.read, on.address_plain]
  exact on.read_kept true apart

theorem loadSeg (on : OnStack S wide t room m c values p) {r : SegReg} (other : r ≠ .ss) (seg : SegReg) (a : Dword)
    (apart : (stackItems wide (stackLinear S (c.seg .ss) t) room).Apart ⟨S.base (c.seg seg) + a, 4⟩) {v : Dword}
    (value : readDword m (S.base (c.seg seg) + a) = v) :
    OnStack S wide t room m (c.withSeg r (low v)) values
      ((Plain.movToSeg r (.mem true seg none a)).exec S p) := by
  have part : low ((Operand.mem true seg none a).read S p false) = low v := by
    have word : readItem false p.mem (S.base (c.seg seg) + a) = readItem false m (S.base (c.seg seg) + a) :=
      on.read_kept false fun x covered inside => apart x covered (Block.within_of_le (by decide) x inside)
    rw [Operand.read, on.address_plain, word, ← value, low_readDword]
    exact low_zext _
  rw [← part]
  exact on.withSeg other _

theorem movSlot (on : OnStack S wide t room m c values p) (seg : SegReg) (a : Dword) {v : Dword} {src : Operand}
    (apart : (stackItems wide (stackLinear S (c.seg .ss) t) room).Apart ⟨S.base (c.seg seg) + a, 4⟩)
    (value : src.read S p true = v) :
    OnStack S wide t room (writeDword m (S.base (c.seg seg) + a) v) c values
      ((Plain.mov true (.mem true seg none a) src).exec S p) := by
  have written := on.elsewhere true v apart
  show OnStack S wide t room _ c values
    { p with mem := writeItem true p.mem (Operand.address S p true seg none a) (src.read S p true) }
  rwa [on.address_plain, value]

theorem movFromSeg (on : OnStack S wide t room m c values p) {q : BitVec 3} (other : q ≠ espReg) (r : SegReg) :
    OnStack S wide t room m (c.withGpr q ((c.seg r).setWidth 32)) values
      ((Plain.movFromSeg (.reg q) r).exec S p) := by
  have moved := on.withGpr other ((c.seg r).setWidth 32)
  show OnStack S wide t room m _ values { p with
    regs := p.regs.withGpr q (setPart true (p.regs.gpr q) ((p.regs.seg r).setWidth 32)) }
  rwa [setPart_wide, on.seg]

theorem movzx (on : OnStack S wide t room m c values p) {r : BitVec 3} (other : r ≠ espReg) {src : Operand}
    {v : Dword} (value : src.read S p false = v) :
    OnStack S wide t room m (c.withGpr r v) values ((Plain.movzx r src).exec S p) := by
  rw [← value]
  exact on.withGpr other _

theorem segSlot (on : OnStack S wide t room m c values p) (r seg : SegReg) (a : Dword)
    (apart : (stackItems wide (stackLinear S (c.seg .ss) t) room).Apart ⟨S.base (c.seg seg) + a, 2⟩) :
    OnStack S wide t room (writeWord m (S.base (c.seg seg) + a) (c.seg r)) c values
      ((Plain.movFromSeg (.mem true seg none a) r).exec S p) := by
  have written := on.elsewhere false ((c.seg r).setWidth 32) apart
  have narrow (n : Memory) : writeItem false n (S.base (c.seg seg) + a) ((c.seg r).setWidth 32) =
      writeWord n (S.base (c.seg seg) + a) (c.seg r) :=
    congrArg (writeWord n _) (low_zext _)
  show OnStack S wide t room _ c values { p with
    mem := writeItem false p.mem (Operand.address S p true seg none a) ((p.regs.seg r).setWidth 32) }
  rw [narrow] at written
  rwa [on.address_plain, on.seg]

theorem popSlot {v : Dword} (on : OnStack S true t room m c (v :: values) p) (seg : SegReg) (a : Dword)
    (apart : (stackItems true (stackLinear S (c.seg .ss) t) room).Apart ⟨S.base (c.seg seg) + a, 4⟩) :
    OnStack S true t room (writeDword m (S.base (c.seg seg) + a) v) c values
      ((Plain.pop true (.mem true seg none a)).exec S p) := by
  have written := on.drop.elsewhere true v apart
  rw [← on.drop.address_plain] at written ⊢
  show OnStack S true t room _ c values { p.drop S true with
    mem := writeItem true (p.drop S true).mem (Operand.address S (p.drop S true) true seg none a) (p.top S true) }
  rwa [on.top, cutItem_wide]

theorem addSlot (on : OnStack S wide t room m c values p) (seg : SegReg) (a n : Dword)
    (apart : (stackItems wide (stackLinear S (c.seg .ss) t) room).Apart ⟨S.base (c.seg seg) + a, 4⟩) :
    ∃ f, OnStack S wide t room (writeDword m (S.base (c.seg seg) + a) (readDword m (S.base (c.seg seg) + a) + n))
      { c with eflags := f } values ((Plain.add true (.mem true seg none a) (.imm n)).exec S p) := by
  have written := on.elsewhere true (readDword m (S.base (c.seg seg) + a) + n) apart
  rw [← on.read_slot seg a apart, ← on.address_plain] at written
  rw [← on.read_slot seg a apart, ← on.address_plain]
  exact ⟨_, written.withFlags _⟩

theorem cmp (on : OnStack S wide t room m c values p) (wide' : Bool) {dst src : Operand} {a b : Dword}
    (first : dst.read S p wide' = a) (second : src.read S p wide' = b) :
    OnStack S wide t room m { c with eflags := flagsOf .cmp wide' a b c.eflags } values
      ((Plain.cmp wide' dst src).exec S p) := by
  rw [← first, ← second, ← on.eflags]
  exact on.withFlags _

theorem pushf (on : OnStack S wide t room m c values p) (fits : values.length < room) :
    OnStack S wide t room m c (c.eflags :: values) ((Plain.pushf wide).exec S p) := by
  rw [← on.eflags]
  exact on.push fits _

theorem popf {v : Dword} (on : OnStack S true t room m c (v :: values) p) :
    OnStack S true t room m { c with eflags := v } values ((Plain.popf true).exec S p) := by
  have popped := on.drop.withFlags v
  show OnStack S true t room m _ values { p.drop S true with
    regs := { (p.drop S true).regs with eflags := setPart true (p.drop S true).regs.eflags (p.top S true) } }
  rwa [setPart_wide, on.top, cutItem_wide]

theorem movItem (upper : List Dword) {w : Dword} (on : OnStack S wide t room m c (upper ++ w :: values) p)
    {addr32 : Bool} {seg : SegReg} {index : Option (BitVec 3)} {disp v : Dword} {src : Operand}
    (address : Operand.address S p addr32 seg index disp =
      itemAddress wide (stackLinear S (c.seg .ss) t) (values.length + 1))
    (value : src.read S p wide = v) :
    OnStack S wide t room m c (upper ++ v :: values)
      ((Plain.mov wide (.mem addr32 seg index disp) src).exec S p) := by
  have written := on.put v
  rw [← address, ← value] at written
  rw [← value]
  exact written

theorem popItem (upper : List Dword) {v w : Dword} (on : OnStack S wide t room m c (v :: (upper ++ w :: values)) p)
    {addr32 : Bool} {seg : SegReg} {index : Option (BitVec 3)} {disp : Dword}
    (address : Operand.address S (p.drop S wide) addr32 seg index disp =
      itemAddress wide (stackLinear S (c.seg .ss) t) (values.length + 1)) :
    OnStack S wide t room m c (upper ++ cutItem wide v :: values)
      ((Plain.pop wide (.mem addr32 seg index disp)).exec S p) := by
  have written := on.drop.put (cutItem wide v)
  rw [← address, ← on.top] at written
  rw [← on.top]
  exact written

theorem addEsp (released : List Dword) (on : OnStack S wide t room m c (released ++ values) p)
    (size : S.big (c.seg .ss) = wide) :
    ∃ f, OnStack S wide t room m { c with eflags := f } values
      ((Plain.add wide (.reg espReg) (.imm (BitVec.ofNat 32 (itemSize wide * released.length)))).exec S p) := by
  let n := BitVec.ofNat 32 (itemSize wide * released.length)
  let f := flagsOf .add wide ((Operand.reg espReg).read S p wide) ((Operand.imm n).read S p wide) p.regs.eflags
  have same : p.raise S n = (Operand.reg espReg).write S p wide
      ((Operand.reg espReg).read S p wide + (Operand.imm n).read S p wide) := by
    rw [Processor.raise, on.big, size]
    cases wide with
    | true => rfl
    | false =>
      simp only [Operand.write, Operand.read, setPart, above, if_false, Bool.false_eq_true, low_add, low_cutItem]
  have raised := (on.release released).withFlags f
  rw [same] at raised
  exact ⟨f, raised⟩

/-- Another stack in use, for items of either width. -/
theorem lss (on : OnStack S wide t room m c values p) {addr32 : Bool} {seg : SegReg} {index : Option (BitVec 3)}
    {disp a v w : Dword} (wide' : Bool) {room' : Nat} (address : Operand.address S p addr32 seg index disp = a)
    (esp : readDword p.mem a = v) (ss : readDword p.mem (a + 4) = w)
    (narrow : S.big (low w) = false → itemSize wide' * room' ≤ (low v).toNat)
    (small : itemSize wide' * room' < 2 ^ 32) :
    OnStack S wide' v room' p.mem (c.withSeg .ss (low w)) []
      ((Plain.lss (.mem addr32 seg index disp)).exec S p) := by
  have segment : (c.withSeg .ss (low w)).seg .ss = low w := Context.withSeg_self _ _ _
  have far : loadFar S true p (.mem addr32 seg index disp) = (v, low w) := by
    rw [← ss, low_readDword, ← esp, ← address]
    rfl
  show OnStack S wide' v room' p.mem _ [] { p with
    regs := (p.regs.withGpr espReg (loadFar S true p (.mem addr32 seg index disp)).1).withSeg .ss
      (loadFar S true p (.mem addr32 seg index disp)).2 }
  rw [far]
  refine ⟨?_, small, Nat.zero_le _, ?_, fun other => ?_, ?_, on.eflags, ?_, AgreeOn.refl _⟩
  · rwa [segment]
  · show (p.regs.withGpr espReg v).gpr espReg = _
    exact (Context.withGpr_self _ _ _).trans (below_zero _ _).symm
  · exact (Context.withGpr_other _ _ _ other).trans (on.gpr other)
  · exact congrArg (fun seg => fun q => if q = .ss then low w else seg q) on.seg
  · intro x deeper among
    cases List.suffix_nil.mp among

/-- The start of an unused stack raised. -/
theorem rise (on : OnStack S wide t 0 m c [] p) (n : Dword) {room' : Nat}
    (narrow : S.big (c.seg .ss) = false → itemSize wide * room' ≤ (low (t + n)).toNat)
    (small : itemSize wide * room' < 2 ^ 32) :
    ∃ f, OnStack S wide (t + n) room' m { c with eflags := f } []
      ((Plain.add true (.reg espReg) (.imm n)).exec S p) := by
  have start : p.regs.gpr espReg = t := on.esp_eq.trans (BitVec.sub_zero _)
  let f := flagsOf .add true ((Operand.reg espReg).read S p true) ((Operand.imm n).read S p true) p.regs.eflags
  refine ⟨f, narrow, small, Nat.zero_le _, ?_, fun other => ?_, on.seg, rfl, ?_, fun a _ => on.kept a ?_⟩
  · show (p.regs.withGpr espReg (setPart true (p.regs.gpr espReg)
      ((Operand.reg espReg).read S p true + (Operand.imm n).read S p true))).gpr espReg = _
    rw [Context.withGpr_self, setPart_wide, Operand.read, Operand.read, cutItem_wide, cutItem_wide, start]
    exact (below_zero _ _).symm
  · exact (Context.withGpr_other _ _ _ other).trans (on.gpr other)
  · intro x deeper among
    cases List.suffix_nil.mp among
  · intro covered
    exact absurd covered (Nat.not_lt_zero _)

theorem reserve (on : OnStack S wide t room m c values p) (k : Nat) (fits : values.length + k ≤ room) :
    ∃ unused, unused.length = k ∧
      OnStack S wide t room m c (unused ++ values) (p.lower S (BitVec.ofNat 32 (itemSize wide * k))) := by
  induction k with
  | zero =>
    refine ⟨[], rfl, ?_⟩
    have still : p.regs.gpr espReg = below (p.big S) (p.regs.gpr espReg) (BitVec.ofNat 32 (itemSize wide * 0)) := by
      rw [on.esp, on.big, below_below, ← BitVec.ofNat_add, Nat.mul_zero, Nat.add_zero]
    refine { on with esp := ?_, gpr := fun other => ?_ }
    · exact ((Context.withGpr_self _ _ _).trans still.symm).trans on.esp
    · exact (Context.withGpr_other _ _ _ other).trans (on.gpr other)
  | succ k ih =>
    obtain ⟨unused, length, before⟩ := ih (by omega)
    have size : (unused ++ values).length = values.length + k := by rw [List.length_append, length, Nat.add_comm]
    refine ⟨readItem wide p.mem (itemAddress wide (stackLinear S (c.seg .ss) t) (values.length + k + 1)) :: unused,
      by rw [List.length_cons, length], ?_⟩
    refine { before with within := ?_, esp := ?_, gpr := fun other => ?_, items := fun v deeper among => ?_ }
    · show (unused ++ values).length + 1 ≤ room
      omega
    · refine (Context.withGpr_self _ _ _).trans ?_
      rw [on.esp, on.big, below_below, ← BitVec.ofNat_add, ← Nat.mul_add]
      congr 3
      show values.length + (k + 1) = (unused ++ values).length + 1
      omega
    · exact (Context.withGpr_other _ _ _ other).trans (on.gpr other)
    · rcases List.suffix_cons_iff.mp among with same | earlier
      · obtain ⟨rfl, rfl⟩ := List.cons.inj same
        show readItem wide p.mem (itemAddress wide _ ((unused ++ values).length + 1)) = _
        rw [size]
        exact (cutItem_readItem _ _ _).symm
      · exact before.items v deeper earlier

theorem subEsp (on : OnStack S true t room m c values p) (big : S.big (c.seg .ss) = true) (k : Nat)
    (fits : values.length + k ≤ room) :
    ∃ f unused, unused.length = k ∧ OnStack S true t room m { c with eflags := f } (unused ++ values)
      ((Plain.sub true (.reg espReg) (.imm (BitVec.ofNat 32 (4 * k)))).exec S p) := by
  obtain ⟨unused, length, reserved⟩ := on.reserve k fits
  have same : p.lower S (BitVec.ofNat 32 (itemSize true * k)) = (Operand.reg espReg).write S p true
      ((Operand.reg espReg).read S p true - (Operand.imm (BitVec.ofNat 32 (4 * k))).read S p true) := by
    rw [Processor.lower, on.big, big]
    rfl
  rw [same] at reserved
  exact ⟨_, unused, length, reserved.withFlags _⟩

theorem enter (on : OnStack S true t room m c values p) (big : S.big (c.seg .ss) = true)
    (fits : values.length + 2 ≤ room) :
    ∃ unused, OnStack S true t room m (c.withGpr ebpReg (below true t (BitVec.ofNat 32 (4 * (values.length + 1)))))
      (unused :: c.gpr ebpReg :: values) ((Plain.enter 4).exec S p) := by
  have pushed := on.push (by omega) (c.gpr ebpReg)
  have pointer := pushed.esp_big big
  have framed := pushed.withGpr (r := ebpReg) (by decide) (below true t (BitVec.ofNat 32 (4 * (values.length + 1))))
  obtain ⟨unused, length, reserved⟩ := framed.reserve 1 fits
  obtain ⟨v, rfl⟩ := List.length_eq_one_iff.mp length
  refine ⟨v, ?_⟩
  rw [← on.gpr (r := ebpReg) (by decide)] at reserved ⊢
  have same : (p.push S true (p.regs.gpr ebpReg)).regs.gpr espReg =
      below true t (BitVec.ofNat 32 (4 * (values.length + 1))) := by
    rw [on.gpr (r := ebpReg) (by decide)]
    exact pointer
  rw [← same] at reserved ⊢
  exact reserved

/-- `leave`: what lies under the frame pointer is released. -/
theorem leave (upper : List Dword) {v : Dword} (on : OnStack S true t room m c (upper ++ v :: values) p)
    (big : S.big (c.seg .ss) = true)
    (frame : c.gpr ebpReg = below true t (BitVec.ofNat 32 (4 * (values.length + 1)))) :
    OnStack S true t room m (c.withGpr ebpReg v) values (Plain.leave.exec S p) := by
  have cut := on.cut
  have size : itemSize true = 4 := rfl
  rw [List.length_cons, big, size, ← frame, ← on.gpr (r := ebpReg) (by decide)] at cut
  have popped := cut.popInto (r := ebpReg) (by decide)
  exact popped

end OnStack

end Pmdapi.X86
