import Pmdapi.Library.CodeRuns

/-!
Records of doublewords in memory: one word of them written by an instruction, and all of them copied.
-/

namespace Pmdapi.X86
open Bytes

def wordAddress (a : Dword) (k : Nat) : Dword := a + BitVec.ofNat 32 (4 * k)

theorem wordAddress_add (base a : Dword) (k : Nat) : base + wordAddress a k = wordAddress (base + a) k :=
  (BitVec.add_assoc _ _ _).symm

section Words

variable (m : Memory) {a : Dword} {n k : Nat}

theorem itemsAt_length (wide : Bool) (a : Dword) (n : Nat) : (itemsAt wide m a n).length = n := by
  induction n generalizing a with
  | zero => rfl
  | succ n ih => exact congrArg (· + 1) (ih _)

theorem itemsAt_getElem (inside : k < n) : (itemsAt true m a n)[k]? = some (readDword m (wordAddress a k)) := by
  induction n generalizing a k with
  | zero => exact absurd inside (Nat.not_lt_zero k)
  | succ n ih =>
    rw [itemsAt]
    cases k with
    | zero =>
      rw [wordAddress, Nat.mul_zero, BitVec.add_zero]
      rfl
    | succ k =>
      have next : a + BitVec.ofNat 32 (itemSize true) + BitVec.ofNat 32 (4 * k) = wordAddress a (k + 1) := by
        rw [BitVec.add_assoc, ← BitVec.ofNat_add, wordAddress, Nat.mul_succ, Nat.add_comm (4 * k)]
        rfl
      rw [List.getElem?_cons_succ, ih (Nat.lt_of_succ_lt_succ inside), wordAddress, next]

theorem word_within (inside : k < n) (small : 4 * n < 2 ^ 32) :
    (Block.mk (wordAddress a k) 4).Within ⟨a, 4 * n⟩ := fun _ =>
  Block.covers_of_inner (by omega) (by omega)

theorem words_apart {i j : Nat} (different : i ≠ j) (first : i < n) (second : j < n) (small : 4 * n < 2 ^ 32) :
    (Block.mk (wordAddress a i) 4).Apart ⟨wordAddress a j, 4⟩ := by
  intro x one other
  have left : (BitVec.ofNat 32 (4 * i)).toNat = 4 * i := Nat.mod_eq_of_lt (by omega)
  have right : (BitVec.ofNat 32 (4 * j)).toNat = 4 * j := Nat.mod_eq_of_lt (by omega)
  simp only [Block.Covers, offset, wordAddress] at one other
  generalize BitVec.ofNat 32 (4 * i) = s at *
  generalize BitVec.ofNat 32 (4 * j) = t at *
  bv_omega

variable {m}

theorem itemsAt_written {m' : Memory} {v : Dword} (inside : k < n) (small : 4 * n < 2 ^ 32)
    (own : readDword m' (wordAddress a k) = v)
    (kept : AgreeOn (¬(Block.mk (wordAddress a k) 4).Covers ·) m m') :
    itemsAt true m' a n = (itemsAt true m a n).set k v := by
  apply List.ext_getElem?
  intro i
  by_cases within : i < n
  · rw [List.getElem?_set, itemsAt_length, itemsAt_getElem m' within]
    by_cases same : k = i
    · rw [if_pos same, if_pos inside, ← same, own]
    · rw [if_neg same, itemsAt_getElem m within]
      have word : readItem true m' (wordAddress a i) = readItem true m (wordAddress a i) :=
        readItem_agree kept (words_apart (Ne.symm same) within inside small)
      exact congrArg some word
  · rw [List.getElem?_eq_none (by rw [itemsAt_length]; omega),
      List.getElem?_eq_none (by rw [List.length_set, itemsAt_length]; omega)]

theorem itemsAt_agree {P : Dword → Prop} {m' : Memory} (agree : AgreeOn P m m')
    (inside : ∀ x, (Block.mk a (4 * n)).Covers x → P x) (small : 4 * n < 2 ^ 32) :
    itemsAt true m' a n = itemsAt true m a n := by
  apply List.ext_getElem?
  intro i
  by_cases within : i < n
  · rw [itemsAt_getElem m' within, itemsAt_getElem m within]
    have word : readItem true m' (wordAddress a i) = readItem true m (wordAddress a i) :=
      readItem_agree agree fun x covered => inside x (word_within within small x covered)
    exact congrArg some word
  · rw [List.getElem?_eq_none (by rw [itemsAt_length]; omega), List.getElem?_eq_none (by rw [itemsAt_length]; omega)]

def shifted (m : Memory) (dst src : Dword) : Memory := fun a => m (src + (a - dst))

theorem copy_shifted (m : Memory) (dst src : Dword) (n : Nat) :
    AgreeOn (Block.mk dst n).Covers (shifted m dst src) (copy m dst src n) := fun _ inside => if_pos inside

theorem readItem_shifted (wide : Bool) (m : Memory) (dst src k : Dword) :
    readItem wide (shifted m dst src) (dst + k) = readItem wide m (src + k) := by
  have back (j : Dword) : shifted m dst src (dst + j) = m (src + j) := by
    rw [shifted, BitVec.add_comm dst, BitVec.add_sub_cancel]
  have word (j : Dword) : readWord (shifted m dst src) (dst + j) = readWord m (src + j) := by
    rw [readWord, readWord, BitVec.add_assoc, BitVec.add_assoc, back, back]
  cases wide with
  | true =>
    show readDword _ _ = readDword _ _
    rw [readDword, readDword, BitVec.add_assoc, BitVec.add_assoc, word, word]
  | false => exact congrArg (BitVec.setWidth 32) (word k)

theorem readItem_copy (wide : Bool) (m : Memory) (dst src : Dword) {k : Nat} (inside : k + itemSize wide ≤ n)
    (small : k < 2 ^ 32) :
    readItem wide (copy m dst src n) (dst + BitVec.ofNat 32 k) = readItem wide m (src + BitVec.ofNat 32 k) :=
  (readItem_agree (copy_shifted m dst src n) fun _ => Block.covers_of_inner inside small).trans
    (readItem_shifted wide m dst src _)

theorem itemsAt_copy (m : Memory) (dst src : Dword) (small : 4 * n < 2 ^ 32) :
    itemsAt true (copy m dst src (4 * n)) dst n = itemsAt true m src n := by
  apply List.ext_getElem?
  intro i
  by_cases within : i < n
  · rw [itemsAt_getElem _ within, itemsAt_getElem m within]
    have size : itemSize true = 4 := rfl
    exact congrArg some (readItem_copy true m dst src (by omega) (by omega))
  · rw [List.getElem?_eq_none (by rw [itemsAt_length]; omega), List.getElem?_eq_none (by rw [itemsAt_length]; omega)]

theorem readDword_writeDword (m : Memory) (a v : Dword) : readDword (writeDword m a v) a = v :=
  (readItem_writeItem true m a v).trans (cutItem_wide v)

theorem readDword_writeWord (m : Memory) (a : Dword) (v : Word) :
    readDword (writeWord m a v) a = setLow (readDword m a) v := by
  have upper : readWord (writeWord m a v) (a + 2) = readWord m (a + 2) :=
    readWord_agree (writeWord_agree m fun x outside => outside)
      fun x high low => by
        simp only [Block.Covers, offset] at high low
        bv_omega
  have high : (readDword m a).extractLsb' 16 16 = readWord m (a + 2) := by
    apply BitVec.eq_of_getLsbD_eq
    intro i inside
    have beyond : ¬16 + i < 16 := by omega
    rw [readDword, BitVec.getLsbD_extractLsb', BitVec.getLsbD_append, if_neg beyond, decide_eq_true inside,
      Bool.true_and, Nat.add_sub_cancel_left]
  rw [readDword, upper, readWord_writeWord, setLow, high]

end Words

/-! ## Records that code writes -/

/-- The memory `m'` is `m` but for a record at `a`, whose words are `ws`. -/
structure Rewritten (a : Dword) (n : Nat) (m : Memory) (ws : List Dword) (m' : Memory) : Prop where
  words : itemsAt true m' a n = ws
  kept : AgreeOn (¬(Block.mk a (4 * n)).Covers ·) m m'

namespace Rewritten

variable {a : Dword} {n k : Nat} {m m' : Memory} {ws : List Dword}

theorem dword (written : Rewritten a n m ws m') (inside : k < n) (small : 4 * n < 2 ^ 32) (v : Dword) :
    Rewritten a n m (ws.set k v) (writeDword m' (wordAddress a k) v) where
  words := by
    rw [itemsAt_written inside small (readDword_writeDword _ _ _) (writeDword_agree m' fun _ outside => outside),
      written.words]
  kept := written.kept.trans (writeDword_agree m' fun x outside covered =>
    outside (word_within inside small x covered))

theorem word (written : Rewritten a n m ws m') (inside : k < n) (small : 4 * n < 2 ^ 32) (v : Word) {d : Dword}
    (old : ws[k]? = some d) : Rewritten a n m (ws.set k (setLow d v)) (writeWord m' (wordAddress a k) v) := by
  have before : readDword m' (wordAddress a k) = d := by
    rw [← written.words, itemsAt_getElem m' inside] at old
    exact Option.some.inj old
  have part : AgreeOn (¬(Block.mk (wordAddress a k) 4).Covers ·) m' (writeWord m' (wordAddress a k) v) :=
    writeWord_agree m' fun x outside covered => outside (Block.within_of_le (by decide) x covered)
  refine ⟨?_, written.kept.trans fun x outside => part x fun covered =>
    outside (word_within inside small x covered)⟩
  rw [itemsAt_written inside small ((readDword_writeWord _ _ _).trans (congrArg (setLow · v) before)) part,
    written.words]

end Rewritten

section

variable (S : Segments) {Label : Type} {code : Label → List (Instruction Label)} (layout : Layout code)

/-- The program leads from `p` to `eip`, and the memory is `m` but for a record and the stack. -/
def Records (p : Processor) (eip t : Dword) (room : Nat) (a : Dword) (n : Nat) (m : Memory) (c : Context)
    (values ws : List Dword) : Prop :=
  ∃ m', Comes S layout p eip true t room m' c values ∧ Rewritten a n m ws m'

variable {S layout} {p : Processor} {l : Label} {k : Nat} {t a b : Dword} {room n : Nat} {m : Memory} {c : Context}
  {values ws : List Dword}

theorem Records.start {eip : Dword} (comes : Comes S layout p eip true t room m c values) (a : Dword) (n : Nat) :
    Records S layout p eip t room a n m c values (itemsAt true m a n) :=
  ⟨m, comes, rfl, AgreeOn.refl m⟩

section

variable (records : Records S layout p (layout.place ⟨l, k⟩) t room a n m c values ws)
  {seg : SegReg} {j : Nat} (here : S.base (c.seg seg) + b = a) (inside : j < n) (small : 4 * n < 2 ^ 32)
  (apart : (stackItems true (stackLinear S (c.seg .ss) t) room).Apart ⟨a, 4 * n⟩)
include records here inside small apart

theorem Records.save {src : Operand} {v : Dword}
    (is : (code l)[k]? = some (.plain (.mov true (.mem true seg none (wordAddress b j)) src)))
    (value : ∀ m' q, OnStack S true t room m' c values q → src.read S q true = v) :
    Records S layout p (layout.place ⟨l, k + 1⟩) t room a n m c values (ws.set j v) := by
  obtain ⟨m', comes, written⟩ := records
  have saved := comes.next is fun q on => on.movSlot seg (wordAddress b j) (v := v) (by
    rw [wordAddress_add, here]
    exact fun x covered => fun own => apart x covered (word_within inside small x own)) (value m' q on)
  rw [wordAddress_add, here] at saved
  exact ⟨_, saved, written.dword inside small v⟩

theorem Records.saveSeg (r : SegReg) {d : Dword} (old : ws[j]? = some d)
    (is : (code l)[k]? = some (.plain (.movFromSeg (.mem true seg none (wordAddress b j)) r))) :
    Records S layout p (layout.place ⟨l, k + 1⟩) t room a n m c values (ws.set j (setLow d (c.seg r))) := by
  obtain ⟨m', comes, written⟩ := records
  have saved := comes.next is fun q on => on.segSlot r seg (wordAddress b j) (by
    rw [wordAddress_add, here]
    exact fun x covered => fun own =>
      apart x covered (word_within inside small x (Block.within_of_le (by decide) x own)))
  rw [wordAddress_add, here] at saved
  exact ⟨_, saved, written.word inside small _ old⟩

theorem Records.saveFlags (fits : values.length < room) (first : (code l)[k]? = some (.plain (.pushf true)))
    (second : (code l)[k + 1]? = some (.plain (.pop true (.mem true seg none (wordAddress b j))))) :
    Records S layout p (layout.place ⟨l, k + 2⟩) t room a n m c values (ws.set j c.eflags) := by
  obtain ⟨m', comes, written⟩ := records
  have saved := (comes.next first fun q on => on.pushf fits).next second fun q on =>
    on.popSlot seg (wordAddress b j) (by
      rw [wordAddress_add, here]
      exact fun x covered => fun own => apart x covered (word_within inside small x own))
  rw [wordAddress_add, here] at saved
  exact ⟨_, saved, written.dword inside small _⟩

end

end

end Pmdapi.X86
