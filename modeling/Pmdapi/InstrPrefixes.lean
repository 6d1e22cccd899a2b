import Mathlib.Tactic.Tauto
import Pmdapi.InstrDec
import Pmdapi.InstrLenLaw

/-! What `x86_handle_prefixes` finds at an instruction. -/

namespace Pmdapi
open Bytes X86

/-- The prefixes that `x86_handle_prefixes` knows: all but LOCK. -/
def handledPrefixes : List Byte := [0x26, 0x2e, 0x36, 0x3e, 0x64, 0x65, 0x66, 0x67, 0xf2, 0xf3]

theorem handled_or_lock {b : Byte} (legacy : b ∈ legacyPrefixes) : b ∈ handledPrefixes ∨ b = 0xf0 := by
  simp only [legacyPrefixes, handledPrefixes, List.mem_cons, List.not_mem_nil, or_false] at legacy ⊢
  tauto

theorem legacy_of_handled {b : Byte} (handled : b ∈ handledPrefixes) : b ∈ legacyPrefixes := by
  simp only [legacyPrefixes, handledPrefixes, List.mem_cons, List.not_mem_nil, or_false] at handled ⊢
  tauto

theorem handle_none (x86 : X86Ins) {b : Byte} (other : b ∉ handledPrefixes) : x86.handle b = none := by
  simp only [handledPrefixes, List.mem_cons, List.not_mem_nil, or_false, not_or] at other
  simp only [X86Ins.handle, other, if_false]

theorem handle_isSome (x86 : X86Ins) {b : Byte} (handled : b ∈ handledPrefixes) :
    (x86.handle b).isSome := by
  simp only [handledPrefixes, List.mem_cons, List.not_mem_nil, or_false] at handled
  rcases handled with rfl | rfl | rfl | rfl | rfl | rfl | rfl | rfl | rfl | rfl <;> rfl

def X86Ins.take (x86 : X86Ins) (b : Byte) : X86Ins := (x86.handle b).getD x86

def X86Ins.after (x86 : X86Ins) (prefixes : List Byte) : X86Ins := prefixes.foldl X86Ins.take x86

/-- The loop over prefixes, by induction on them. -/
theorem handleFrom_prefixes (p : Nat → Byte) {prefixes : List Byte}
    (handled : ∀ b ∈ prefixes, b ∈ handledPrefixes) :
    ∀ (fuel n : Nat) (x86 : X86Ins), prefixes.length < fuel → Begins (fun i => p (n + i)) prefixes →
      p (n + prefixes.length) ∉ handledPrefixes →
      handleFrom p fuel n x86 = (n + prefixes.length, x86.after prefixes) := by
  induction prefixes with
  | nil =>
    intro fuel n x86 enough _ other
    obtain ⟨fuel, rfl⟩ := Nat.exists_eq_add_of_lt enough
    rw [List.length_nil, Nat.add_zero] at other
    rw [List.length_nil, Nat.zero_add, handleFrom, handle_none x86 other]
    rfl
  | cons b rest ih =>
    intro fuel n x86 enough begins other
    rw [List.length_cons] at enough other
    obtain ⟨fuel, rfl⟩ : ∃ k, fuel = k + 1 := ⟨fuel - 1, by omega⟩
    have here : p n = b := begins.head
    obtain ⟨next, step⟩ := Option.isSome_iff_exists.mp
      (handle_isSome x86 (handled b List.mem_cons_self))
    have later : Begins (fun i => p (n + 1 + i)) rest := by
      intro i inside
      have byte : p (n + (i + 1)) = rest.getD i 0 := begins.tail i inside
      rwa [show n + (i + 1) = n + 1 + i by omega] at byte
    rw [handleFrom, here, step]
    show handleFrom p fuel (n + 1) next = _
    rw [ih (fun c hc => handled c (List.mem_cons_of_mem b hc)) fuel (n + 1) next (by omega) later
      (by rwa [show n + 1 + rest.length = n + (rest.length + 1) by omega])]
    rw [X86Ins.after, X86Ins.after, List.foldl_cons, X86Ins.take, step, List.length_cons]
    congr 1
    omega

/-! ## The fields after the prefixes -/

def sizeBytes (b : Bool) : Dword := if b then 4 else 2

theorem take_of_other (x86 : X86Ins) {b : Byte} (other : b ∉ handledPrefixes) : x86.take b = x86 := by
  rw [X86Ins.take, handle_none x86 other, Option.getD_none]

theorem take_keeps {α : Type} {field : X86Ins → α} (x86 : X86Ins) {b : Byte}
    (keeps : b ∈ handledPrefixes → field (x86.take b) = field x86) :
    field (x86.take b) = field x86 := by
  by_cases handled : b ∈ handledPrefixes
  · exact keeps handled
  · rw [take_of_other x86 handled]

theorem take_operandSize (x86 : X86Ins) {b : Byte} (other : b ≠ 0x66) :
    (x86.take b).operandSize = x86.operandSize := by
  apply take_keeps x86
  intro handled
  simp only [handledPrefixes, List.mem_cons, List.not_mem_nil, or_false] at handled
  rcases handled with rfl | rfl | rfl | rfl | rfl | rfl | rfl | rfl | rfl | rfl <;>
    first | rfl | exact absurd rfl other

theorem take_addressSize (x86 : X86Ins) {b : Byte} (other : b ≠ 0x67) :
    (x86.take b).addressSize = x86.addressSize := by
  apply take_keeps x86
  intro handled
  simp only [handledPrefixes, List.mem_cons, List.not_mem_nil, or_false] at handled
  rcases handled with rfl | rfl | rfl | rfl | rfl | rfl | rfl | rfl | rfl | rfl <;>
    first | rfl | exact absurd rfl other

theorem take_bit32 (x86 : X86Ins) (b : Byte) : (x86.take b).bit32 = x86.bit32 := by
  apply take_keeps x86
  intro handled
  simp only [handledPrefixes, List.mem_cons, List.not_mem_nil, or_false] at handled
  rcases handled with rfl | rfl | rfl | rfl | rfl | rfl | rfl | rfl | rfl | rfl <;> rfl

/-- A size that one prefix toggles and the others leave alone. -/
theorem after_toggled {field : X86Ins → Dword} {toggle : Byte}
    (toggles : ∀ x86 : X86Ins, field (x86.take toggle) = 6 - field x86)
    (keeps : ∀ (x86 : X86Ins) {b : Byte}, b ≠ toggle → field (x86.take b) = field x86)
    {prefixes : List Byte} : ∀ x86 : X86Ins,
      field (x86.after prefixes) =
        if prefixes.count toggle % 2 = 1 then 6 - field x86 else field x86 := by
  induction prefixes with
  | nil => exact fun _ => rfl
  | cons b rest ih =>
    intro x86
    rw [X86Ins.after, List.foldl_cons]
    refine (ih (x86.take b)).trans ?_
    by_cases toggled : b = toggle
    · have twice : (6 : Dword) - (6 - field x86) = field x86 := by bv_omega
      rw [toggled, toggles, twice, List.count_cons_self]
      rcases Nat.mod_two_eq_zero_or_one (rest.count toggle) with even | odd
      · rw [if_neg (by omega), if_pos (by omega)]
      · rw [if_pos odd, if_neg (by omega)]
    · rw [keeps x86 toggled, List.count_cons_of_ne toggled]

theorem after_size {field : X86Ins → Dword} {toggle : Byte}
    (toggles : ∀ x86 : X86Ins, field (x86.take toggle) = 6 - field x86)
    (keeps : ∀ (x86 : X86Ins) {b : Byte}, b ≠ toggle → field (x86.take b) = field x86)
    {prefixes : List Byte} {x86 : X86Ins} {is32 : Bool} (size : field x86 = sizeBytes is32) :
    field (x86.after prefixes) = sizeBytes (countedSize is32 toggle prefixes) := by
  rw [after_toggled toggles keeps, size, countedSize]
  split
  next odd =>
    rw [decide_eq_true odd]
    cases is32 <;> rfl
  next even => rw [decide_eq_false even, Bool.xor_false]

theorem after_operandSize {prefixes : List Byte} {x86 : X86Ins} {is32 : Bool}
    (size : x86.operandSize = sizeBytes is32) :
    (x86.after prefixes).operandSize = sizeBytes (countedSize is32 0x66 prefixes) :=
  after_size (fun _ => rfl) take_operandSize size

theorem after_addressSize {prefixes : List Byte} {x86 : X86Ins} {is32 : Bool}
    (size : x86.addressSize = sizeBytes is32) :
    (x86.after prefixes).addressSize = sizeBytes (countedSize is32 0x67 prefixes) :=
  after_size (fun _ => rfl) take_addressSize size

theorem after_bit32 {prefixes : List Byte} : ∀ x86 : X86Ins,
    (x86.after prefixes).bit32 = x86.bit32 := by
  induction prefixes with
  | nil => exact fun _ => rfl
  | cons b rest ih =>
    intro x86
    rw [X86Ins.after, List.foldl_cons]
    exact (ih _).trans (take_bit32 x86 b)

/-! ## At an instruction -/

theorem codeAt_add (m : Memory) (a : Dword) (n i : Nat) :
    codeAt m (a + BitVec.ofNat 32 n) i = codeAt m a (n + i) := by
  rw [codeAt, codeAt, BitVec.ofNat_add, BitVec.add_assoc]

theorem readWord_codeAt (m : Memory) (a : Dword) (n : Nat) :
    readWord m (a + BitVec.ofNat 32 n) = codeAt m a (n + 1) ++ codeAt m a n := by
  rw [readWord, BitVec.add_assoc, show (1 : Dword) = BitVec.ofNat 32 1 from rfl, ← BitVec.ofNat_add]
  rfl

theorem skip_skip (e : Dword) (n k : Nat) :
    e + BitVec.ofNat 32 n + BitVec.ofNat 32 k = e + BitVec.ofNat 32 (n + k) := by
  rw [BitVec.add_assoc, BitVec.ofNat_add]

theorem opcode_head {opcode : Opcode} {form : OpcodeForm} (defined : opcode.form = some form) :
    ∃ b rest, opcode.bytes = b :: rest ∧ b ∉ legacyPrefixes := by
  cases opcode with
  | oneByte op => exact ⟨op, [], rfl, (opcodeForm_opcode defined).1⟩
  | twoByte op => exact ⟨0x0f, [op], rfl, by decide⟩

section

variable {is32 : Bool} {instr : List Byte} (enc : Encoding is32 instr)

def insOf : X86Ins := (X86Ins.start (signedBit is32)).after enc.prefixes

omit enc in
theorem insOf_operandSize (enc : Encoding false instr) :
    (insOf enc).operandSize = sizeBytes (countedSize false 0x66 enc.prefixes) :=
  after_operandSize rfl

omit enc in
theorem insOf_addressSize (enc : Encoding false instr) :
    (insOf enc).addressSize = sizeBytes (countedSize false 0x67 enc.prefixes) :=
  after_addressSize rfl

omit enc in
/-- In 32-bit code an operand has no size, or six bytes. -/
theorem insOf_operandSize_wide (enc : Encoding true instr) :
    (insOf enc).operandSize = if enc.prefixes.count 0x66 % 2 = 1 then 6 else 0 :=
  after_toggled (fun _ => rfl) take_operandSize _

theorem insOf_bit32 : (insOf enc).bit32 = signedBit is32 := after_bit32 _

variable {p : Nat → Byte} (begins : Begins p instr) (short : instr.length ≤ 15)

include begins in
theorem opcode_byte {i : Nat} (inside : i < enc.opcode.bytes.length) :
    p (enc.prefixes.length + i) = enc.opcode.bytes.getD i 0 := by
  rw [enc.split] at begins
  exact begins.right.left i inside

include begins in
theorem operand_byte {i : Nat} (inside : i < enc.operands.length) :
    p (enc.prefixes.length + enc.opcode.bytes.length + i) = enc.operands.getD i 0 := by
  rw [enc.split] at begins
  rw [Nat.add_assoc]
  exact begins.right.right i inside

include enc short in
theorem prefixes_few : enc.prefixes.length < 16 := by
  have length := enc.length_eq
  omega

include begins short

theorem handlePrefixes_unlocked (unlocked : 0xf0 ∉ enc.prefixes) :
    x86HandlePrefixes p (signedBit is32) = (enc.prefixes.length, insOf enc) := by
  have few := prefixes_few enc short
  have handled : ∀ b ∈ enc.prefixes, b ∈ handledPrefixes := by
    intro b inside
    rcases handled_or_lock (enc.legacy b inside) with known | lock
    · exact known
    · exact absurd (lock ▸ inside) unlocked
  obtain ⟨b, rest, bytes, other⟩ := opcode_head enc.defined
  have opcode : p enc.prefixes.length = b := by
    have first := opcode_byte enc begins (by rw [bytes]; exact Nat.zero_lt_succ _)
    rwa [bytes] at first
  rw [enc.split] at begins
  have found := handleFrom_prefixes p handled (2 ^ 32) 0 (.start (signedBit is32)) (by omega)
    (by simpa using begins.left)
    (by
      rw [Nat.zero_add, opcode]
      exact fun known => other (legacy_of_handled known))
  rwa [Nat.zero_add] at found

/-- The scan stops at a LOCK. -/
theorem handlePrefixes_locked (locked : 0xf0 ∈ enc.prefixes) :
    p (x86HandlePrefixes p (signedBit is32)).1 = 0xf0 := by
  have few := prefixes_few enc short
  obtain ⟨front, back, split, unlocked⟩ := List.eq_append_cons_of_mem locked
  have handled : ∀ b ∈ front, b ∈ handledPrefixes := by
    intro b inside
    have legacy := enc.legacy b (split ▸ List.mem_append_left _ inside)
    rcases handled_or_lock legacy with known | lock
    · exact known
    · exact absurd (lock ▸ inside) unlocked
  have shorter := congrArg List.length split
  rw [List.length_append, List.length_cons] at shorter
  rw [enc.split, split, List.append_assoc] at begins
  have lock : p front.length = 0xf0 := begins.right.head
  have found := handleFrom_prefixes p handled (2 ^ 32) 0 (.start (signedBit is32)) (by omega)
    (by simpa using begins.left)
    (by
      rw [Nat.zero_add, lock]
      decide)
  rw [Nat.zero_add] at found
  rw [x86HandlePrefixes, found]
  exact lock

/-- Two bytes of opcode are too many for `instr_len`. -/
theorem instrLen_twoByte {op : Byte} (two : enc.opcode = .twoByte op) (size : Dword) :
    instrLen p size = 0 := by
  have few := prefixes_few enc short
  have opcode : p enc.prefixes.length = 0x0f := by
    have first := opcode_byte enc begins (i := 0) (by rw [two]; exact Nat.zero_lt_two)
    rwa [two] at first
  rw [enc.split] at begins
  have scanned := scanPrefixes_toggled p enc.legacy 17 0 size size (by omega)
    (by simpa using begins.left)
    (by
      rw [Nat.zero_add, opcode]
      decide)
  rw [Nat.zero_add] at scanned
  simp only [instrLen, scanned, Nat.add_sub_cancel, opcode, if_true, if_neg (Nat.not_le.mpr few)]

end

/-! ## Sizes as the code takes them -/

/-- A size as `instr_len` takes it: what it is given for 32-bit code stays set. -/
def lenSize (is32 : Bool) (toggle : Byte) (prefixes : List Byte) : Bool :=
  is32 || countedSize false toggle prefixes

theorem toggled_signedBit (is32 : Bool) (toggle : Byte) (prefixes : List Byte) :
    decide (toggled (signedBit is32) toggle prefixes ≠ 0) = lenSize is32 toggle prefixes := by
  cases is32 with
  | false =>
    show decide (toggled (sizeBit false) toggle prefixes ≠ 0) = countedSize false toggle prefixes
    rw [toggled_sizeBit, sizeBit_ne_zero]
  | true =>
    have set : toggled (signedBit true) toggle prefixes ≠ 0 := by
      unfold toggled
      split <;> decide
    exact decide_eq_true set

theorem instrLen_signed {is32 : Bool} {instr : List Byte} (enc : Encoding is32 instr) {op : Byte}
    (one : enc.opcode = .oneByte op) (p : Nat → Byte) (begins : Begins p instr)
    (few : enc.prefixes.length < 16) :
    instrLen p (signedBit is32) =
      match classLen (it op) enc.modrm (lenSize is32 0x66 enc.prefixes) (lenSize is32 0x67 enc.prefixes) with
      | some n => enc.prefixes.length + n
      | none => 0 := by
  have sized := instrLen_toggled enc one p begins few (signedBit is32)
  rw [toggled_signedBit, toggled_signedBit, classLen_operand enc one p begins] at sized
  exact sized

theorem counted_operand {toggle : Byte} {prefixes : List Byte}
    (counted : countedSize false toggle prefixes = true) : sizeAttribute false toggle prefixes = true := by
  have odd : prefixes.count toggle % 2 = 1 := by simpa [countedSize] using counted
  have inside : toggle ∈ prefixes := List.count_pos_iff.mp (by omega)
  simp [sizeAttribute, inside]

/-- The operands whose ModRM part is as long with 16-bit addresses as with 32-bit ones. -/
theorem argLen_mismatch : ∀ modrm : Byte, argLen modrm false = argLen modrm true ↔
    modField modrm = 3 ∨ (modField modrm = 0 ∧ rmField modrm ≠ 4 ∧ rmField modrm ≠ 5 ∧ rmField modrm ≠ 6) ∨
      (modField modrm = 1 ∧ rmField modrm ≠ 4) := by
  decide +kernel

theorem argLen_le : ∀ (asp : Bool) (modrm : Byte), argLen modrm asp ≤ 6 := by decide +kernel

theorem argLen_mismatch_base : ∀ modrm : Byte,
    (argLen modrm false = argLen modrm true + if sibDisplacement true modrm 5 then 4 else 0) ↔
      argLen modrm false = argLen modrm true := by
  decide +kernel

section

def counted32 {instr : List Byte} (enc : Encoding false instr) : Bool := countedSize false 0x66 enc.prefixes

variable {is32 : Bool} {instr : List Byte} (enc : Encoding is32 instr)

/-- `instr_len` takes the address size by counting prefixes and looks at no SIB byte; these are the
memory operands whose length it knows all the same. -/
def AddressRight : Prop :=
  if lenSize is32 0x67 enc.prefixes = enc.addr32 then
    sibDisplacement enc.addr32 enc.modrm enc.sib = false
  else
    modField enc.modrm = 3 ∨
      (modField enc.modrm = 0 ∧ rmField enc.modrm ≠ 4 ∧ rmField enc.modrm ≠ 5 ∧ rmField enc.modrm ≠ 6) ∨
      (modField enc.modrm = 1 ∧ rmField enc.modrm ≠ 4)

theorem addressRight_iff :
    argLen enc.modrm (lenSize is32 0x67 enc.prefixes) = modrmLength enc.addr32 enc.modrm enc.sib ↔
      AddressRight enc := by
  unfold AddressRight
  split
  next same =>
    rw [same, modrmLength_eq]
    cases sibDisplacement enc.addr32 enc.modrm enc.sib <;> simp
  next differ =>
    rw [← argLen_mismatch, modrmLength_eq]
    cases addr32 : enc.addr32 with
    | false =>
      have long : lenSize is32 0x67 enc.prefixes = true := by
        rw [addr32] at differ
        exact eq_true_of_ne_false differ
      rw [long]
      exact eq_comm
    | true =>
      have short : lenSize is32 0x67 enc.prefixes = false := by
        rw [addr32] at differ
        exact eq_false_of_ne_true differ
      rw [short]
      by_cases base : baseField enc.sib = 5
      · have same : baseField enc.sib = baseField 5 := base
        rw [sibDisplacement_base true enc.modrm same]
        exact argLen_mismatch_base enc.modrm
      · rw [sibDisplacement, decide_eq_false base, Bool.and_false]
        exact Iff.rfl

end

end Pmdapi
