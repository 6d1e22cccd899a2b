import Pmdapi.InstrLen

/-!
When `instr_len` gives the length of an instruction. The prefix loop is right for every instruction
with one prefix of each size; the table and `arg_len` are compared with the opcode map, and where
they differ the length is wrong.
-/

namespace Pmdapi
open Bytes X86

/-! ## The prefix loop -/

def toggled (size : Dword) (toggle : Byte) (prefixes : List Byte) : Dword :=
  if prefixes.count toggle % 2 = 1 then size ^^^ 1 else size

theorem toggled_cons (size : Dword) (toggle b : Byte) (rest : List Byte) :
    toggled size toggle (b :: rest) = toggled (toggled size toggle [b]) toggle rest := by
  have twice : size ^^^ 1 ^^^ 1 = size := by rw [BitVec.xor_assoc, BitVec.xor_self, BitVec.xor_zero]
  by_cases same : b = toggle
  · subst same
    have parity := Nat.mod_two_eq_zero_or_one (rest.count b)
    have once : toggled size b [b] = size ^^^ 1 := if_pos (by rw [List.count_singleton_self])
    rw [once, toggled, toggled, List.count_cons_self, twice]
    rcases parity with even | odd
    · rw [if_pos (by omega), if_neg (by omega)]
    · rw [if_neg (by omega), if_pos odd]
  · have never : toggled size toggle [b] = size :=
      if_neg (by rw [List.count_cons_of_ne same, List.count_nil]; decide)
    rw [never, toggled, toggled, List.count_cons_of_ne same]

theorem toggled_sizeBit (is32 : Bool) (toggle : Byte) (prefixes : List Byte) :
    toggled (sizeBit is32) toggle prefixes = sizeBit (countedSize is32 toggle prefixes) := by
  unfold toggled countedSize
  split
  next odd => rw [decide_eq_true odd, Bool.xor_true, ← sizeBit_xor]; rfl
  next even => rw [decide_eq_false even, Bool.xor_false]

theorem scanPrefixes_legacy (p : Nat → Byte) (fuel read : Nat) (osp asp : Dword) {b : Byte}
    (legacy : b ∈ legacyPrefixes) (here : p read = b) :
    scanPrefixes p (fuel + 1) ⟨read, osp, asp⟩ =
      scanPrefixes p fuel ⟨read + 1, toggled osp 0x66 [b], toggled asp 0x67 [b]⟩ := by
  subst here
  simp only [legacyPrefixes, List.mem_cons, List.not_mem_nil, or_false] at legacy
  rcases legacy with h | h | h | h | h | h | h | h | h | h | h <;>
    simp [scanPrefixes, h, toggled]

theorem scanPrefixes_end (p : Nat → Byte) (fuel : Nat) (scan : PrefixScan)
    (other : p scan.read ∉ legacyPrefixes) :
    scanPrefixes p (fuel + 1) scan = { scan with read := scan.read + 1 } := by
  simp only [legacyPrefixes, List.mem_cons, List.not_mem_nil, or_false, not_or] at other
  simp only [scanPrefixes, other, decide_false, Bool.or_false, Bool.false_eq_true, if_false]

/-- The loop over all prefixes, by induction on them. -/
theorem scanPrefixes_toggled (p : Nat → Byte) {prefixes : List Byte}
    (legacy : ∀ b ∈ prefixes, b ∈ legacyPrefixes) :
    ∀ (fuel read : Nat) (osp asp : Dword), prefixes.length < fuel →
      Begins (fun i => p (read + i)) prefixes →
      p (read + prefixes.length) ∉ legacyPrefixes →
      scanPrefixes p fuel ⟨read, osp, asp⟩ =
        ⟨read + prefixes.length + 1, toggled osp 0x66 prefixes, toggled asp 0x67 prefixes⟩ := by
  induction prefixes with
  | nil =>
    intro fuel read osp asp enough _ other
    obtain ⟨fuel, rfl⟩ := Nat.exists_eq_add_of_lt enough
    rw [List.length_nil, Nat.zero_add, scanPrefixes_end p fuel _ other]
    rfl
  | cons b rest ih =>
    intro fuel read osp asp enough begins other
    rw [List.length_cons] at enough other
    obtain ⟨fuel, rfl⟩ : ∃ n, fuel = n + 1 := ⟨fuel - 1, by omega⟩
    have here : p read = b := begins.head
    have later : Begins (fun i => p (read + 1 + i)) rest := by
      intro i inside
      have next : p (read + (i + 1)) = rest.getD i 0 := begins.tail i inside
      rwa [show read + (i + 1) = read + 1 + i by omega] at next
    rw [scanPrefixes_legacy p fuel read osp asp (legacy b List.mem_cons_self) here,
      ih (fun c hc => legacy c (List.mem_cons_of_mem b hc)) fuel (read + 1) _ _ (by omega) later
        (by rwa [show read + 1 + rest.length = read + (rest.length + 1) by omega]),
      toggled_cons osp 0x66 b rest, toggled_cons asp 0x67 b rest, List.length_cons]
    congr 1
    omega

theorem scanPrefixes_prefixes (p : Nat → Byte) {prefixes : List Byte}
    (legacy : ∀ b ∈ prefixes, b ∈ legacyPrefixes) (fuel read : Nat) (osp asp : Bool)
    (enough : prefixes.length < fuel) (begins : Begins (fun i => p (read + i)) prefixes)
    (other : p (read + prefixes.length) ∉ legacyPrefixes) :
    scanPrefixes p fuel ⟨read, sizeBit osp, sizeBit asp⟩ =
      ⟨read + prefixes.length + 1, sizeBit (countedSize osp 0x66 prefixes),
        sizeBit (countedSize asp 0x67 prefixes)⟩ := by
  rw [scanPrefixes_toggled p legacy fuel read _ _ enough begins other, toggled_sizeBit, toggled_sizeBit]

theorem opcodeForm_opcode {op : Byte} {form : OpcodeForm} (defined : opcodeForm op = some form) :
    op ∉ legacyPrefixes ∧ op ≠ 0x0f := by
  by_cases outside : op ∈ legacyPrefixes ∨ op = 0x0f
  · have undefined : opcodeForm op = none := by
      rw [opcodeForm, if_pos]
      rcases outside with h | h <;> simp only [h, decide_true, Bool.true_or, Bool.or_true]
    rw [undefined] at defined
    cases defined
  · exact not_or.mp outside

/-- `instr_len` of an instruction of the one-byte map, with any number of prefixes that leaves the
opcode among the first 16 bytes. -/
theorem instrLen_toggled {is32 : Bool} {instr : List Byte} (enc : Encoding is32 instr) {op : Byte}
    (one : enc.opcode = .oneByte op) (p : Nat → Byte) (begins : Begins p instr)
    (few : enc.prefixes.length < 16) (size : Dword) :
    instrLen p size =
      match classLen (it op) (p (enc.prefixes.length + 1)) (toggled size 0x66 enc.prefixes ≠ 0)
        (toggled size 0x67 enc.prefixes ≠ 0) with
      | some n => enc.prefixes.length + n
      | none => 0 := by
  have defined := enc.defined
  rw [one] at defined
  obtain ⟨other, noEscape⟩ := opcodeForm_opcode defined
  rw [enc.split, one] at begins
  have opcode : p enc.prefixes.length = op := begins.right.left.head
  have scanned := scanPrefixes_toggled p enc.legacy 17 0 size size (by omega)
    (by simpa using begins.left) (by simpa [opcode] using other)
  rw [Nat.zero_add] at scanned
  obtain ⟨len, computed⟩ : ∃ len, instrLen p size = len := ⟨_, rfl⟩
  rw [computed]
  simp only [instrLen, scanned, Nat.add_sub_cancel, opcode, if_neg noEscape,
    if_neg (Nat.not_le.mpr few)] at computed
  exact computed.symm

theorem instrLen_oneByte {is32 : Bool} {instr : List Byte} (enc : Encoding is32 instr) {op : Byte}
    (one : enc.opcode = .oneByte op) (p : Nat → Byte) (begins : Begins p instr)
    (few : enc.prefixes.length < 16) :
    instrLen p (sizeBit is32) =
      match classLen (it op) (p (enc.prefixes.length + 1)) (countedSize is32 0x66 enc.prefixes)
        (countedSize is32 0x67 enc.prefixes) with
      | some n => enc.prefixes.length + n
      | none => 0 := by
  rw [instrLen_toggled enc one p begins few, toggled_sizeBit, toggled_sizeBit, sizeBit_ne_zero,
    sizeBit_ne_zero]

/-! ## ModRM -/

/-- SIB with base 5 and mod 0: a displacement without a base. -/
def sibDisplacement (addr32 : Bool) (modrm sib : Byte) : Bool :=
  addr32 && hasSib modrm && decide (modField modrm = 0) && decide (baseField sib = 5)

theorem argLen_pos : ∀ (asp : Bool) (modrm : Byte), 0 < argLen modrm asp := by decide

theorem modrmLength_zero : ∀ (addr32 : Bool) (modrm : Byte),
    modrmLength addr32 modrm 0 = argLen modrm addr32 := by decide

theorem modrmLength_five : ∀ (addr32 : Bool) (modrm : Byte), modrmLength addr32 modrm 5 =
    argLen modrm addr32 + if sibDisplacement addr32 modrm 5 then 4 else 0 := by decide

theorem modrmLength_base (addr32 : Bool) (modrm : Byte) {sib other : Byte}
    (same : baseField sib = baseField other) :
    modrmLength addr32 modrm sib = modrmLength addr32 modrm other := by
  simp only [modrmLength, displacementLength, same]

theorem sibDisplacement_base (addr32 : Bool) (modrm : Byte) {sib other : Byte}
    (same : baseField sib = baseField other) :
    sibDisplacement addr32 modrm sib = sibDisplacement addr32 modrm other := by
  rw [sibDisplacement, sibDisplacement, same]

/-- What `arg_len` misses. -/
theorem modrmLength_eq (addr32 : Bool) (modrm sib : Byte) : modrmLength addr32 modrm sib =
    argLen modrm addr32 + if sibDisplacement addr32 modrm sib then 4 else 0 := by
  by_cases base : baseField sib = 5
  · have same : baseField sib = baseField 5 := base
    rw [modrmLength_base addr32 modrm same, sibDisplacement_base addr32 modrm same]
    exact modrmLength_five addr32 modrm
  · have nowhere : sibDisplacement addr32 modrm sib = false := by
      rw [sibDisplacement, decide_eq_false base, Bool.and_false]
    have zero := modrmLength_zero addr32 modrm
    rw [nowhere, ← zero]
    simp only [modrmLength, displacementLength, base, show ¬ baseField 0 = 5 by decide,
      Bool.false_eq_true, if_false, Nat.add_zero]

/-! ## The table -/

/-- The classes of the opcodes whose class says what their form says. -/
def regularRows : List (OpcodeForm × Nat) :=
  [(⟨false, .none⟩, 1), (⟨false, .byte⟩, 2), (⟨false, .operand⟩, 3), (⟨false, .address⟩, 4),
   (⟨true, .none⟩, 7), (⟨true, .byte⟩, 8), (⟨true, .operand⟩, 9)]

def irregularRows : List (Byte × OpcodeForm × Nat) :=
  [(0xc2, ⟨false, .word⟩, 3), (0xca, ⟨false, .word⟩, 3), (0xc8, ⟨false, .wordAndByte⟩, 5),
   (0xe8, ⟨false, .operand⟩, 4), (0xe9, ⟨false, .operand⟩, 4),
   (0x9a, ⟨false, .farPointer⟩, 6), (0xea, ⟨false, .farPointer⟩, 6),
   (0xf6, ⟨true, .testByte⟩, 7), (0xf7, ⟨true, .testOperand⟩, 7)]

def rowKnown (op : Byte) (form : OpcodeForm) : Bool :=
  if op ∈ irregularRows.map Prod.fst then (op, form, it op) ∈ irregularRows
  else (form, it op) ∈ regularRows

theorem rowKnown_all : ∀ op : Byte, (opcodeForm op).all (rowKnown op) = true := by
  decide +kernel

/-- Where the class of the opcode or `arg_len` does not give the length. -/
def Misjudged (op : Byte) (form : OpcodeForm) (operand32 addr32 : Bool) (modrm sib : Byte) : Prop :=
  (op ∈ [0xc2, 0xca, 0xc8] ∧ operand32 = true) ∨
  (op ∈ [0xe8, 0xe9, 0x9a, 0xea] ∧ operand32 ≠ addr32) ∨
  (op ∈ [0xf6, 0xf7] ∧ regField modrm ≤ 1) ∨
  (form.modrm = true ∧ sibDisplacement addr32 modrm sib = true)

/-- A row with ModRM: `k` bytes of immediate by the table, `n` by the map. -/
theorem modrmRow (addr32 : Bool) (modrm sib : Byte) {k n : Nat} (fewer : k ≤ n) :
    some (1 + argLen modrm addr32 + k) = some (1 + (modrmLength addr32 modrm sib + n)) ↔
      k = n ∧ sibDisplacement addr32 modrm sib = false := by
  rw [modrmLength_eq, Option.some.injEq]
  cases sibDisplacement addr32 modrm sib <;> simp <;> omega

instance (op : Byte) (form : OpcodeForm) (operand32 addr32 : Bool) (modrm sib : Byte) :
    Decidable (Misjudged op form operand32 addr32 modrm sib) :=
  inferInstanceAs (Decidable
    ((op ∈ [0xc2, 0xca, 0xc8] ∧ operand32 = true) ∨
      (op ∈ [0xe8, 0xe9, 0x9a, 0xea] ∧ operand32 ≠ addr32) ∨
      (op ∈ [0xf6, 0xf7] ∧ regField modrm ≤ 1) ∨
      (form.modrm = true ∧ sibDisplacement addr32 modrm sib = true)))

theorem classLen_regular {op : Byte} {form : OpcodeForm} {cls : Nat}
    (row : (form, cls) ∈ regularRows) (regular : op ∉ irregularRows.map Prod.fst)
    (operand32 addr32 : Bool) (modrm sib : Byte) :
    classLen cls modrm operand32 addr32 = some (1 + form.length operand32 addr32 modrm sib) ↔
      ¬ Misjudged op form operand32 addr32 modrm sib := by
  have positive := Nat.ne_of_gt (argLen_pos addr32 modrm)
  have plain := modrmRow addr32 modrm sib (Nat.le_refl 0)
  simp only [irregularRows, List.map_cons, List.map_nil, List.mem_cons, List.not_mem_nil, or_false,
    not_or] at regular
  simp only [regularRows, List.mem_cons, Prod.mk.injEq, List.not_mem_nil, or_false] at row
  simp only [Misjudged, List.mem_cons, List.not_mem_nil, or_false, regular, false_or, false_and]
  rcases row with ⟨rfl, rfl⟩ | ⟨rfl, rfl⟩ | ⟨rfl, rfl⟩ | ⟨rfl, rfl⟩ | ⟨rfl, rfl⟩ | ⟨rfl, rfl⟩ |
      ⟨rfl, rfl⟩
  · simp [classLen, OpcodeForm.length, Immediate.length]
  · simp [classLen, OpcodeForm.length, Immediate.length]
  · cases operand32 <;> simp [classLen, OpcodeForm.length, Immediate.length]
  · cases addr32 <;> simp [classLen, OpcodeForm.length, Immediate.length]
  · simp only [classLen, if_neg positive, OpcodeForm.length, Immediate.length, if_true]
    rw [← Nat.add_zero (1 + _), modrmRow _ _ _ (Nat.le_refl 0)]
    simp
  · simp only [classLen, if_neg positive, OpcodeForm.length, Immediate.length, if_true]
    rw [modrmRow _ _ _ (Nat.le_refl 1)]
    simp
  · simp only [classLen, if_neg positive, OpcodeForm.length, Immediate.length, if_true]
    rw [modrmRow _ _ _ (Nat.le_refl _)]
    simp

theorem classLen_irregular {op : Byte} {form : OpcodeForm} {cls : Nat}
    (row : (op, form, cls) ∈ irregularRows) (operand32 addr32 : Bool) (modrm sib : Byte) :
    classLen cls modrm operand32 addr32 = some (1 + form.length operand32 addr32 modrm sib) ↔
      ¬ Misjudged op form operand32 addr32 modrm sib := by
  have positive := Nat.ne_of_gt (argLen_pos addr32 modrm)
  simp only [irregularRows, List.mem_cons, Prod.mk.injEq, List.not_mem_nil, or_false] at row
  rcases row with ⟨rfl, rfl, rfl⟩ | ⟨rfl, rfl, rfl⟩ | ⟨rfl, rfl, rfl⟩ | ⟨rfl, rfl, rfl⟩ |
      ⟨rfl, rfl, rfl⟩ | ⟨rfl, rfl, rfl⟩ | ⟨rfl, rfl, rfl⟩ | ⟨rfl, rfl, rfl⟩ | ⟨rfl, rfl, rfl⟩
  -- without ModRM the sizes decide
  iterate 7
    · cases operand32 <;> cases addr32 <;>
        simp [Misjudged, classLen, OpcodeForm.length, Immediate.length]
  · simp only [Misjudged, classLen, if_neg positive, OpcodeForm.length, Immediate.length, if_true]
    rw [← Nat.add_zero (1 + argLen modrm addr32), modrmRow _ _ _ (Nat.zero_le _)]
    by_cases test : regField modrm ≤ 1 <;> simp
  · simp only [Misjudged, classLen, if_neg positive, OpcodeForm.length, Immediate.length, if_true]
    rw [← Nat.add_zero (1 + argLen modrm addr32), modrmRow _ _ _ (Nat.zero_le _)]
    by_cases test : regField modrm ≤ 1 <;> cases operand32 <;> simp

theorem classLen_eq_iff {op : Byte} {form : OpcodeForm} (defined : opcodeForm op = some form)
    (operand32 addr32 : Bool) (modrm sib : Byte) :
    classLen (it op) modrm operand32 addr32 = some (1 + form.length operand32 addr32 modrm sib) ↔
      ¬ Misjudged op form operand32 addr32 modrm sib := by
  have known := rowKnown_all op
  rw [defined, Option.all_some, rowKnown] at known
  split at known
  · exact classLen_irregular (of_decide_eq_true known) operand32 addr32 modrm sib
  next regular =>
    exact classLen_regular (of_decide_eq_true known) regular operand32 addr32 modrm sib

theorem it_modrm : ∀ op : Byte, (opcodeForm op).all (fun form => form.modrm || it op ≤ 6) = true := by
  decide +kernel

theorem classLen_modrm {op : Byte} {form : OpcodeForm} (defined : opcodeForm op = some form)
    (plain : form.modrm = false) (operand32 addr32 : Bool) (b c : Byte) :
    classLen (it op) b operand32 addr32 = classLen (it op) c operand32 addr32 := by
  have known := it_modrm op
  rw [defined, Option.all_some, plain, Bool.false_or, decide_eq_true_eq] at known
  generalize it op = cls at known ⊢
  match cls, known with
  | 0, _ | 1, _ | 2, _ | 3, _ | 4, _ | 5, _ | 6, _ => rfl

theorem classLen_operand {is32 : Bool} {instr : List Byte} (enc : Encoding is32 instr) {op : Byte}
    (one : enc.opcode = .oneByte op) (p : Nat → Byte) (begins : Begins p instr)
    (operand32 addr32 : Bool) :
    classLen (it op) (p (enc.prefixes.length + 1)) operand32 addr32 =
      classLen (it op) enc.modrm operand32 addr32 := by
  have defined := enc.defined
  rw [one] at defined
  by_cases plain : enc.form.modrm = false
  · exact classLen_modrm defined plain operand32 addr32 _ _
  · have complete := enc.complete
    have some : 0 < enc.operands.length := by
      rw [complete, OpcodeForm.length, if_pos (Bool.not_eq_false _ ▸ plain), modrmLength]
      omega
    rw [enc.split, one] at begins
    have modrm : p (enc.prefixes.length + 1) = enc.modrm := begins.right.right 0 some
    rw [modrm]

/-- `instr_len` of an instruction with at most one prefix of each size is its length, unless the
instruction is misjudged. -/
theorem instr_len_meets_iff {is32 : Bool} {instr : List Byte} (enc : Encoding is32 instr) {op : Byte}
    (one : enc.opcode = .oneByte op) (short : instr.length ≤ 15)
    (operandOnce : enc.prefixes.count 0x66 ≤ 1) (addressOnce : enc.prefixes.count 0x67 ≤ 1)
    (p : Nat → Byte) (begins : Begins p instr) :
    instrLen p (sizeBit is32) = instr.length ↔
      ¬ Misjudged op enc.form enc.operand32 enc.addr32 enc.modrm enc.sib := by
  have defined := enc.defined
  have length := enc.length_eq
  rw [one] at defined length
  rw [show (Opcode.oneByte op).bytes.length = 1 from rfl] at length
  rw [instrLen_oneByte enc one p begins (by omega), classLen_operand enc one p begins,
    countedSize_eq is32 operandOnce, countedSize_eq is32 addressOnce,
    ← classLen_eq_iff defined enc.operand32 enc.addr32 enc.modrm enc.sib, length]
  show (match classLen (it op) enc.modrm enc.operand32 enc.addr32 with
    | some n => enc.prefixes.length + n
    | none => 0) = _ ↔ _
  cases classLen (it op) enc.modrm enc.operand32 enc.addr32 with
  | none =>
    have positive : 0 ≠ enc.prefixes.length + 1 +
      enc.form.length enc.operand32 enc.addr32 enc.modrm enc.sib := by omega
    exact iff_of_false positive nofun
  | some n =>
    show enc.prefixes.length + n = _ ↔ _
    rw [Option.some.injEq]
    constructor <;> intro same <;> omega

/-- `mov dword [1234h], 1` in 16-bit code. -/
def movDword : Encoding false [0x66, 0xc7, 0x06, 0x34, 0x12, 0x01, 0x00, 0x00, 0x00] where
  prefixes := [0x66]
  opcode := .oneByte 0xc7
  operands := [0x06, 0x34, 0x12, 0x01, 0x00, 0x00, 0x00]
  form := ⟨true, .operand⟩
  split := rfl
  legacy := operandPrefix_legacy
  defined := by decide
  complete := by decide

theorem instr_len_meets_mov : instrLen (fun i =>
    [0x66, 0xc7, 0x06, 0x34, 0x12, 0x01, 0x00, 0x00, 0x00].getD i 0) (sizeBit false) = 9 :=
  (instr_len_meets_iff movDword rfl (by decide) (by decide) (by decide) _ (by decide)).mpr (by decide)

/-- `test al, 5`. -/
def testAl : Encoding false [0xf6, 0xc0, 0x05] where
  prefixes := []
  opcode := .oneByte 0xf6
  operands := [0xc0, 0x05]
  form := ⟨true, .testByte⟩
  split := rfl
  legacy := noPrefix_legacy
  defined := by decide
  complete := by decide

/-- The table takes F6h for an opcode without immediate. -/
theorem instr_len_misses_test : ¬ ∀ (is32 : Bool) (instr : List Byte) (enc : Encoding is32 instr)
    (op : Byte), enc.opcode = .oneByte op → instr.length ≤ 15 → enc.prefixes.count 0x66 ≤ 1 →
    enc.prefixes.count 0x67 ≤ 1 → ∀ p : Nat → Byte, Begins p instr →
    instrLen p (sizeBit is32) = instr.length := by
  intro always
  have wrong := always false _ testAl 0xf6 rfl (by decide) (by decide) (by decide)
    (fun i => [0xf6, 0xc0, 0x05].getD i 0) (by decide)
  revert wrong
  decide

end Pmdapi
