import Pmdapi.BumpHost
import Pmdapi.InstrPrefixes
import Pmdapi.MemopSwitch

/-!
`decode_memop` at a store: which stores it emulates, and when it leaves the processor's flags.
-/

namespace Pmdapi
open Bytes X86

/-! ## Prefixes of a store -/

theorem take_rep (x86 : X86Ins) (b : Byte) :
    (x86.take b).rep = .none ↔ b ≠ 0xf2 ∧ b ≠ 0xf3 ∧ x86.rep = .none := by
  by_cases handled : b ∈ handledPrefixes
  · simp only [handledPrefixes, List.mem_cons, List.not_mem_nil, or_false] at handled
    rcases handled with rfl | rfl | rfl | rfl | rfl | rfl | rfl | rfl | rfl | rfl <;>
      simp [X86Ins.take, X86Ins.handle]
  · rw [take_of_other x86 handled]
    have other : b ≠ 0xf2 ∧ b ≠ 0xf3 := by
      constructor <;> (rintro rfl; exact handled (by decide))
    exact ⟨fun none => ⟨other.1, other.2, none⟩, fun all => all.2.2⟩

theorem after_rep {prefixes : List Byte} : ∀ x86 : X86Ins,
    (x86.after prefixes).rep = .none ↔ 0xf2 ∉ prefixes ∧ 0xf3 ∉ prefixes ∧ x86.rep = .none := by
  induction prefixes with
  | nil =>
    intro x86
    simp [X86Ins.after]
  | cons b rest ih =>
    intro x86
    rw [X86Ins.after, List.foldl_cons]
    refine (ih (x86.take b)).trans ?_
    rw [take_rep, List.mem_cons, List.mem_cons, not_or, not_or, eq_comm (b := b), eq_comm (b := b)]
    constructor
    · rintro ⟨first, second, noF2, noF3, none⟩
      exact ⟨⟨noF2, first⟩, ⟨noF3, second⟩, none⟩
    · rintro ⟨⟨noF2, first⟩, ⟨noF3, second⟩, none⟩
      exact ⟨first, second, noF2, noF3, none⟩

def X86Ins.Unnamed (x86 : X86Ins) : Prop :=
  x86.es = false ∧ x86.fs = false ∧ x86.gs = false ∧ x86.cs = false ∧ x86.ss = false

section Segment

variable (base : Word → Dword) (scp : Sigcontext)

theorem segmentPrefix_some {b : Byte} {s : SegReg} (named : segmentPrefix b = some s) :
    (b, s) ∈ [(0x26, SegReg.es), (0x2e, .cs), (0x36, .ss), (0x3e, .ds), (0x64, .fs), (0x65, .gs)] := by
  have known : ∀ b : Byte, (segmentPrefix b).all (fun s => (b, s) ∈
      [(0x26, SegReg.es), (0x2e, .cs), (0x36, .ss), (0x3e, .ds), (0x64, .fs), (0x65, .gs)]) := by
    decide
  have here := known b
  rw [named] at here
  exact of_decide_eq_true here

theorem take_segments {x86 : X86Ins} {b : Byte} (other : segmentPrefix b = none) :
    (x86.take b).es = x86.es ∧ (x86.take b).fs = x86.fs ∧ (x86.take b).gs = x86.gs ∧
      (x86.take b).cs = x86.cs ∧ (x86.take b).ss = x86.ss := by
  by_cases handled : b ∈ handledPrefixes
  · simp only [handledPrefixes, List.mem_cons, List.not_mem_nil, or_false] at handled
    rcases handled with rfl | rfl | rfl | rfl | rfl | rfl | rfl | rfl | rfl | rfl <;>
      first | exact absurd other (by decide) | exact ⟨rfl, rfl, rfl, rfl, rfl⟩
  · rw [take_of_other x86 handled]
    exact ⟨rfl, rfl, rfl, rfl, rfl⟩

theorem segBase_unnamed {prefixes : List Byte} : ∀ x86 : X86Ins,
    (∀ b ∈ prefixes, segmentPrefix b = none) →
    segBase base scp (x86.after prefixes) = segBase base scp x86 := by
  induction prefixes with
  | nil => exact fun _ _ => rfl
  | cons b rest ih =>
    intro x86 none
    rw [X86Ins.after, List.foldl_cons]
    refine (ih (x86.take b) fun c inside => none c (List.mem_cons_of_mem b inside)).trans ?_
    obtain ⟨es, fs, gs, cs, ss⟩ := @take_segments x86 b (none b List.mem_cons_self)
    rw [segBase, segBase, es, fs, gs, cs, ss]

theorem override_unnamed {prefixes : List Byte} (found : Option SegReg)
    (none : ∀ b ∈ prefixes, segmentPrefix b = none) :
    prefixes.foldl (fun found b => (segmentPrefix b).or found) found = found := by
  induction prefixes with
  | nil => rfl
  | cons b rest ih =>
    rw [List.foldl_cons, none b List.mem_cons_self]
    exact ih fun c inside => none c (List.mem_cons_of_mem b inside)

theorem segBase_take {x86 : X86Ins} (unnamed : x86.Unnamed) {b : Byte} {s : SegReg}
    (named : segmentPrefix b = some s) :
    segBase base scp (x86.take b) = base (scp.context.seg s) := by
  obtain ⟨bit32, addressSize, operandSize, rep, ds, es, fs, gs, cs, ss⟩ := x86
  obtain ⟨rfl, rfl, rfl, rfl, rfl⟩ := unnamed
  have known := segmentPrefix_some named
  simp only [List.mem_cons, Prod.mk.injEq, List.not_mem_nil, or_false] at known
  rcases known with ⟨rfl, rfl⟩ | ⟨rfl, rfl⟩ | ⟨rfl, rfl⟩ | ⟨rfl, rfl⟩ | ⟨rfl, rfl⟩ | ⟨rfl, rfl⟩ <;> rfl

/-- With at most one segment prefix the code reads a string where the processor does. -/
theorem segBase_override {prefixes : List Byte} : ∀ x86 : X86Ins, x86.Unnamed →
    prefixes.countP (fun b => (segmentPrefix b).isSome) ≤ 1 →
    segBase base scp (x86.after prefixes) =
      base (scp.context.seg ((segmentOverride prefixes).getD .ds)) := by
  induction prefixes with
  | nil =>
    intro x86 unnamed _
    obtain ⟨es, fs, gs, cs, ss⟩ := unnamed
    simp only [X86Ins.after, List.foldl_nil, segBase, es, fs, gs, cs, ss, Bool.false_eq_true, if_false]
    rfl
  | cons b rest ih =>
    intro x86 unnamed once
    rw [List.countP_cons] at once
    rw [X86Ins.after, List.foldl_cons, segmentOverride, List.foldl_cons]
    cases named : segmentPrefix b with
    | none =>
      obtain ⟨es, fs, gs, cs, ss⟩ := @take_segments x86 b named
      obtain ⟨noEs, noFs, noGs, noCs, noSs⟩ := unnamed
      exact ih (x86.take b) ⟨es.trans noEs, fs.trans noFs, gs.trans noGs, cs.trans noCs, ss.trans noSs⟩
        (by omega)
    | some s =>
      have none : ∀ c ∈ rest, segmentPrefix c = none := by
        rw [named, Option.isSome_some, if_pos rfl] at once
        have zero : rest.countP (fun b => (segmentPrefix b).isSome) = 0 := by omega
        intro c inside
        simpa using List.countP_eq_zero.mp zero c inside
      rw [Option.some_or, override_unnamed (some s) none]
      exact (segBase_unnamed base scp (x86.take b) none).trans (segBase_take base scp unnamed named)

end Segment

/-! ## At an instruction -/

def Refused {is32 : Bool} {instr : List Byte} (enc : Encoding is32 instr) : Prop :=
  0xf0 ∈ enc.prefixes ∨ 0xf2 ∈ enc.prefixes ∨ 0xf3 ∈ enc.prefixes

section Store

variable {is32 : Bool} {instr : List Byte} (enc : Encoding is32 instr) (m : Memory) (base : Word → Dword)
  (scp : Sigcontext)

/-- The operands as `decode_memop` takes them: sizes by counting prefixes, the immediate where
`arg_len` points, the faulting address. -/
def codeOperands : StoreOperands where
  operand32 := lenSize is32 0x66 enc.prefixes
  register := regField enc.modrm
  immediate := readDword m (base scp.cs + scp.eip + BitVec.ofNat 32 (enc.prefixes.length + 1 +
    argLen enc.modrm (lenSize is32 0x67 enc.prefixes)))
  address := scp.cr2
  stringSource := segBase base scp (insOf enc) +
    if (insOf enc).addressSize = 2 then zext (scp.lword .esi) else scp.gpr .esi

variable {op : Byte} (one : enc.opcode = .oneByte op)
  (begins : Begins (codeAt m (base scp.cs + scp.eip)) instr) (short : instr.length ≤ 15)

include one begins short

/-- `instr_len` ends an immediate of `k` bytes `k` bytes behind where `arg_len` points. -/
theorem instrLen_immediate {k : Nat} (cls : classLen (it op) enc.modrm (lenSize is32 0x66 enc.prefixes)
      (lenSize is32 0x67 enc.prefixes) = some (1 + argLen enc.modrm (lenSize is32 0x67 enc.prefixes) + k)) :
    base scp.cs + scp.eip +
        BitVec.ofNat 32 (instrLen (codeAt m (base scp.cs + scp.eip)) (signedBit is32)) - BitVec.ofNat 32 k =
      base scp.cs + scp.eip + BitVec.ofNat 32 (enc.prefixes.length + 1 +
        argLen enc.modrm (lenSize is32 0x67 enc.prefixes)) := by
  have found := instrLen_signed enc one _ begins (prefixes_few enc short)
  rw [cls] at found
  rw [found]
  show _ + BitVec.ofNat 32 (enc.prefixes.length + (1 + _ + k)) - _ = _
  rw [show enc.prefixes.length + (1 + argLen enc.modrm (lenSize is32 0x67 enc.prefixes) + k) =
    enc.prefixes.length + 1 + argLen enc.modrm (lenSize is32 0x67 enc.prefixes) + k by omega,
    ← skip_skip, BitVec.add_sub_cancel]

theorem storeEnds {store : Store} (kind : StoreOpcode op enc.modrm store) :
    StoreEnds (codeOperands enc m base scp) m
      (base scp.cs + scp.eip +
        BitVec.ofNat 32 (instrLen (codeAt m (base scp.cs + scp.eip)) (signedBit is32)))
      store := by
  have positive := Nat.ne_of_gt (argLen_pos (lenSize is32 0x67 enc.prefixes) enc.modrm)
  have byte (class8 : it op = 8) := instrLen_immediate enc m base scp one begins short (k := 1) (by
    rw [class8, classLen, if_neg positive])
  have operand (class9 : it op = 9) := instrLen_immediate enc m base scp one begins short
    (k := operandBytes (lenSize is32 0x66 enc.prefixes)) (by
      rw [class9, classLen, if_neg positive]
      rfl)
  have aByte (class8 : it op = 8) : ((codeOperands enc m base scp).immediate).setWidth 8 =
      m (base scp.cs + scp.eip +
        BitVec.ofNat 32 (instrLen (codeAt m (base scp.cs + scp.eip)) (signedBit is32)) - 1) := by
    rw [show (1 : Dword) = BitVec.ofNat 32 1 from rfl, byte class8]
    exact readDword_byte m _
  cases kind with
  | groupByte opcode =>
    rcases opcode with rfl | rfl <;> exact (aByte rfl).trans (readDword_byte m _).symm
  | groupSigned opcode =>
    subst opcode
    exact aByte rfl
  | movImmediateByte opcode =>
    subst opcode
    exact (aByte rfl).trans (readDword_byte m _).symm
  | group opcode =>
    subst opcode
    exact congrArg (fun a => (readDword m a).setWidth _) (operand rfl).symm
  | movImmediate opcode =>
    subst opcode
    exact congrArg (fun a => (readDword m a).setWidth _) (operand rfl).symm
  | _ => trivial

omit begins short in
theorem storeOpcode_at {csp : Nat → Byte} (opcode : csp 0 = op)
    (modrm : enc.form.modrm = true → csp 1 = enc.modrm) {store : Store}
    (kind : StoreOpcode op enc.modrm store) : StoreOpcode (csp 0) (csp 1) store := by
  have defined := enc.defined
  rw [one] at defined
  rw [opcode]
  apply kind.modrm
  intro form known withModrm
  have form_eq : enc.form = form := Option.some.inj (defined.symm.trans known)
  exact modrm (by rw [form_eq, withModrm])

/-! ### Decoded or refused -/

variable {size32 : Word → Bool} (code : size32 scp.cs = is32) (prev : Dword)

include code

omit one in
theorem decodeMemop_refused (refused : Refused enc) :
    ∃ error, decodeMemop m base size32 scp prev = some ⟨0, prev, scp, some error⟩ := by
  rw [decodeMemop, code]
  simp only []
  by_cases rep : (x86HandlePrefixes (codeAt m (base scp.cs + scp.eip)) (signedBit is32)).2.rep = .none
  · have locked : 0xf0 ∈ enc.prefixes := by
      by_contra unlocked
      rw [handlePrefixes_unlocked enc begins short unlocked] at rep
      obtain ⟨noF2, noF3, -⟩ := (after_rep _).mp rep
      rcases refused with locked | repne | rep
      · exact unlocked locked
      · exact noF2 repne
      · exact noF3 rep
    have lock := handlePrefixes_locked enc begins short locked
    rw [← Nat.add_zero (x86HandlePrefixes _ _).1, ← codeAt_add, BitVec.add_assoc] at lock
    rw [if_neg (not_not_intro rep), memopSwitch, lock]
    exact ⟨_, rfl⟩
  · rw [if_pos rep]
    exact ⟨_, rfl⟩

/-- Without LOCK and REP `decode_memop` switches on the opcode. -/
theorem decodeMemop_switch (taken : ¬ Refused enc) :
    ∃ csp : Nat → Byte, csp 0 = op ∧ (enc.form.modrm = true → csp 1 = enc.modrm) ∧
      ∀ r, memopSwitch m base scp (insOf enc) csp (base scp.cs + scp.eip +
          BitVec.ofNat 32 (instrLen (codeAt m (base scp.cs + scp.eip)) (signedBit is32))) prev = some r →
        decodeMemop m base size32 scp prev =
          if r.1 = 0 then none
          else some ⟨r.1, r.2.1, { r.2.2 with
            eip := r.2.2.eip +
              BitVec.ofNat 32 (instrLen (codeAt m (base scp.cs + scp.eip)) (signedBit is32)) }, none⟩ := by
  obtain ⟨unlocked, once⟩ := not_or.mp taken
  have prefixes := handlePrefixes_unlocked enc begins short unlocked
  have rep : (insOf enc).rep = .none :=
    (after_rep _).mpr ⟨(not_or.mp once).1, (not_or.mp once).2, rfl⟩
  refine ⟨codeAt m (base scp.cs + (scp.eip + BitVec.ofNat 32 enc.prefixes.length)), ?_, ?_, ?_⟩
  · rw [← BitVec.add_assoc, codeAt_add]
    have first := opcode_byte enc begins (i := 0) (by rw [one]; exact Nat.one_pos)
    rwa [one] at first
  · intro withModrm
    have complete := enc.complete
    have some : 0 < enc.operands.length := by
      rw [complete, OpcodeForm.length, if_pos withModrm, modrmLength]
      omega
    rw [← BitVec.add_assoc, codeAt_add]
    have first := operand_byte enc begins some
    rwa [one] at first
  · intro r run
    rw [decodeMemop, code]
    simp only [prefixes, rep, run, ne_eq, not_true_eq_false, if_false]

/-- Without LOCK and REP a store is decoded; in 32-bit code only one of a byte from elsewhere than a
string. -/
theorem decodeMemop_store {store : Store} (kind : StoreOpcode op enc.modrm store)
    (taken : ¬ Refused enc) (narrow : store.width = .operand ∨ store = .movs .byte → is32 = false) :
    ∃ r, Decodes m base scp (insOf enc) (codeOperands enc m base scp) store r ∧
      decodeMemop m base size32 scp prev = some ⟨r.1, r.2.1,
        { r.2.2 with
          eip := scp.eip +
            BitVec.ofNat 32 (instrLen (codeAt m (base scp.cs + scp.eip)) (signedBit is32)) }, none⟩ := by
  have defined := enc.defined
  rw [one] at defined
  obtain ⟨csp, opcode, modrm, run⟩ := decodeMemop_switch enc m base scp one begins short code prev taken
  have here := storeOpcode_at enc one opcode modrm kind
  have sizes : store.width = .operand →
      (insOf enc).operandSize = sizeBytes (codeOperands enc m base scp).operand32 := by
    intro wide
    obtain rfl := narrow (.inl wide)
    exact insOf_operandSize enc
  have code16 : store = .pop → (insOf enc).bit32 = 0 := by
    rintro rfl
    obtain rfl := narrow (.inl rfl)
    exact insOf_bit32 enc
  have string : ∀ width, store = .movs width →
      ((insOf enc).addressSize = 2 ∨ (insOf enc).addressSize = 4) ∧
        (codeOperands enc m base scp).stringSource = segBase base scp (insOf enc) +
          if (insOf enc).addressSize = 2 then zext (scp.lword .esi) else scp.gpr .esi := by
    rintro width rfl
    have is16 : is32 = false := by
      cases width with
      | byte => exact narrow (.inr rfl)
      | operand => exact narrow (.inl rfl)
    subst is16
    refine ⟨?_, rfl⟩
    rw [insOf_addressSize]
    cases countedSize false 0x67 enc.prefixes
    · exact .inl rfl
    · exact .inr rfl
  obtain ⟨r, switched, decodes⟩ : SwitchDecodes m base scp _ _ csp _ prev store :=
    switch_store rfl sizes code16 string (opcode.symm ▸ defined)
      (fun withModrm => congrArg regField (modrm withModrm).symm) here
      (storeEnds enc m base scp one begins short kind)
  have nonzero : r.1 ≠ 0 := by
    rw [decodes.ret]
    cases store.width <;> cases (codeOperands enc m base scp).operand32 <;> decide
  refine ⟨r, decodes, ?_⟩
  rw [run r switched, if_neg nonzero, decodes.eip]

end Store

/-! ## Beside the processor -/

section Right

theorem dwordAt_word (bytes : List Byte) (i : Nat) : (dwordAt bytes i).setWidth 16 = wordAt bytes i :=
  BitVec.setWidth_append_eq_right

theorem dwordAt_byte (bytes : List Byte) (i : Nat) : (dwordAt bytes i).setWidth 8 = bytes.getD i 0 := by
  have word : (wordAt bytes i).setWidth 8 = bytes.getD i 0 := BitVec.setWidth_append_eq_right
  rw [← word, ← dwordAt_word, BitVec.setWidth_setWidth_of_le _ (by decide)]

variable {is32 : Bool} {instr : List Byte} (enc : Encoding is32 instr) (m : Memory) (base : Word → Dword)
  (scp : Sigcontext)

def processorOperands : StoreOperands := enc.storeOperands base scp.context scp.cr2

def SameSource (c : Context) (o : StoreOperands) (d : Dword) : Store → Prop
  | .alu _ width source | .mov width source =>
    c.source { o with immediate := d } width (width.bits o.operand32) source =
      c.source o width (width.bits o.operand32) source
  | _ => True

theorem sameSource_alu (c : Context) (o : StoreOperands) (d : Dword) (aop : AluOp) (width : Width) :
    SameSource c o d (.alu aop width .register) := rfl

theorem sameSource_mov (c : Context) (o : StoreOperands) (d : Dword) (width : Width) :
    SameSource c o d (.mov width .register) ∧ SameSource c o d (.mov width .accumulator) :=
  ⟨rfl, rfl⟩

theorem stored_operand32 (c : Context) (o : StoreOperands) {b : Bool} {store : Store}
    (same : store.width = .operand → o.operand32 = b) :
    (c.stored m base o store).setWidth 32 = (c.stored m base { o with operand32 := b } store).setWidth 32 := by
  have wide (operand : store.width = .operand) :
      (c.stored m base o store).setWidth 32 =
        (c.stored m base { o with operand32 := b } store).setWidth 32 := by
    rw [← same operand]
  cases store with
  | alu aop width source | mov width source =>
    cases width with
    | byte => cases source <;> rfl
    | operand => exact wide rfl
  | movs width | stos width =>
    cases width with
    | byte => rfl
    | operand => exact wide rfl
  | pop => exact wide rfl
  | inc | dec => rfl

theorem flagsAfter_operand32 (c : Context) (o : StoreOperands) {b : Bool} {store : Store}
    (same : store.width = .operand → o.operand32 = b) (after : Dword) :
    c.FlagsAfter m o store after ↔ c.FlagsAfter m { o with operand32 := b } store after := by
  cases store with
  | alu aop width source =>
    cases width with
    | byte => cases source <;> exact Iff.rfl
    | operand => rw [← same rfl]
  | _ => exact Iff.rfl

theorem stored_string (c : Context) (o : StoreOperands) {a : Dword} {store : Store}
    (same : ∀ width, store = .movs width → o.stringSource = a) :
    c.stored m base o store = c.stored m base { o with stringSource := a } store := by
  cases store with
  | movs width => rw [← same width rfl]
  | alu _ _ source | mov _ source => cases source <;> rfl
  | _ => rfl

theorem stored_immediate {c : Context} {o : StoreOperands} {d : Dword} {store : Store}
    (same : SameSource c o d store) :
    c.stored m base { o with immediate := d } store = c.stored m base o store := by
  cases store with
  | alu aop width source =>
    exact congrArg (fun b => (aop.run ((readDword m o.address).setWidth _) b _).value) same
  | mov width source => exact same
  | _ => rfl

theorem afterStore_immediate (c : Context) (o : StoreOperands) (d : Dword) (store : Store) :
    c.afterStore { o with immediate := d } store = c.afterStore o store := by
  cases store <;> rfl

theorem flagsAfter_immediate {c : Context} {o : StoreOperands} {d : Dword} {store : Store}
    (same : SameSource c o d store) (after : Dword) :
    c.FlagsAfter m { o with immediate := d } store after ↔ c.FlagsAfter m o store after := by
  cases store with
  | alu aop width source =>
    exact iff_of_eq (congrArg
      (fun b => (aop.run ((readDword m o.address).setWidth _) b _).Leaves c.eflags after) same)
  | _ => exact Iff.rfl

variable {op : Byte} (one : enc.opcode = .oneByte op)
  (begins : Begins (codeAt m (base scp.cs + scp.eip)) instr)

include one begins

theorem immediate_bits (located : argLen enc.modrm (lenSize is32 0x67 enc.prefixes) =
    modrmLength enc.addr32 enc.modrm enc.sib) {k : Nat} (known : k = 1 ∨ k = 2 ∨ k = 4)
    (inside : modrmLength enc.addr32 enc.modrm enc.sib + k ≤ enc.operands.length) :
    ((codeOperands enc m base scp).immediate).setWidth (8 * k) =
      (processorOperands enc base scp).immediate.setWidth (8 * k) := by
  have reads : ∀ i < enc.operands.length, codeAt m (base scp.cs + scp.eip) (enc.prefixes.length + 1 + i) =
      enc.operands.getD i 0 := by
    intro i hi
    have byte := operand_byte enc begins hi
    rwa [one] at byte
  show (readDword m _).setWidth _ = (dwordAt _ _).setWidth _
  rw [located]
  rcases known with rfl | rfl | rfl
  · show (readDword m _).setWidth 8 = (dwordAt _ _).setWidth 8
    rw [readDword_byte, dwordAt_byte, ← reads _ (by omega)]
    rfl
  · show (readDword m _).setWidth 16 = (dwordAt _ _).setWidth 16
    rw [readDword_word, dwordAt_word, readWord_bytes reads (by omega)]
  · rw [readDword_bytes reads (by omega)]

omit begins in
theorem form_eq {form : OpcodeForm} (known : opcodeForm op = some form) : enc.form = form := by
  have defined := enc.defined
  rw [one] at defined
  exact Option.some.inj (defined.symm.trans known)

theorem sameSource {store : Store} (kind : StoreOpcode op enc.modrm store)
    (located : store.immediate = true → AddressRight enc) :
    SameSource scp.context (processorOperands enc base scp) (codeOperands enc m base scp).immediate
      store := by
  have byteForm : ∀ op ∈ [0x80, 0x82, 0x83, 0xc6], opcodeForm op = some ⟨true, .byte⟩ := by decide
  have operandForm : ∀ op ∈ [0x81, 0xc7], opcodeForm op = some ⟨true, .operand⟩ := by decide
  have complete : enc.operands.length =
    enc.form.length enc.operand32 enc.addr32 enc.modrm enc.sib := enc.complete
  have byte (right : AddressRight enc) (form : enc.form = ⟨true, .byte⟩) :
      ((codeOperands enc m base scp).immediate).setWidth 8 =
        (processorOperands enc base scp).immediate.setWidth 8 := by
    rw [form] at complete
    have length : enc.operands.length = modrmLength enc.addr32 enc.modrm enc.sib + 1 := complete
    exact immediate_bits enc m base scp one begins ((addressRight_iff enc).mpr right) (Or.inl rfl) length.ge
  have operand (right : AddressRight enc) (form : enc.form = ⟨true, .operand⟩) :
      ((codeOperands enc m base scp).immediate).setWidth ((Width.operand).bits enc.operand32) =
        (processorOperands enc base scp).immediate.setWidth ((Width.operand).bits enc.operand32) := by
    rw [form] at complete
    have length : enc.operands.length = modrmLength enc.addr32 enc.modrm enc.sib +
      if enc.operand32 then 4 else 2 := complete
    have located := (addressRight_iff enc).mpr right
    generalize enc.operand32 = wide at length
    cases wide with
    | false => exact immediate_bits enc m base scp one begins located (Or.inr (Or.inl rfl)) length.ge
    | true => exact immediate_bits enc m base scp one begins located (Or.inr (Or.inr rfl)) length.ge
  cases kind with
  | groupByte opcode =>
    have known : opcodeForm op = some ⟨true, .byte⟩ := by
      rcases opcode with rfl | rfl
      · exact byteForm _ (by decide)
      · exact byteForm _ (by decide)
    exact byte (located rfl) (form_eq enc one known)
  | group opcode =>
    have known : opcodeForm op = some ⟨true, .operand⟩ := operandForm op (by simp [opcode])
    exact operand (located rfl) (form_eq enc one known)
  | groupSigned opcode =>
    have known : opcodeForm op = some ⟨true, .byte⟩ := byteForm op (by simp [opcode])
    exact congrArg (BitVec.signExtend _) (byte (located rfl) (form_eq enc one known))
  | movImmediateByte opcode =>
    have known : opcodeForm op = some ⟨true, .byte⟩ := byteForm op (by simp [opcode])
    exact byte (located rfl) (form_eq enc one known)
  | movImmediate opcode =>
    have known : opcodeForm op = some ⟨true, .operand⟩ := operandForm op (by simp [opcode])
    exact operand (located rfl) (form_eq enc one known)
  | aluByte _ | aluOperand _ => exact sameSource_alu _ _ _ _ _
  | movByte _ | movOperand _ => exact (sameSource_mov _ _ _ _).1
  | storeByte _ | storeOperand _ => exact (sameSource_mov _ _ _ _).2
  | pop _ | movsByte _ | movs _ | stosByte _ | stos _ | dec _ _ | inc _ _ => trivial

end Right

/-- No store is among the opcodes whose class is another's. -/
theorem storeOf_regular {op modrm : Byte} {store : Store} (kind : storeOf op modrm = some store) :
    op ∉ [0xc2, 0xca, 0xc8] ++ ([0xe8, 0xe9, 0x9a, 0xea] ++ [0xf6, 0xf7]) := by
  intro irregular
  have undefined : storeOf op modrm = none := by
    simp only [List.cons_append, List.nil_append, List.mem_cons, List.not_mem_nil, or_false] at irregular
    rcases irregular with rfl | rfl | rfl | rfl | rfl | rfl | rfl | rfl | rfl <;> rfl
  rw [undefined] at kind
  cases kind

section Emulation

variable {instr : List Byte} (enc : Encoding false instr) (m : Memory) (base : Word → Dword)
  (scp : Sigcontext) {size32 : Word → Bool} (prev : Dword)

/-- What `decode_memop` has to leave of a store: the operand width, the bytes to write, and the
registers behind the instruction. -/
structure StoreEmulated (o : StoreOperands) (store : Store) (length : Nat) (r : Memop) : Prop where
  decoded : r.error = none
  ret : r.ret = BitVec.ofNat 32 (store.width.bytes o.operand32)
  value : r.op.setWidth (store.width.bits o.operand32) = scp.context.stored m base o store
  gpr : r.scp.context.gpr = (scp.context.afterStore o store).gpr
  seg : r.scp.context.seg = scp.context.seg
  eip : r.scp.eip = scp.eip + BitVec.ofNat 32 length
  cr2 : r.scp.cr2 = scp.cr2

theorem addr16 (noAddress : 0x67 ∉ enc.prefixes) : enc.addr32 = false := by
  show (false ^^ decide (0x67 ∈ enc.prefixes)) = false
  rw [decide_eq_false noAddress]
  rfl

theorem instrLen_store {op : Byte} (one : enc.opcode = .oneByte op) {p : Nat → Byte}
    (begins : Begins p instr) (short : instr.length ≤ 15) {store : Store}
    (kind : storeOf op enc.modrm = some store) (operandOnce : enc.prefixes.count 0x66 ≤ 1)
    (noAddress : 0x67 ∉ enc.prefixes) : instrLen p 0 = instr.length := by
  have regular := storeOf_regular kind
  have defined := enc.defined
  have length := enc.length_eq
  rw [one] at defined length
  have right : ¬ Misjudged op enc.form enc.operand32 enc.addr32 enc.modrm enc.sib := by
    rw [Misjudged, addr16 enc noAddress]
    rintro (⟨word, -⟩ | ⟨call, -⟩ | ⟨test, -⟩ | ⟨-, sib⟩)
    · exact regular (List.mem_append_left _ word)
    · exact regular (List.mem_append_right _ (List.mem_append_left _ call))
    · exact regular (List.mem_append_right _ (List.mem_append_right _ test))
    · exact Bool.false_ne_true sib
  have found := instrLen_oneByte enc one p begins (prefixes_few enc short)
  rw [classLen_operand enc one p begins, countedSize_eq false operandOnce,
    countedSize_eq false (List.count_eq_zero_of_not_mem noAddress ▸ Nat.zero_le 1)] at found
  have cls := (classLen_eq_iff defined enc.operand32 enc.addr32 enc.modrm enc.sib).mpr right
  rw [Encoding.operand32, Encoding.addr32] at cls
  rw [cls] at found
  rw [length]
  show _ = _ + 1 + _
  rw [Nat.add_assoc]
  exact found

/-- With each size prefix and a segment named at most once, only the immediate is taken elsewhere. -/
theorem codeOperands_eq (noAddress : 0x67 ∉ enc.prefixes) (operandOnce : enc.prefixes.count 0x66 ≤ 1)
    (oneSegment : enc.prefixes.countP (fun b => (segmentPrefix b).isSome) ≤ 1) :
    codeOperands enc m base scp =
      { processorOperands enc base scp with immediate := (codeOperands enc m base scp).immediate } := by
  have size : lenSize false 0x66 enc.prefixes = enc.operand32 := countedSize_eq false operandOnce
  have string : segBase base scp (insOf enc) =
      base (scp.context.seg ((segmentOverride enc.prefixes).getD .ds)) :=
    segBase_override base scp _ ⟨rfl, rfl, rfl, rfl, rfl⟩ oneSegment
  have word : (insOf enc).addressSize = 2 := by
    rw [insOf_addressSize, countedSize, List.count_eq_zero_of_not_mem noAddress]
    rfl
  show StoreOperands.mk _ _ _ _ _ = StoreOperands.mk _ _ _ _ _
  rw [size, string, if_pos word]
  rfl

/-- A store of 16-bit code with 16-bit addresses, at most one operand size prefix and at most one
segment prefix is emulated. -/
theorem store_emulated {op : Byte} (one : enc.opcode = .oneByte op) {store : Store}
    (kind : storeOf op enc.modrm = some store) (short : instr.length ≤ 15)
    (begins : Begins (codeAt m (base scp.cs + scp.eip)) instr) (code16 : size32 scp.cs = false)
    (noAddress : 0x67 ∉ enc.prefixes) (operandOnce : enc.prefixes.count 0x66 ≤ 1)
    (oneSegment : enc.prefixes.countP (fun b => (segmentPrefix b).isSome) ≤ 1)
    (noOther : 0xf0 ∉ enc.prefixes ∧ 0xf2 ∉ enc.prefixes ∧ 0xf3 ∉ enc.prefixes) :
    ∃ r, decodeMemop m base size32 scp prev = some r ∧
      StoreEmulated m base scp (processorOperands enc base scp) store instr.length r := by
  have opcode := storeOf_opcode kind
  have address : lenSize false 0x67 enc.prefixes = false := by
    rw [lenSize, countedSize, List.count_eq_zero_of_not_mem noAddress]
    rfl
  have word : (insOf enc).addressSize = 2 := by
    rw [insOf_addressSize]
    exact congrArg sizeBytes address
  have located : AddressRight enc := by
    rw [AddressRight, address, addr16 enc noAddress]
    rfl
  have taken : ¬ Refused enc := not_or.mpr ⟨noOther.1, not_or.mpr noOther.2⟩
  obtain ⟨r, decodes, run⟩ := decodeMemop_store enc m base scp one begins short code16 prev opcode taken
    (fun _ => rfl)
  have same := sameSource enc m base scp one begins opcode (fun _ => located)
  rw [codeOperands_eq enc m base scp noAddress operandOnce oneSegment] at decodes
  have value := decodes.value.trans (stored_immediate m base same)
  have gpr := (decodes.gpr word).trans (congrArg Context.gpr (afterStore_immediate _ _ _ _))
  have length : instrLen (codeAt m (base scp.cs + scp.eip)) (signedBit false) = instr.length :=
    instrLen_store enc one begins short kind operandOnce noAddress
  refine ⟨_, run, rfl, decodes.ret, value, gpr, decodes.seg, ?_, decodes.cr2⟩
  rw [length]

@[irreducible] def storingClient (code : List Byte) : State Bump :=
  { bumpStart with
    mem := Bytes.store (Bytes.store (fun _ => 0) 0x200 [0xc8]) 0x100 code,
    scp := { bumpStart.scp with eip := 0x100, cr2 := 0x200, gpr := setGpr (fun _ => 0) .eax 0x40 } }

def addAl : Encoding false [0x00, 0x07] where
  prefixes := []
  opcode := .oneByte 0x00
  operands := [0x07]
  form := ⟨true, .none⟩
  split := rfl
  legacy := noPrefix_legacy
  defined := by decide
  complete := modrm_complete

theorem store_emulated_add : ∃ r,
    decodeMemop (storingClient [0x00, 0x07]).mem (fun _ => 0) (fun _ => false)
      (storingClient [0x00, 0x07]).scp 0 = some r ∧
    StoreEmulated (storingClient [0x00, 0x07]).mem (fun _ => 0) (storingClient [0x00, 0x07]).scp
      (processorOperands addAl (fun _ => 0) (storingClient [0x00, 0x07]).scp)
      (.alu .add .byte .register) 2 r :=
  store_emulated addAl _ _ _ 0 rfl rfl (by decide) (by decide +kernel) rfl (by decide) (by decide)
    (by decide) (by decide)

/-! ## Flags -/

/-- The code takes the operand size of a store and its immediate as the processor does. -/
structure SizesRight {is32 : Bool} {instr : List Byte} (enc : Encoding is32 instr) (store : Store) :
    Prop where
  operand : store.width = .operand → lenSize is32 0x66 enc.prefixes = enc.operand32
  immediate : store.immediate = true → AddressRight enc

/-- Where `decode_memop` leaves EFLAGS alone, at INC and DEC and at an ALU operation that it refuses, they
are already what the instruction leaves. -/
def FlagsStay (store : Store) : Prop :=
  match store with
  | .alu aop width source => Refused enc →
    (scp.context.aluResult m (processorOperands enc base scp) aop width source).Leaves scp.eflags scp.eflags
  | .inc => (increment (m scp.cr2)).Leaves scp.eflags scp.eflags
  | .dec => (decrement (m scp.cr2)).Leaves scp.eflags scp.eflags
  | _ => True

/-- With the sizes right, the flags that the code leaves of its operands are those of the processor's. -/
theorem flagsAfter_sizes {op : Byte} (one : enc.opcode = .oneByte op) {store : Store}
    (kind : storeOf op enc.modrm = some store) (begins : Begins (codeAt m (base scp.cs + scp.eip)) instr)
    (right : SizesRight enc store) (after : Dword) :
    scp.context.FlagsAfter m (codeOperands enc m base scp) store after ↔
      scp.context.FlagsAfter m (processorOperands enc base scp) store after := by
  have same := sameSource enc m base scp one begins (storeOf_opcode kind) right.immediate
  rw [flagsAfter_operand32 m scp.context _ right.operand, ← flagsAfter_immediate m same]
  cases store with
  | alu aop width source => cases source <;> exact Iff.rfl
  | _ => exact Iff.rfl

/-- Where an ALU operation is refused or taken with the right sizes, the flags of a store are right if and
only if those that the code leaves alone are. -/
theorem memop_flags_iff {op : Byte} (one : enc.opcode = .oneByte op) {store : Store}
    (kind : storeOf op enc.modrm = some store) (short : instr.length ≤ 15)
    (begins : Begins (codeAt m (base scp.cs + scp.eip)) instr) (code16 : size32 scp.cs = false)
    (sizes : ∀ aop width source, store = .alu aop width source → ¬ Refused enc → SizesRight enc store) :
    (∃ r, decodeMemop m base size32 scp prev = some r ∧
      scp.context.FlagsAfter m (processorOperands enc base scp) store r.scp.eflags) ↔
        FlagsStay enc m base scp store := by
  by_cases refused : Refused enc
  · obtain ⟨error, run⟩ := decodeMemop_refused enc m base scp begins short code16 prev refused
    simp only [run, Option.some.injEq, exists_eq_left']
    cases store with
    | alu aop width source => exact ⟨fun flags _ => flags, fun stay => stay refused⟩
    | inc | dec => exact Iff.rfl
    | _ => exact iff_of_true rfl trivial
  · obtain ⟨r, decodes, run⟩ := decodeMemop_store enc m base scp one begins short code16 prev
      (storeOf_opcode kind) refused (fun _ => rfl)
    have flags := decodes.flags
    simp only [run, Option.some.injEq, exists_eq_left']
    cases store with
    | alu aop width source =>
      have right := sizes aop width source rfl refused
      rw [if_neg (by simp)] at flags
      exact iff_of_true ((flagsAfter_sizes enc m base scp one kind begins right _).mp flags)
        (fun again => absurd again refused)
    | inc | dec =>
      have kept : r.2.2.eflags = scp.eflags := flags
      show (AluResult.Leaves _ scp.eflags r.2.2.eflags) ↔ _
      rw [kept]
      exact Iff.rfl
    | _ => exact iff_of_true flags trivial

/-- `add dword [bx], 12345678h` in 16-bit code. -/
def addDword : Encoding false [0x66, 0x81, 0x07, 0x78, 0x56, 0x34, 0x12] where
  prefixes := [0x66]
  opcode := .oneByte 0x81
  operands := [0x07, 0x78, 0x56, 0x34, 0x12]
  form := ⟨true, .operand⟩
  split := rfl
  legacy := operandPrefix_legacy
  defined := by decide
  complete := by decide

theorem addDword_sizes : SizesRight addDword (.alu .add .operand .immediate) := by
  refine ⟨fun _ => by decide, fun _ => ?_⟩
  rw [AddressRight, if_pos (by decide)]
  decide

theorem memop_flags_add : ∃ r,
    decodeMemop (storingClient [0x66, 0x81, 0x07, 0x78, 0x56, 0x34, 0x12]).mem (fun _ => 0) (fun _ => false)
      (storingClient [0x66, 0x81, 0x07, 0x78, 0x56, 0x34, 0x12]).scp 0 = some r ∧
    (storingClient [0x66, 0x81, 0x07, 0x78, 0x56, 0x34, 0x12]).scp.context.FlagsAfter
      (storingClient [0x66, 0x81, 0x07, 0x78, 0x56, 0x34, 0x12]).mem
      (processorOperands addDword (fun _ => 0) (storingClient [0x66, 0x81, 0x07, 0x78, 0x56, 0x34, 0x12]).scp)
      (.alu .add .operand .immediate) r.scp.eflags :=
  (memop_flags_iff addDword _ _ _ 0 rfl rfl (by decide) (by decide +kernel) rfl
    (fun _ _ _ _ _ => addDword_sizes)).mpr (fun refused => absurd refused (by unfold Refused; decide))

def incByte : Encoding false [0xfe, 0x07] where
  prefixes := []
  opcode := .oneByte 0xfe
  operands := [0x07]
  form := ⟨true, .none⟩
  split := rfl
  legacy := noPrefix_legacy
  defined := by decide
  complete := modrm_complete

/-- The increment of C8h is negative, and SF stays clear. -/
theorem memop_flags_inc : ¬ ∀ (instr : List Byte) (enc : Encoding false instr) (m : Memory)
    (base : Word → Dword) (scp : Sigcontext) (size32 : Word → Bool) (prev : Dword) (op : Byte)
    (store : Store), enc.opcode = .oneByte op → storeOf op enc.modrm = some store → instr.length ≤ 15 →
    Begins (codeAt m (base scp.cs + scp.eip)) instr → size32 scp.cs = false →
    ∃ r, decodeMemop m base size32 scp prev = some r ∧
      scp.context.FlagsAfter m (processorOperands enc base scp) store r.scp.eflags := by
  intro always
  obtain ⟨r, run, flags⟩ := always _ incByte (storingClient [0xfe, 0x07]).mem (fun _ => 0)
    (storingClient [0xfe, 0x07]).scp (fun _ => false) 0 0xfe .inc rfl rfl (by decide)
    (by decide +kernel) rfl
  have kept : ((decodeMemop (storingClient [0xfe, 0x07]).mem (fun _ => 0) (fun _ => false)
      (storingClient [0xfe, 0x07]).scp 0).map fun r => r.scp.eflags) =
        some (storingClient [0xfe, 0x07]).scp.eflags := by decide +kernel
  rw [run, Option.map_some, Option.some.injEq] at kept
  rw [kept] at flags
  have sign := flags.sign
  revert sign
  decide +kernel

end Emulation

end Pmdapi
