import Pmdapi.BumpHost
import Pmdapi.ClientContext

/-!
When `msdos_fault` emulates the faulting segment load. What `decode_segreg` does to the context is
put beside what the processor does, one kind of load at a time.
-/

namespace Pmdapi
open Bytes Effect X86

/-! ## The switch -/

section Switch

variable (m : Memory) (base : Word → Dword) (scp : Sigcontext) (x86 : X86Ins) {cs eip : Dword} (len : Nat)

theorem decodeSegregAt_lock (here : codeAt m (cs + eip) 0 = 0xf0) :
    (decodeSegregAt m base scp x86 cs eip len).1 = none := by
  simp [decodeSegregAt, here]

theorem decodeSegregAt_move (here : codeAt m (cs + eip) 0 = 0x8e) :
    decodeSegregAt m base scp x86 cs eip len =
      (some (sregIdx (codeAt m (cs + eip) 1 >>> 3)),
        { scp with eip := scp.eip + BitVec.ofNat 32 len }) := by
  simp [decodeSegregAt, here]

theorem decodeSegregAt_pop {op : Byte} (here : codeAt m (cs + eip) 0 = op)
    (opcode : op ∈ [0x07, 0x17, 0x1f]) :
    decodeSegregAt m base scp x86 cs eip len =
      (some (sregIdx (op >>> 3)), { (x86Pop m base scp x86).2 with eip := eip + 1 }) := by
  simp only [List.mem_cons, List.not_mem_nil, or_false] at opcode
  rcases opcode with rfl | rfl | rfl <;> simp [decodeSegregAt, here]

theorem decodeSegregAt_popFsGs {op : Byte} (here : codeAt m (cs + eip) 0 = 0x0f)
    (next : codeAt m (cs + eip) 1 = op) (opcode : op ∈ [0xa1, 0xa9]) :
    decodeSegregAt m base scp x86 cs eip len =
      (some (sregIdx (op >>> 3)), { (x86Pop m base scp x86).2 with eip := eip + 1 + 1 }) := by
  simp only [List.mem_cons, List.not_mem_nil, or_false] at opcode
  rcases opcode with rfl | rfl <;> simp [decodeSegregAt, here, next]

theorem decodeSegregAt_les (here : codeAt m (cs + eip) 0 = 0xc4) :
    decodeSegregAt m base scp x86 cs eip len =
      (some 0, { scp with eip := scp.eip + BitVec.ofNat 32 len }) := by
  simp [decodeSegregAt, here]

theorem decodeSegregAt_lds (here : codeAt m (cs + eip) 0 = 0xc5) :
    decodeSegregAt m base scp x86 cs eip len =
      (some 3, { scp with eip := scp.eip + BitVec.ofNat 32 len }) := by
  simp [decodeSegregAt, here]

theorem decodeSegregAt_pointer {op : Byte} {index : Nat} (here : codeAt m (cs + eip) 0 = 0x0f)
    (next : codeAt m (cs + eip) 1 = op) (opcode : (op, index) ∈ [(0xb2, 2), (0xb4, 4), (0xb5, 5)]) :
    decodeSegregAt m base scp x86 cs eip len =
      (some index, { scp with eip := scp.eip + BitVec.ofNat 32 len }) := by
  simp only [List.mem_cons, Prod.mk.injEq, List.not_mem_nil, or_false] at opcode
  rcases opcode with ⟨rfl, rfl⟩ | ⟨rfl, rfl⟩ | ⟨rfl, rfl⟩ <;> simp [decodeSegregAt, here, next]

theorem decodeSegregAt_jump (here : codeAt m (cs + eip) 0 = 0xea) :
    decodeSegregAt m base scp x86 cs eip len =
      (some 1, { scp with
        eip := if x86.operandSize = 4 then readDword m (cs + eip + 1)
          else zext (readWord m (cs + eip + 1)) }) := by
  simp [decodeSegregAt, here]

theorem decodeSegregAt_ret (here : codeAt m (cs + eip) 0 = 0xcb) :
    decodeSegregAt m base scp x86 cs eip len =
      (some 1, { (x86Pop m base (x86Pop m base scp x86).2 x86).2 with eip := (x86Pop m base scp x86).1 }) := by
  simp [decodeSegregAt, here]

theorem decodeSegregAt_retImm (here : codeAt m (cs + eip) 0 = 0xca) :
    decodeSegregAt m base scp x86 cs eip len =
      (some 1, { (x86Pop m base (x86Pop m base scp x86).2 x86).2 with
        esp := (x86Pop m base (x86Pop m base scp x86).2 x86).2.esp + zext (readWord m (cs + eip + 1)),
        eip := (x86Pop m base scp x86).1 }) := by
  simp [decodeSegregAt, here]

theorem decodeSegregAt_iret (here : codeAt m (cs + eip) 0 = 0xcf) :
    decodeSegregAt m base scp x86 cs eip len =
      (let flags := x86Pop m base (x86Pop m base (x86Pop m base scp x86).2 x86).2 x86
       (some 1, { flags.2 with eflags := getEflags flags.1, eip := (x86Pop m base scp x86).1 })) := by
  simp [decodeSegregAt, here]

end Switch

section Decoder

variable {instr : List Byte} (enc : Encoding false instr)

variable (m : Memory) (base : Word → Dword) (scp : Sigcontext)

def decodedLoad (len : Nat) : SegmentLoad → Sigcontext :=
  let size : Word := BitVec.ofNat 16 (operandBytes (counted32 enc))
  let tmpEip := scp.context.top m base (counted32 enc)
  fun
  | .move _ | .pointer _ => { scp with eip := scp.eip + BitVec.ofNat 32 len }
  | .pop _ => { scp.drop size with eip := scp.eip + BitVec.ofNat 32 instr.length }
  | .jump =>
    { scp with
      eip := if counted32 enc then dwordAt enc.operands 0 else zext (wordAt enc.operands 0) }
  | .ret releases =>
    let esp := (scp.drop (size + size)).esp
    { scp with
      esp := if releases then esp + zext (wordAt enc.operands 0) else esp,
      eip := tmpEip }
  | .iret =>
    { scp.drop (size + size + size) with
      eip := tmpEip,
      eflags := getEflags ((scp.drop (size + size)).context.top m base (counted32 enc)) }

variable (begins : Begins (codeAt m (base scp.cs + scp.eip)) instr) (short : instr.length ≤ 15)
  {size32 : Word → Bool} (code16 : size32 scp.cs = false)

include begins short code16

theorem decodeSegreg_unlocked (unlocked : 0xf0 ∉ enc.prefixes) :
    decodeSegreg m base size32 scp =
      decodeSegregAt m base scp (insOf enc) (base scp.cs)
        (scp.eip + BitVec.ofNat 32 enc.prefixes.length)
        (instrLen (codeAt m (base scp.cs + scp.eip)) 0) := by
  rw [decodeSegreg, code16]
  show decodeSegregAt _ _ _ (x86HandlePrefixes _ (signedBit false)).2 _ _ _ = _
  rw [handlePrefixes_unlocked enc begins short unlocked]
  rfl

theorem decodeSegreg_locked (locked : 0xf0 ∈ enc.prefixes) : (decodeSegreg m base size32 scp).1 = none := by
  have lock := handlePrefixes_locked enc begins short locked
  rw [← Nat.add_zero (x86HandlePrefixes _ _).1, ← codeAt_add, BitVec.add_assoc] at lock
  rw [decodeSegreg, code16]
  exact decodeSegregAt_lock m base scp _ _ lock

omit short code16

theorem opcode_at : ∀ i < enc.opcode.bytes.length,
    codeAt m (base scp.cs + (scp.eip + BitVec.ofNat 32 enc.prefixes.length)) i =
      enc.opcode.bytes.getD i 0 := by
  intro i inside
  rw [← BitVec.add_assoc, codeAt_add, opcode_byte enc begins inside]

theorem operand_at : ∀ i < enc.operands.length,
    codeAt m (base scp.cs + (scp.eip + BitVec.ofNat 32 enc.prefixes.length))
      (enc.opcode.bytes.length + i) = enc.operands.getD i 0 := by
  intro i inside
  rw [← BitVec.add_assoc, codeAt_add, ← Nat.add_assoc, operand_byte enc begins inside]

include short code16

theorem decodeSegreg_load (unlocked : 0xf0 ∉ enc.prefixes) {load : SegmentLoad}
    (kind : segmentLoad enc.opcode enc.modrm = some load) :
    decodeSegreg m base size32 scp =
      (some (segIndex load.target),
        decodedLoad enc m base scp (instrLen (codeAt m (base scp.cs + scp.eip)) 0) load) := by
  have size := insOf_operandSize enc
  have pop : ∀ scp' : Sigcontext, x86Pop m base scp' (insOf enc) =
      (scp'.context.top m base (counted32 enc),
        scp'.drop (BitVec.ofNat 16 (operandBytes (counted32 enc)))) :=
    fun scp' => x86Pop_eq m base scp' (insOf_bit32 enc) size
  have length := enc.load_length kind
  have complete := enc.load_operands kind
  rw [decodeSegreg_unlocked enc m base scp begins short code16 unlocked]
  generalize instrLen (codeAt m (base scp.cs + scp.eip)) 0 = len
  have opcode_bytes := opcode_at enc m base scp begins
  have operands := operand_at enc m base scp begins
  have past : ∀ k, scp.eip + BitVec.ofNat 32 enc.prefixes.length + BitVec.ofNat 32 k =
      scp.eip + BitVec.ofNat 32 (enc.prefixes.length + k) := skip_skip _ _
  generalize scp.eip + BitVec.ofNat 32 enc.prefixes.length = eip at opcode_bytes operands past ⊢
  rcases segmentLoad_some kind with ⟨opcode, r, number, rfl⟩ | known
  · rw [opcode] at opcode_bytes operands
    have modrm : codeAt m (base scp.cs + eip) 1 = enc.modrm :=
      operands 0 (by
        rw [complete]
        show 0 < modrmLength _ _ _ + 0
        rw [modrmLength]
        omega)
    have index := segIndex_ofNumber (regField enc.modrm)
    rw [number, Option.all_some, decide_eq_true_eq] at index
    rw [decodeSegregAt_move m base scp _ _ (opcode_bytes 0 Nat.one_pos), modrm, sregIdx_regField, ← index]
    rfl
  · simp only [segmentLoads, List.mem_cons, Prod.mk.injEq, List.not_mem_nil, or_false] at known
    rcases known with known | known | known | known | known | known | known | known | known | known |
      known | known | known | known
    -- pops
    iterate 3
      · obtain ⟨opcode, rfl⟩ := known
        rw [opcode] at length opcode_bytes
        have next : eip + 1 = scp.eip + BitVec.ofNat 32 instr.length := by
          rw [length]
          exact past 1
        rw [decodeSegregAt_pop m base scp _ _ (opcode_bytes 0 Nat.one_pos) (by decide), pop, next]
        rfl
    iterate 2
      · obtain ⟨opcode, rfl⟩ := known
        rw [opcode] at length opcode_bytes
        have next : eip + 1 + 1 = scp.eip + BitVec.ofNat 32 instr.length := by
          rw [length, BitVec.add_assoc]
          exact past 2
        rw [decodeSegregAt_popFsGs m base scp _ _ (opcode_bytes 0 Nat.two_pos)
          (opcode_bytes 1 Nat.one_lt_two) (by decide), pop, next]
        rfl
    -- pointers
    · obtain ⟨opcode, rfl⟩ := known
      rw [opcode] at opcode_bytes
      rw [decodeSegregAt_les m base scp _ _ (opcode_bytes 0 Nat.one_pos)]
      rfl
    · obtain ⟨opcode, rfl⟩ := known
      rw [opcode] at opcode_bytes
      rw [decodeSegregAt_lds m base scp _ _ (opcode_bytes 0 Nat.one_pos)]
      rfl
    iterate 3
      · obtain ⟨opcode, rfl⟩ := known
        rw [opcode] at opcode_bytes
        exact decodeSegregAt_pointer m base scp _ _ (opcode_bytes 0 Nat.two_pos)
          (opcode_bytes 1 Nat.one_lt_two) (by decide)
    -- transfers
    · obtain ⟨opcode, rfl⟩ := known
      rw [opcode] at opcode_bytes operands
      have four : 4 ≤ enc.operands.length := by
        rw [complete]
        show 4 ≤ 0 + if enc.operand32 then 6 else 4
        split <;> decide
      have word : readWord m (base scp.cs + eip + 1) = wordAt enc.operands 0 :=
        readWord_bytes operands (i := 0) (by omega)
      have dword : readDword m (base scp.cs + eip + 1) = dwordAt enc.operands 0 :=
        readDword_bytes operands (i := 0) four
      rw [decodeSegregAt_jump m base scp _ _ (opcode_bytes 0 Nat.one_pos), size, word, dword]
      rw [decodedLoad, counted32]
      cases countedSize false 0x66 enc.prefixes <;> rfl
    · obtain ⟨opcode, rfl⟩ := known
      rw [opcode] at opcode_bytes operands
      have two : enc.operands.length = 2 := complete
      have word : readWord m (base scp.cs + eip + 1) = wordAt enc.operands 0 :=
        readWord_bytes operands (i := 0) two.ge
      rw [decodeSegregAt_retImm m base scp _ _ (opcode_bytes 0 Nat.one_pos), pop, pop, drop_drop, word]
      rfl
    · obtain ⟨opcode, rfl⟩ := known
      rw [opcode] at opcode_bytes
      rw [decodeSegregAt_ret m base scp _ _ (opcode_bytes 0 Nat.one_pos), pop, pop, drop_drop]
      rfl
    · obtain ⟨opcode, rfl⟩ := known
      rw [opcode] at opcode_bytes
      rw [decodeSegregAt_iret m base scp _ _ (opcode_bytes 0 Nat.one_pos), pop, pop, pop, drop_drop,
        drop_drop]
      rfl

end Decoder

/-! ## Beside the processor -/

/-- All registers agree, but for the flags after IRET. -/
def Agrees (load : SegmentLoad) (got want : Context) : Prop :=
  got.gpr = want.gpr ∧ got.seg = want.seg ∧ got.eip = want.eip ∧
    (load ≠ .iret → got.eflags = want.eflags)

section Right

variable {instr : List Byte} (enc : Encoding false instr)

def LoadRight (m : Memory) (base : Word → Dword) (c : Context) : SegmentLoad → Prop
  | .move _ => AddressRight enc
  | .pop _ | .iret => counted32 enc = enc.operand32
  | .pointer _ =>
    (∃ op, enc.opcode = .oneByte op) ∧ AddressRight enc ∧
      c.gpr (regField enc.modrm) = enc.pointerOffset m base c
  | .jump => counted32 enc = enc.operand32 ∨ wordAt enc.operands 2 = 0
  | .ret releases => counted32 enc = enc.operand32 ∧
      (releases = true →
        (low (c.gpr 4) + (BitVec.ofNat 16 (operandBytes enc.operand32) +
          BitVec.ofNat 16 (operandBytes enc.operand32))).toNat +
            (wordAt enc.operands 0).toNat < 2 ^ 16)

/-! ### One kind at a time -/

theorem drop_gpr_iff (c : Context) (a b : Word) : (c.drop a).gpr = (c.drop b).gpr ↔ a = b := by
  constructor
  · intro same
    have low4 := congrArg low (congrFun same 4)
    rw [Context.drop, Context.drop, Context.withGpr, Context.withGpr] at low4
    simp only [if_true] at low4
    have sums : low (c.gpr 4) + a = low (c.gpr 4) + b :=
      (loWord_setLoWord (c.gpr 4) _).symm.trans (low4.trans (loWord_setLoWord (c.gpr 4) _))
    exact (BitVec.add_right_inj _).mp sums
  · rintro rfl
    rfl

theorem skip_iff (e : Dword) {a b : Nat} (ha : a < 2 ^ 32) (hb : b < 2 ^ 32) :
    e + BitVec.ofNat 32 a = e + BitVec.ofNat 32 b ↔ a = b := by
  constructor
  · intro same
    have values := congrArg BitVec.toNat ((BitVec.add_right_inj _).mp same)
    rwa [BitVec.toNat_ofNat, BitVec.toNat_ofNat, Nat.mod_eq_of_lt ha, Nat.mod_eq_of_lt hb] at values
  · rintro rfl
    rfl

/-- The two operand sizes never move SP alike. -/
theorem operandWord_inj : ∀ a b : Bool,
    BitVec.ofNat 16 (operandBytes a) = BitVec.ofNat 16 (operandBytes b) → a = b := by
  decide

theorem operandWord_two_inj : ∀ a b : Bool,
    BitVec.ofNat 16 (operandBytes a) + BitVec.ofNat 16 (operandBytes a) =
      BitVec.ofNat 16 (operandBytes b) + BitVec.ofNat 16 (operandBytes b) → a = b := by
  decide

theorem operandWord_three_inj : ∀ a b : Bool,
    BitVec.ofNat 16 (operandBytes a) + BitVec.ofNat 16 (operandBytes a) +
        BitVec.ofNat 16 (operandBytes a) =
      BitVec.ofNat 16 (operandBytes b) + BitVec.ofNat 16 (operandBytes b) +
        BitVec.ofNat 16 (operandBytes b) → a = b := by
  decide

theorem toNat_append (high low : Word) : (high ++ low : Dword).toNat = high.toNat * 2 ^ 16 + low.toNat := by
  rw [BitVec.toNat_append, ← Nat.shiftLeft_add_eq_or_of_lt low.isLt, Nat.shiftLeft_eq]

theorem setLow_inj (d : Dword) (w v : Word) : setLow d w = setLow d v ↔ w = v := by
  constructor
  · intro same
    exact (loWord_setLoWord d w).symm.trans ((congrArg loWord same).trans (loWord_setLoWord d v))
  · rintro rfl
    rfl

/-- Adding to ESP is adding to SP as long as SP does not wrap. -/
theorem setLow_add_iff (d : Dword) (w v imm : Word) :
    setLow d w + imm.setWidth 32 = setLow d v ↔ v = w + imm ∧ w.toNat + imm.toNat < 2 ^ 16 := by
  have wide := imm.isLt
  rw [← BitVec.toNat_inj, ← BitVec.toNat_inj, setLow, setLow, BitVec.toNat_add, toNat_append,
    toNat_append, BitVec.toNat_setWidth, BitVec.toNat_add]
  generalize (d.extractLsb' 16 16) = upper
  have hu := upper.isLt
  have hw := w.isLt
  have hv := v.isLt
  omega

theorem zext_append_iff (high low : Word) : low.setWidth 32 = (high ++ low : Dword) ↔ high = 0 := by
  have hl := low.isLt
  have hh := high.isLt
  rw [← BitVec.toNat_inj, ← BitVec.toNat_inj, toNat_append, BitVec.toNat_setWidth]
  show _ ↔ high.toNat = 0
  omega

variable (m : Memory) (base : Word → Dword) (scp : Sigcontext) (len : Nat) (desc : Word)

theorem pop_agrees_iff (t : SegReg) :
    Agrees (.pop t) ((decodedLoad enc m base scp len (.pop t)).context.withSeg t desc)
      (enc.load m base desc scp.context (.pop t)) ↔ counted32 enc = enc.operand32 := by
  have decoded : (decodedLoad enc m base scp len (.pop t)).context =
      (scp.context.drop (BitVec.ofNat 16 (operandBytes (counted32 enc)))).skip instr.length := by
    rw [← context_drop]
    rfl
  rw [decoded]
  constructor
  · intro agrees
    exact operandWord_inj _ _ ((drop_gpr_iff scp.context _ _).mp agrees.1)
  · intro right
    rw [right]
    exact ⟨rfl, rfl, rfl, fun _ => rfl⟩

theorem iret_agrees_iff :
    Agrees .iret ((decodedLoad enc m base scp len .iret).context.withSeg .cs desc)
      (enc.load m base desc scp.context .iret) ↔ counted32 enc = enc.operand32 := by
  have gpr : (decodedLoad enc m base scp len .iret).context.gpr =
      (scp.context.drop (BitVec.ofNat 16 (operandBytes (counted32 enc)) +
        BitVec.ofNat 16 (operandBytes (counted32 enc)) +
        BitVec.ofNat 16 (operandBytes (counted32 enc)))).gpr := by
    rw [← context_drop]
    rfl
  constructor
  · intro agrees
    exact operandWord_three_inj _ _ ((drop_gpr_iff scp.context _ _).mp (gpr.symm.trans agrees.1))
  · intro right
    refine ⟨?_, rfl, ?_, fun other => absurd rfl other⟩
    · show (decodedLoad enc m base scp len .iret).context.gpr = _
      rw [gpr, right]
      rfl
    · show scp.context.top m base (counted32 enc) = _
      rw [right]
      rfl

theorem jump_agrees_iff :
    Agrees .jump ((decodedLoad enc m base scp len .jump).context.withSeg .cs desc)
      (enc.load m base desc scp.context .jump) ↔
        counted32 enc = enc.operand32 ∨ wordAt enc.operands 2 = 0 := by
  have eip : Agrees .jump ((decodedLoad enc m base scp len .jump).context.withSeg .cs desc)
      (enc.load m base desc scp.context .jump) ↔
        (if counted32 enc then dwordAt enc.operands 0 else zext (wordAt enc.operands 0)) =
          enc.farOffset :=
    ⟨fun agrees => agrees.2.2.1, fun same => ⟨rfl, rfl, same, fun _ => rfl⟩⟩
  rw [eip, Encoding.farOffset]
  cases counted : counted32 enc with
  | true =>
    have wide : enc.operand32 = true := counted_operand counted
    simp [wide]
  | false =>
    cases wide : enc.operand32 with
    | true =>
      have upper := zext_append_iff (wordAt enc.operands 2) (wordAt enc.operands 0)
      simpa [zext, dwordAt] using upper
    | false => simp [zext]

theorem ret_agrees_esp (releases : Bool) :
    Agrees (.ret releases) ((decodedLoad enc m base scp len (.ret releases)).context.withSeg .cs desc)
      (enc.load m base desc scp.context (.ret releases)) ↔
        (decodedLoad enc m base scp len (.ret releases)).esp =
          (enc.load m base desc scp.context (.ret releases)).gpr 4 ∧
        scp.context.top m base (counted32 enc) = scp.context.top m base enc.operand32 := by
  constructor
  · intro agrees
    exact ⟨congrFun agrees.1 4, agrees.2.2.1⟩
  · rintro ⟨esp, eip⟩
    refine ⟨?_, rfl, eip, fun _ => rfl⟩
    funext r
    revert r
    apply forall_gpr
    case h4 => exact esp
    all_goals rfl

theorem ret_agrees_iff (releases : Bool) :
    Agrees (.ret releases) ((decodedLoad enc m base scp len (.ret releases)).context.withSeg .cs desc)
      (enc.load m base desc scp.context (.ret releases)) ↔
        LoadRight enc m base scp.context (.ret releases) := by
  rw [ret_agrees_esp, LoadRight]
  have two := operandWord_two_inj (counted32 enc) enc.operand32
  cases releases with
  | false =>
    have esp : (decodedLoad enc m base scp len (.ret false)).esp =
        (enc.load m base desc scp.context (.ret false)).gpr 4 ↔
          BitVec.ofNat 16 (operandBytes (counted32 enc)) + BitVec.ofNat 16 (operandBytes (counted32 enc)) =
            BitVec.ofNat 16 (operandBytes enc.operand32) + BitVec.ofNat 16 (operandBytes enc.operand32) :=
      (setLow_inj scp.esp _ _).trans ((BitVec.add_right_inj _).trans (by
        rw [if_neg Bool.false_ne_true, show (0 : Word) = 0#16 from rfl, BitVec.add_zero]))
    constructor
    · rintro ⟨same, -⟩
      exact ⟨two (esp.mp same), nofun⟩
    · rintro ⟨right, -⟩
      exact ⟨esp.mpr (by rw [right]), by rw [right]⟩
  | true =>
    have esp : (decodedLoad enc m base scp len (.ret true)).esp =
        (enc.load m base desc scp.context (.ret true)).gpr 4 ↔
          BitVec.ofNat 16 (operandBytes enc.operand32) + BitVec.ofNat 16 (operandBytes enc.operand32) =
            BitVec.ofNat 16 (operandBytes (counted32 enc)) +
              BitVec.ofNat 16 (operandBytes (counted32 enc)) ∧
          (low scp.esp + (BitVec.ofNat 16 (operandBytes (counted32 enc)) +
            BitVec.ofNat 16 (operandBytes (counted32 enc)))).toNat +
              (wordAt enc.operands 0).toNat < 2 ^ 16 :=
      (setLow_add_iff scp.esp _ _ (wordAt enc.operands 0)).trans (and_congr_left' (by
        rw [if_pos rfl, ← BitVec.add_assoc, BitVec.add_left_inj]
        exact BitVec.add_right_inj _))
    constructor
    · rintro ⟨same, -⟩
      obtain ⟨sizes, fits⟩ := esp.mp same
      have right := two sizes.symm
      refine ⟨right, fun _ => ?_⟩
      rw [right] at fits
      exact fits
    · rintro ⟨right, fits⟩
      refine ⟨esp.mpr ⟨by rw [right], ?_⟩, by rw [right]⟩
      rw [right]
      exact fits rfl

theorem skip_agrees_iff {op : Byte} (one : enc.opcode = .oneByte op) (class7 : it op = 7)
    (p : Nat → Byte) (begins : Begins p instr) (short : instr.length ≤ 15) {load : SegmentLoad}
    (kind : segmentLoad enc.opcode enc.modrm = some load) (modrm : load.form = ⟨true, .none⟩) (e : Dword) :
    e + BitVec.ofNat 32 (instrLen p 0) = e + BitVec.ofNat 32 instr.length ↔ AddressRight enc := by
  have few := prefixes_few enc short
  have length := enc.load_length kind
  have positive := argLen_pos (lenSize false 0x67 enc.prefixes) enc.modrm
  have len : instrLen p 0 =
      enc.prefixes.length + (1 + argLen enc.modrm (lenSize false 0x67 enc.prefixes)) := by
    have found := instrLen_signed enc one p begins few
    rw [class7, classLen, if_neg (Nat.ne_of_gt positive)] at found
    exact found
  rw [modrm, one] at length
  have total : instr.length = enc.prefixes.length + 1 + (modrmLength enc.addr32 enc.modrm enc.sib + 0) :=
    length
  have bound := argLen_le (lenSize false 0x67 enc.prefixes) enc.modrm
  rw [skip_iff e (by omega) (by omega), ← addressRight_iff, len, total]
  omega

theorem pointer_agrees (t : SegReg) :
    Agrees (.pointer t) ((decodedLoad enc m base scp len (.pointer t)).context.withSeg t desc)
      (enc.load m base desc scp.context (.pointer t)) ↔
        scp.eip + BitVec.ofNat 32 len = scp.eip + BitVec.ofNat 32 instr.length ∧
        scp.context.gpr (regField enc.modrm) = enc.pointerOffset m base scp.context := by
  constructor
  · intro agrees
    refine ⟨agrees.2.2.1, ?_⟩
    have register := congrFun agrees.1 (regField enc.modrm)
    exact register.trans (if_pos rfl)
  · rintro ⟨eip, register⟩
    refine ⟨?_, rfl, eip, fun _ => rfl⟩
    funext r
    show scp.context.gpr r = if r = regField enc.modrm then _ else scp.context.gpr r
    split
    next same => rw [same, register]
    next => rfl

variable {p : Nat → Byte} (begins : Begins p instr) (short : instr.length ≤ 15)

include begins short

theorem pointer_agrees_iff {t : SegReg} (kind : segmentLoad enc.opcode enc.modrm = some (.pointer t)) :
    Agrees (.pointer t) ((decodedLoad enc m base scp (instrLen p 0) (.pointer t)).context.withSeg t desc)
      (enc.load m base desc scp.context (.pointer t)) ↔ LoadRight enc m base scp.context (.pointer t) := by
  rw [pointer_agrees, LoadRight]
  cases opcode : enc.opcode with
  | oneByte op =>
    have class7 : it op = 7 := by
      rw [opcode] at kind
      rcases segmentLoad_some kind with ⟨-, r, -, other⟩ | known
      · cases other
      · simp only [segmentLoads, List.mem_cons, Prod.mk.injEq, List.not_mem_nil, or_false,
          Opcode.oneByte.injEq, reduceCtorEq, and_false, false_and, false_or] at known
        rcases known with ⟨rfl, -⟩ | ⟨rfl, -⟩ <;> rfl
    rw [skip_agrees_iff enc opcode class7 p begins short kind rfl]
    exact ⟨fun ⟨eip, register⟩ => ⟨⟨op, rfl⟩, eip, register⟩, fun ⟨_, eip, register⟩ => ⟨eip, register⟩⟩
  | twoByte op =>
    have length := enc.load_length kind
    rw [opcode] at length
    have some : 0 < instr.length := by
      rw [length, show (Opcode.twoByte op).bytes.length = 2 from rfl]
      omega
    rw [instrLen_twoByte enc begins short opcode 0, skip_iff _ (by omega) (by omega)]
    constructor
    · rintro ⟨none, -⟩
      omega
    · rintro ⟨⟨op', one⟩, -⟩
      cases one

/-- When a decoded load is what the processor does. -/
theorem decodedLoad_agrees_iff {load : SegmentLoad} (kind : segmentLoad enc.opcode enc.modrm = some load) :
    Agrees load ((decodedLoad enc m base scp (instrLen p 0) load).setSeg (segIndex load.target) desc).context
      (enc.load m base desc scp.context load) ↔ LoadRight enc m base scp.context load := by
  rw [context_setSeg]
  cases load with
  | move t =>
    have opcode : enc.opcode = .oneByte 0x8e := by
      rcases segmentLoad_some kind with ⟨opcode, -⟩ | known
      · exact opcode
      · simp [segmentLoads] at known
    have eip : Agrees (.move t)
        ((decodedLoad enc m base scp (instrLen p 0) (.move t)).context.withSeg t desc)
        (enc.load m base desc scp.context (.move t)) ↔
          scp.eip + BitVec.ofNat 32 (instrLen p 0) = scp.eip + BitVec.ofNat 32 instr.length :=
      ⟨fun agrees => agrees.2.2.1, fun same => ⟨rfl, rfl, same, fun _ => rfl⟩⟩
    exact eip.trans (skip_agrees_iff enc opcode rfl p begins short kind rfl scp.eip)
  | pop t => exact pop_agrees_iff enc m base scp _ desc t
  | pointer t => exact pointer_agrees_iff enc m base scp desc begins short kind
  | jump => exact jump_agrees_iff enc m base scp _ desc
  | ret releases => exact ret_agrees_iff enc m base scp _ desc releases
  | iret => exact iret_agrees_iff enc m base scp _ desc

end Right

/-! ## The fault -/

section Fault

variable {σ : Type} (h : DpmiHost σ) (err : Dword)

theorem replacement_keeps (segment : Word) : Moves (Keeps State.scp) (replacement h segment) := by
  unfold replacement
  refine Moves.ite (fun _ => ?_) fun _ => Moves.map fun _ => rfl
  unfold convertSegmentToDescriptorLim
  refine Moves.bind (moves_reads _) fun map => ?_
  split
  · exact moves_pure _
  · refine Moves.ite (fun _ => moves_pure _) fun _ => ?_
    refine Moves.bind (Moves.bind (fun _ => rfl) fun _ => moves_pure _) fun sel => ?_
    refine Moves.ite (fun _ => moves_pure _) fun _ => ?_
    refine Moves.bind (fun _ => rfl) fun _ => Moves.bind (fun _ => rfl) fun _ => ?_
    exact Moves.bind (fun _ => rfl) fun _ => Moves.bind (fun _ => rfl) fun _ => moves_pure _

theorem msdosFault_replaces (s : State σ) :
    (result (msdosFault h err) s = false ∧ final (msdosFault h err) s = s) ∨
    ∃ reg newSct, decodeSegreg s.mem (getSegmentBase h s) (dpmiMhpGetSelectorSize h s) s.scp =
        (some reg, newSct) ∧
      let desc := result (replacement h (loWord err &&& 0xfff8)) s
      let t := final (replacement h (loWord err &&& 0xfff8)) s
      result (msdosFault h err) s = decide (desc ≠ 0) ∧
        final (msdosFault h err) s = if desc = 0 then t else { t with scp := newSct.setSeg reg desc } := by
  rw [show result (msdosFault h err) s = decide (result (msdosSelFault h err) s = .handled) from rfl,
    show final (msdosFault h err) s = final (msdosSelFault h err) s from rfl, msdosSelFault]
  by_cases none : loWord err = 0
  · rw [if_pos none]
    exact Or.inl ⟨rfl, rfl⟩
  rw [if_neg none]
  by_cases unknown : loWord err &&& 0xfff8 ∉ fixableSegments
  · rw [if_pos unknown]
    exact Or.inl ⟨rfl, rfl⟩
  rw [if_neg unknown]
  cases decoded : decodeSegreg s.mem (getSegmentBase h s) (dpmiMhpGetSelectorSize h s) s.scp with
  | mk reg newSct =>
    simp only [result_bind, final_bind, result_reads, final_reads, id, decoded]
    cases reg with
    | none => exact Or.inl ⟨rfl, rfl⟩
    | some reg =>
      refine Or.inr ⟨reg, newSct, rfl, ?_⟩
      simp only [result_bind, final_bind, result_ite, final_ite]
      by_cases zero : result (replacement h (loWord err &&& 0xfff8)) s = 0
      · rw [if_pos zero, if_pos zero, if_pos zero]
        exact ⟨(decide_eq_false (not_not.mpr zero)).symm, rfl⟩
      · rw [if_neg zero, if_neg zero, if_neg zero]
        exact ⟨(decide_eq_true zero).symm, rfl⟩

/-- A fault either leaves the registers alone, or it gives the client the decoder's context with the
new selector in it. -/
theorem msdosFault_cases (s : State σ) :
    (result (msdosFault h err) s = false ∧ (final (msdosFault h err) s).scp = s.scp) ∨
    (result (msdosFault h err) s = true ∧
      ∃ reg newSct, decodeSegreg s.mem (getSegmentBase h s) (dpmiMhpGetSelectorSize h s) s.scp =
          (some reg, newSct) ∧
        (final (msdosFault h err) s).scp =
          newSct.setSeg reg (result (replacement h (loWord err &&& 0xfff8)) s)) := by
  rcases msdosFault_replaces h err s with ⟨refused, same⟩ | ⟨reg, newSct, decoded, answer, after⟩
  · exact Or.inl ⟨refused, congrArg State.scp same⟩
  · by_cases zero : result (replacement h (loWord err &&& 0xfff8)) s = 0
    · rw [if_pos zero] at after
      refine Or.inl ⟨answer.trans (decide_eq_false (not_not.mpr zero)), ?_⟩
      rw [after]
      exact replacement_keeps h (loWord err &&& 0xfff8) s
    · rw [if_neg zero] at after
      exact Or.inr ⟨answer.trans (decide_eq_true zero), reg, newSct, decoded, congrArg State.scp after⟩

/-- The client goes on as if the processor had executed the load with the new selector. -/
def Emulated {instr : List Byte} (enc : Encoding false instr) (load : SegmentLoad) (s : State σ) : Prop :=
  Agrees load (final (msdosFault h err) s).scp.context
      (enc.load s.mem (getSegmentBase h s) (result (replacement h (loWord err &&& 0xfff8)) s)
        s.scp.context load) ∧
    (final (msdosFault h err) s).scp.cr2 = s.scp.cr2

theorem decodedLoad_cr2 {instr : List Byte} (enc : Encoding false instr) (m : Memory)
    (base : Word → Dword) (scp : Sigcontext) (len : Nat) (load : SegmentLoad) :
    (decodedLoad enc m base scp len load).cr2 = scp.cr2 := by
  cases load <;> rfl

/-- A fault that is not handled changes no register. A handled one is emulated exactly for the loads
that the decoder gets right. -/
theorem segment_fault_emulated_iff (s : State σ) :
    (result (msdosFault h err) s = false → (final (msdosFault h err) s).scp = s.scp) ∧
    ∀ (instr : List Byte) (enc : Encoding false instr) (load : SegmentLoad),
      dpmiMhpGetSelectorSize h s s.scp.cs = false →
      Begins (codeAt s.mem (getSegmentBase h s s.scp.cs + s.scp.eip)) instr → instr.length ≤ 15 →
      segmentLoad enc.opcode enc.modrm = some load →
      result (msdosFault h err) s = true →
      (Emulated h err enc load s ↔ LoadRight enc s.mem (getSegmentBase h s) s.scp.context load) := by
  rcases msdosFault_cases h err s with ⟨failed, kept⟩ | ⟨handled, reg, newSct, decoded, scp⟩
  · refine ⟨fun _ => kept, ?_⟩
    intro instr enc load _ _ _ _ handled
    rw [failed] at handled
    cases handled
  refine ⟨fun failed => absurd (handled.symm.trans failed) nofun, ?_⟩
  intro instr enc load code16 begins short kind _
  have unlocked : 0xf0 ∉ enc.prefixes := by
    intro locked
    have refused := decodeSegreg_locked enc s.mem (getSegmentBase h s) s.scp begins short code16 locked
    rw [decoded] at refused
    cases refused
  rw [decodeSegreg_load enc s.mem (getSegmentBase h s) s.scp begins short code16 unlocked kind] at decoded
  obtain ⟨index, context⟩ := Prod.mk.inj decoded
  rw [← Option.some.inj index, ← context] at scp
  rw [Emulated, scp, decodedLoad_agrees_iff enc s.mem (getSegmentBase h s) s.scp _ begins short kind,
    setSeg_cr2, decodedLoad_cr2]
  exact and_iff_left rfl

/-- A client whose next instruction stands at 0:100h, with the pointer 40h:1234h at 0:200h. -/
@[irreducible] def faultingClient (code : List Byte) (bx : Dword) : State Bump :=
  { bumpStart with
    mem := store (store (fun _ => 0) 0x200 [0x34, 0x12, 0x40, 0x00]) 0x100 code,
    scp := { bumpStart.scp with eip := 0x100, gpr := setGpr (fun _ => 0) .ebx bx } }

def movDs : Encoding false [0x8e, 0xd8] where
  prefixes := []
  opcode := .oneByte 0x8e
  operands := [0xd8]
  form := ⟨true, .none⟩
  split := rfl
  legacy := noPrefix_legacy
  defined := by decide
  complete := by decide

theorem segment_fault_emulated_mov :
    Emulated bumpHost 0x40 movDs (.move .ds) (faultingClient [0x8e, 0xd8] 0) :=
  ((segment_fault_emulated_iff bumpHost 0x40 (faultingClient [0x8e, 0xd8] 0)).2 _ movDs (.move .ds)
    (by decide +kernel) (by decide +kernel) (by decide) (by decide) (by decide +kernel)).mpr rfl

def lesAx : Encoding false [0xc4, 0x07] where
  prefixes := []
  opcode := .oneByte 0xc4
  operands := [0x07]
  form := ⟨true, .none⟩
  split := rfl
  legacy := noPrefix_legacy
  defined := by decide
  complete := modrm_complete

/-- The decoder forgets the general register of LES. -/
theorem segment_fault_misses_les : ¬ ∀ (err : Dword) (s : State Bump) (instr : List Byte)
    (enc : Encoding false instr) (load : SegmentLoad),
    dpmiMhpGetSelectorSize bumpHost s s.scp.cs = false →
    Begins (codeAt s.mem (getSegmentBase bumpHost s s.scp.cs + s.scp.eip)) instr → instr.length ≤ 15 →
    segmentLoad enc.opcode enc.modrm = some load → result (msdosFault bumpHost err) s = true →
    Emulated bumpHost err enc load s := by
  intro always
  have emulated := always 0x40 (faultingClient [0xc4, 0x07] 0x200) _ lesAx (.pointer .es)
    (by decide +kernel) (by decide +kernel) (by decide) (by decide) (by decide +kernel)
  have ax := congrFun emulated.1.1 0
  exact absurd ax (by decide +kernel)

end Fault

end Pmdapi
