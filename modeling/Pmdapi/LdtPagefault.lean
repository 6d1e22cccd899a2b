import Pmdapi.LdtFault
import Pmdapi.MemopLaw

/-!
`msdos_ldt_pagefault`: what the faulting instruction writes, and when it reaches the shadow LDT.
-/

namespace Pmdapi
open Bytes Effect X86

def opBytes (op : Dword) : List Byte :=
  [op.extractLsb' 0 8, op.extractLsb' 8 8, op.extractLsb' 16 8, op.extractLsb' 24 8]

def inAlias (ldtAlias cr2 : Dword) : Bool :=
  ldtAlias.toNat ≤ cr2.toNat && cr2.toNat < ldtAlias.toNat + LDT_ENTRIES * 8

/-- `msdos_ldt_pagefault`, or `none` where the assertion of `decode_memop` fails. `op` is what its variable
holds at first, and `above` what stands above it on the stack. -/
def msdosLdtPagefault {σ : Type} (h : LdtHost σ) (m : Memory) (base : Word → Dword) (size32 : Word → Bool)
    (ldtAlias op : Dword) (above : List Byte) : LdtM σ (Option Bool) := do
  let scp ← reads LdtState.scp
  if inAlias ldtAlias scp.cr2 then
    match decodeMemop m base size32 scp op with
    | none => pure none
    | some r => do
      updates fun s => { s with scp := r.scp }
      if r.ret = 0 then pure (some false)
      else do
        directLdtWrite h (r.scp.cr2 - ldtAlias).toNat ((opBytes r.op ++ above).take r.ret.toNat)
        pure (some true)
  else pure (some false)

/-! ## What decoding makes of a store -/

section Decoding

variable {is32 : Bool} {instr : List Byte} (enc : Encoding is32 instr) (m : Memory) (base : Word → Dword)
  (scp : Sigcontext)

structure StoreAt (code : Byte) (store : Store) : Prop where
  one : enc.opcode = .oneByte code
  kind : storeOf code enc.modrm = some store
  short : instr.length ≤ 15
  begins : Begins (codeAt m (base scp.cs + scp.eip)) instr

/-- The stores that `decode_memop` takes: without LOCK and REP, and in 32-bit code those of a byte; besides
these MOV from a register and POP, with an odd number of operand size prefixes. -/
structure MemopAccepts (store : Store) : Prop where
  taken : ¬ Refused enc
  width : is32 = true → store.width = .byte ∨
    (store = .mov .operand .register ∨ store = .pop) ∧ enc.prefixes.count 0x66 % 2 = 1

def namedSegment (prefixes : List Byte) : SegReg :=
  if 0x26 ∈ prefixes then .es
  else if 0x64 ∈ prefixes then .fs
  else if 0x65 ∈ prefixes then .gs
  else if 0x2e ∈ prefixes then .cs
  else if 0x36 ∈ prefixes then .ss
  else .ds

/-- Where the code takes a store as the processor does: the sizes by the prefixes, a string's source by
the address size and the last segment prefix, and the top of the stack by the width of the stack. In
32-bit code it loads no strings and pops from offset 0. -/
structure WriteRight (stack32 : Bool) (store : Store) : Prop where
  sizes : is32 = false ∨ store.width = .byte → SizesRight enc store
  string : ∀ width, store = .movs width → is32 = false ∧
    lenSize is32 0x67 enc.prefixes = enc.addr32 ∧
      namedSegment enc.prefixes = (segmentOverride enc.prefixes).getD .ds
  stack : store = .pop → is32 = false ∧ (stack32 = false ∨ scp.esp.toNat < 2 ^ 16)

/-! ### Segments -/

theorem take_named (x86 : X86Ins) (b : Byte) :
    (x86.take b).es = (x86.es || decide (b = 0x26)) ∧ (x86.take b).fs = (x86.fs || decide (b = 0x64)) ∧
      (x86.take b).gs = (x86.gs || decide (b = 0x65)) ∧ (x86.take b).cs = (x86.cs || decide (b = 0x2e)) ∧
      (x86.take b).ss = (x86.ss || decide (b = 0x36)) := by
  by_cases handled : b ∈ handledPrefixes
  · simp only [handledPrefixes, List.mem_cons, List.not_mem_nil, or_false] at handled
    rcases handled with rfl | rfl | rfl | rfl | rfl | rfl | rfl | rfl | rfl | rfl <;>
      simp [X86Ins.take, X86Ins.handle]
  · rw [take_of_other x86 handled]
    have other (c : Byte) (known : c ∈ handledPrefixes) : decide (b = c) = false :=
      decide_eq_false fun same => handled (same ▸ known)
    rw [other 0x26 (by decide), other 0x64 (by decide), other 0x65 (by decide), other 0x2e (by decide),
      other 0x36 (by decide)]
    simp only [Bool.or_false, and_self]

theorem after_named {prefixes : List Byte} : ∀ x86 : X86Ins,
    (x86.after prefixes).es = (x86.es || decide (0x26 ∈ prefixes)) ∧
      (x86.after prefixes).fs = (x86.fs || decide (0x64 ∈ prefixes)) ∧
      (x86.after prefixes).gs = (x86.gs || decide (0x65 ∈ prefixes)) ∧
      (x86.after prefixes).cs = (x86.cs || decide (0x2e ∈ prefixes)) ∧
      (x86.after prefixes).ss = (x86.ss || decide (0x36 ∈ prefixes)) := by
  induction prefixes with
  | nil =>
    intro x86
    simp [X86Ins.after]
  | cons b rest ih =>
    intro x86
    obtain ⟨es, fs, gs, cs, ss⟩ := take_named x86 b
    obtain ⟨es', fs', gs', cs', ss'⟩ := ih (x86.take b)
    rw [X86Ins.after, List.foldl_cons]
    rw [X86Ins.after] at es' fs' gs' cs' ss'
    rw [es', fs', gs', cs', ss', es, fs, gs, cs, ss]
    simp only [List.mem_cons, Bool.decide_or, Bool.or_assoc, eq_comm (a := b), and_self]

theorem segBase_named (bit32 : Dword) (prefixes : List Byte) :
    segBase base scp ((X86Ins.start bit32).after prefixes) =
      base (scp.context.seg (namedSegment prefixes)) := by
  obtain ⟨es, fs, gs, cs, ss⟩ := @after_named prefixes (X86Ins.start bit32)
  have unnamed : (X86Ins.start bit32).es = false ∧ (X86Ins.start bit32).fs = false ∧
      (X86Ins.start bit32).gs = false ∧ (X86Ins.start bit32).cs = false ∧ (X86Ins.start bit32).ss = false :=
    ⟨rfl, rfl, rfl, rfl, rfl⟩
  simp only [segBase, es, fs, gs, cs, ss, unnamed, Bool.false_or, decide_eq_true_eq, namedSegment]
  split_ifs <;> rfl

/-! ### The bytes -/

variable {size32 : Word → Bool}

theorem opBytes_take (op : Dword) {n : Nat} (few : n ≤ 4) (above : List Byte) :
    (opBytes op ++ above).take n = bytesOf op n := by
  have four : (opBytes op).length = 4 := rfl
  rw [List.take_append_of_le_length (by omega)]
  obtain rfl | rfl | rfl | rfl | rfl : n = 0 ∨ n = 1 ∨ n = 2 ∨ n = 3 ∨ n = 4 := by omega
  · rfl
  · rfl
  · rfl
  · rfl
  · rfl

theorem bytesOf_front (op : Dword) {n k : Nat} (few : n ≤ 4) (more : n ≤ k) (above : List Byte) :
    bytesOf op n <+: (opBytes op ++ above).take k := by
  rw [← opBytes_take op few above, ← Nat.min_eq_left more, ← List.take_take]
  exact List.take_prefix _ _

/-- A store that pops does so from the top of the stack, and others have no stack. -/
theorem storedSized_eq (c : Context) (o : StoreOperands) {stack32 : Bool} {store : Store}
    (stack : store = .pop → stack32 = false ∨ (c.gpr 4).toNat < 2 ^ 16) :
    c.storedSized m base stack32 o store = c.stored m base o store := by
  cases store with
  | pop =>
    have top : (if stack32 then c.gpr 4 else (low (c.gpr 4)).setWidth 32) = (low (c.gpr 4)).setWidth 32 := by
      split
      next wide =>
        rcases stack rfl with narrow | small
        · exact absurd (narrow.symm.trans wide) (by decide)
        · apply BitVec.eq_of_toNat_eq
          rw [low, BitVec.toNat_setWidth, BitVec.toNat_setWidth]
          omega
      next => rfl
    show (readOperand m (_ + _) _).setWidth _ = _
    rw [top]
    rfl
  | _ => rfl

theorem stored_right {code : Byte} {store : Store} (here : StoreAt enc m base scp code store)
    {stack32 : Bool} (right : WriteRight enc scp stack32 store) (sizes : SizesRight enc store) :
    (scp.context.stored m base (codeOperands enc m base scp) store).setWidth 32 =
      (scp.context.storedSized m base stack32 (enc.sizedOperands base scp.context scp.cr2) store).setWidth 32 := by
  have same : SameSource scp.context (enc.sizedOperands base scp.context scp.cr2)
      (codeOperands enc m base scp).immediate store := by
    have known := sameSource enc m base scp here.one here.begins (storeOf_opcode here.kind) sizes.immediate
    cases store with
    | alu _ _ source | mov _ source => cases source <;> exact known
    | _ => trivial
  have string : ∀ width, store = .movs width → (codeOperands enc m base scp).stringSource =
      (enc.sizedOperands base scp.context scp.cr2).stringSource := by
    intro width moves
    obtain ⟨narrow, address, segment⟩ := right.string width moves
    subst narrow
    have size : (insOf enc).addressSize = sizeBytes enc.addr32 := by
      rw [insOf_addressSize]
      exact congrArg sizeBytes address
    show segBase base scp (insOf enc) + _ = base _ + _
    rw [insOf, segBase_named, segment, ← insOf, size]
    cases enc.addr32 <;> rfl
  rw [stored_operand32 m base scp.context _ sizes.operand,
    stored_string m base scp.context { codeOperands enc m base scp with operand32 := enc.operand32 } string,
    storedSized_eq m base _ _ fun pops => (right.stack pops).2, ← stored_immediate m base same]
  rfl

/-! ### Operands of neither size -/

theorem memopSwitch_neither {x86 : X86Ins} {csp : Nat → Byte} {past prev : Dword} {store : Store}
    (kind : StoreOpcode (csp 0) (csp 1) store) (operand : store.width = .operand)
    (other : ¬ (store = .mov .operand .register ∨ store = .pop)) (word : x86.operandSize ≠ 2)
    (dword : x86.operandSize ≠ 4) :
    memopSwitch m base scp x86 csp past prev = some (0, prev, scp) := by
  have bySize (a b : Dword) : bySize x86 prev a b = (0, prev) := by
    rw [Pmdapi.bySize, if_neg word, if_neg dword]
  have binaryBySize (code : Byte) (a b : Dword) :
      binaryBySize m scp x86 prev code a b = (0, prev, scp.eflags) := by
    rw [Pmdapi.binaryBySize, if_neg word, if_neg dword]
  have plain {r : Dword × Dword} (same : r = (0, prev)) : some (r.1, r.2, scp) = some (0, prev, scp) := by
    rw [same]
  have flagged {r : Dword × Dword × Dword} (same : r = (0, prev, scp.eflags)) :
      some (r.1, r.2.1, { scp with eflags := r.2.2 }) = some (0, prev, scp) := by
    rw [same]
  cases kind with
  | aluOperand opcode =>
    simp only [List.mem_cons, List.not_mem_nil, or_false] at opcode
    rcases opcode with here | here | here | here | here | here | here <;>
      · rw [memopSwitch, here]
        exact flagged (binaryBySize _ _ _)
  | group here | groupSigned here =>
    rw [memopSwitch, here]
    exact flagged (binaryBySize _ _ _)
  | storeOperand here | movImmediate here =>
    rw [memopSwitch, here]
    exact plain (bySize _ _)
  | movs here | stos here =>
    rw [memopSwitch, here]
    exact (if_neg word).trans (if_neg dword)
  | movOperand _ => exact absurd (.inl rfl) other
  | pop _ => exact absurd (.inr rfl) other
  | _ => cases operand

theorem memopSwitch_sized {x86 : X86Ins} {csp : Nat → Byte} {past prev : Dword} {store : Store}
    (kind : StoreOpcode (csp 0) (csp 1) store) (sized : store = .mov .operand .register ∨ store = .pop) :
    ∃ r, memopSwitch m base scp x86 csp past prev = some r ∧ r.1 = x86.operandSize ∧
      (store = .mov .operand .register → r.2.1 = scp.numbered (regField (csp 1))) := by
  cases kind with
  | movOperand here =>
    refine ⟨(x86.operandSize, reg scp (csp 1 >>> 3), scp), ?_, rfl, fun _ => reg_numbered scp (csp 1)⟩
    rw [memopSwitch, here]
    rfl
  | pop here =>
    refine ⟨(x86.operandSize, x86Pop m base scp x86), ?_, rfl, by simp⟩
    rw [memopSwitch, here]
    rfl
  | _ => simp at sized

/-! ### Taken or not -/

section Taken

variable {code : Byte} {store : Store} (here : StoreAt enc m base scp code store)
  (size : size32 scp.cs = is32) (prev : Dword)

include here size

/-- An operand of 32-bit code has neither size. -/
theorem decodeMemop_wide (taken : ¬ Refused enc) (wide : is32 = true) (operand : store.width = .operand) :
    if (store = .mov .operand .register ∨ store = .pop) ∧ enc.prefixes.count 0x66 % 2 = 1 then
      ∃ r, decodeMemop m base size32 scp prev = some r ∧ r.ret = 6 ∧
        (store = .mov .operand .register → r.op = scp.numbered (regField enc.modrm))
    else decodeMemop m base size32 scp prev = none := by
  obtain ⟨csp, opcode, modrm, run⟩ :=
    decodeMemop_switch enc m base scp here.one here.begins here.short size prev taken
  have kind := storeOpcode_at enc here.one opcode modrm (storeOf_opcode here.kind)
  subst wide
  have neither := insOf_operandSize_wide enc
  by_cases sized : store = .mov .operand .register ∨ store = .pop
  · obtain ⟨r, switched, length, value⟩ := memopSwitch_sized m base scp kind sized
    have decodes := run r switched
    rw [length, neither] at decodes
    by_cases odd : enc.prefixes.count 0x66 % 2 = 1
    · rw [if_pos odd, if_neg (by decide)] at decodes
      rw [if_pos ⟨sized, odd⟩]
      refine ⟨_, decodes, rfl, ?_⟩
      rintro rfl
      have withModrm : enc.form.modrm = true := by
        have opcodeIs : code = 0x89 := by
          cases storeOf_opcode here.kind
          assumption
        have form : enc.form = ⟨true, .none⟩ := form_eq enc here.one (by rw [opcodeIs]; decide)
        rw [form]
      rw [← modrm withModrm]
      exact value rfl
    · rw [if_neg odd, if_pos rfl] at decodes
      rw [if_neg fun both => odd both.2]
      exact decodes
  · have word : (insOf enc).operandSize ≠ 2 := by
      rw [neither]
      split <;> decide
    have dword : (insOf enc).operandSize ≠ 4 := by
      rw [neither]
      split <;> decide
    have switched := run _ (memopSwitch_neither m base scp kind operand sized word dword)
    rw [if_neg fun both => sized both.1, switched, if_pos rfl]

/-- What is not accepted returns 0, or not at all. -/
theorem decodeMemop_turned (turned : ¬ MemopAccepts enc store) :
    decodeMemop m base size32 scp prev = none ∨ ∃ r, decodeMemop m base size32 scp prev = some r ∧ r.ret = 0 := by
  by_cases refused : Refused enc
  · obtain ⟨error, run⟩ :=
      decodeMemop_refused enc m base scp here.begins here.short size prev refused
    exact .inr ⟨_, run, rfl⟩
  · have wide : is32 = true := by
      by_contra narrow
      exact turned ⟨refused, fun is => absurd is narrow⟩
    have operand : store.width = .operand := by
      cases width : store.width with
      | operand => rfl
      | byte => exact absurd ⟨refused, fun _ => .inl width⟩ turned
    have decodes := decodeMemop_wide enc m base scp here size prev refused wide operand
    rw [if_neg fun both => turned ⟨refused, fun _ => .inr both⟩] at decodes
    exact .inl decodes

theorem decodeMemop_right {stack32 : Bool} (taken : ¬ Refused enc) (right : WriteRight enc scp stack32 store)
    (narrow : is32 = false ∨ store.width = .byte) :
    ∃ r, decodeMemop m base size32 scp prev = some r ∧ r.ret ≠ 0 ∧ ∀ above : List Byte,
      enc.written m base stack32 scp.context scp.cr2 store <+: (opBytes r.op ++ above).take r.ret.toNat := by
  have sizes := right.sizes narrow
  have is16 : store.width = .operand ∨ store = .movs .byte → is32 = false := by
    rintro (operand | moves)
    · rcases narrow with is16 | byte
      · exact is16
      · exact absurd (operand.symm.trans byte) (by decide)
    · exact (right.string _ moves).1
  obtain ⟨r, decodes, run⟩ := decodeMemop_store enc m base scp here.one here.begins here.short size prev
    (storeOf_opcode here.kind) taken is16
  have bytes : store.width.bytes (lenSize is32 0x66 enc.prefixes) = store.width.bytes enc.operand32 := by
    cases width : store.width with
    | byte => rfl
    | operand => rw [sizes.operand width]
  have few := store.width.bytes_le (lenSize is32 0x66 enc.prefixes)
  have ret : r.1.toNat = store.width.bytes (lenSize is32 0x66 enc.prefixes) := by
    rw [decodes.ret, BitVec.toNat_ofNat]
    exact Nat.mod_eq_of_lt (Nat.lt_of_le_of_lt few (by decide))
  refine ⟨_, run, ?_, fun above => ?_⟩
  · intro zero
    have none : r.1.toNat = 0 := by
      rw [show r.1 = 0 from zero]
      rfl
    rw [ret] at none
    revert none
    cases store.width <;> cases lenSize is32 0x66 enc.prefixes <;> decide
  · have low := bytesOf_low (n := store.width.bytes (lenSize is32 0x66 enc.prefixes))
      (store.width.bits_bytes _).ge few decodes.value
    have stored := low.trans (congrArg (bytesOf · _) (stored_right enc m base scp here right sizes))
    show bytesOf _ _ <+: _
    rw [← bytes, ← stored, ret]
    exact bytesOf_front r.2.1 few (Nat.le_refl _) above

/-- The bytes of the instruction are the first that are copied from `op`. -/
theorem decodeMemop_accepted {stack32 : Bool} (accepted : MemopAccepts enc store)
    (right : WriteRight enc scp stack32 store) :
    ∃ r, decodeMemop m base size32 scp prev = some r ∧ r.ret ≠ 0 ∧ ∀ above : List Byte,
      enc.written m base stack32 scp.context scp.cr2 store <+: (opBytes r.op ++ above).take r.ret.toNat := by
  by_cases narrow : is32 = false ∨ store.width = .byte
  · exact decodeMemop_right enc m base scp here size prev accepted.taken right narrow
  · obtain ⟨is32', other⟩ := not_or.mp narrow
    have wide : is32 = true := eq_true_of_ne_false is32'
    have sized := (accepted.width wide).resolve_left other
    have operand : store.width = .operand := by
      rcases sized.1 with rfl | rfl
      · rfl
      · rfl
    have decodes := decodeMemop_wide enc m base scp here size prev accepted.taken wide operand
    rw [if_pos sized] at decodes
    obtain ⟨r, run, six, value⟩ := decodes
    have moves : store = .mov .operand .register := by
      rcases sized.1 with moves | pops
      · exact moves
      · exact absurd (right.stack pops).1 is32'
    subst wide moves
    have word : enc.operand32 = false := by
      have inside : 0x66 ∈ enc.prefixes := List.count_pos_iff.mp (by omega)
      show (true ^^ decide (0x66 ∈ enc.prefixes)) = false
      rw [decide_eq_true inside]
      rfl
    refine ⟨r, run, by rw [six]; decide, fun above => ?_⟩
    have written : enc.written m base stack32 scp.context scp.cr2 (.mov .operand .register) =
        bytesOf (((scp.numbered (regField enc.modrm)).setWidth 16).setWidth 32) 2 := by
      show bytesOf (((scp.numbered _).setWidth (Width.operand.bits enc.operand32)).setWidth 32)
        (Width.operand.bytes enc.operand32) = _
      rw [word]
      rfl
    rw [written, ← bytesOf_low (v := scp.numbered (regField enc.modrm)) (by decide) (by decide) rfl, six, value rfl]
    exact bytesOf_front _ (by decide) (by decide) above

end Taken

end Decoding

/-! ## What a write leaves in the shadow LDT -/

section Write

variable {σ : Type}

/-- Each byte of a write lies inside of the entry at its offset, which can be read or allocated, or stands
there already; and there is a back buffer. -/
def LdtState.Lands (s : LdtState σ) (h : LdtHost σ) (offset : Nat) (bytes : List Byte) : Prop :=
  ∃ b, s.backbuf = some b ∧ ∀ i (inside : i < bytes.length),
    (offset % 8 + i < 8 ∧ h.fetches s.host (offset / 8) = true) ∨ b (offset + i) = bytes[i]

variable {h : LdtHost σ} (own : h.ReportsOwn) {s : LdtState σ} {entry : Nat} (bound : entry < LDT_ENTRIES)
  (busy : s.entryUpd = entry)

include own bound busy

theorem fetchDescriptor_backbuf :
    (final (fetchDescriptor h (selectorOf entry)) s).backbuf = s.backbuf := by
  cases found : h.getDescriptor s.host (selectorOf entry) with
  | some lp => simp [fetchDescriptor, found]
  | none =>
    obtain ⟨answer, after⟩ := allocateSpecific_run (h := h) (selectorOf entry) s
    rw [report_own (s := { s with host := (h.allocateSpecific s.host (selectorOf entry)).2.host }) busy
      (own.allocate_reports _ _ bound)] at after
    simp only [fetchDescriptor, final_bind, final_reads, result_reads, found, answer, after]
    cases (h.allocateSpecific s.host (selectorOf entry)).1 <;> rfl

theorem installDescriptor_backbuf (lp : Descriptor) :
    (final (installDescriptor h (selectorOf entry) lp) s).backbuf = s.backbuf := by
  unfold installDescriptor
  split
  · rw [final_setDescriptor own bound busy]
  · rw [final_bind, final_setDescriptor own bound busy]
    rfl

theorem mergeDescriptor_backbuf (offs : Nat) (buffer : List Byte) (lp : Descriptor) :
    (final (mergeDescriptor h entry offs buffer lp) s).backbuf =
      s.backbuf.map fun b =>
        overlay b (entry * 8) (List.ofFn ((s.held entry lp).patch offs buffer)) := by
  rw [final_mergeDescriptor, LdtState.shadowing]
  exact congrArg (Option.map _)
    (installDescriptor_backbuf own (s := s.copied entry offs buffer lp) bound busy _)

omit bound busy

theorem directLdtWrite_backbuf {b : Nat → Byte} (ready : s.backbuf = some b) {offset : Nat}
    (bound : offset / 8 < LDT_ENTRIES) (buffer : List Byte) :
    ∃ old : Descriptor, (final (directLdtWrite h offset buffer) s).backbuf =
      if h.fetches s.host (offset / 8) = true then
        some (overlay b (offset / 8 * 8) (List.ofFn (old.patch (offset % 8) buffer)))
      else some b := by
  have some' : s.backbuf.isSome := by rw [ready]; rfl
  have found := (fetchDescriptor_found (h := h) (s.updating (offset / 8)) (offset / 8)).1
  have fetched := fetchDescriptor_backbuf own (s := s.updating (offset / 8)) bound rfl
  have busy : (final (fetchDescriptor h (selectorOf (offset / 8))) (s.updating (offset / 8))).entryUpd =
      (offset / 8 : Nat) := by
    obtain ⟨-, host, f, kept⟩ := fetchDescriptor_found (h := h) (s.updating (offset / 8)) (offset / 8)
    rw [kept]
    rfl
  rw [final_directLdtWrite some']
  have host : (s.updating (offset / 8)).host = s.host := rfl
  rw [host] at found
  cases answer : result (fetchDescriptor h (selectorOf (offset / 8))) (s.updating (offset / 8)) with
  | none =>
    rw [answer, Option.isSome_none] at found
    refine ⟨.dummy, ?_⟩
    rw [if_neg (by rw [← found]; decide)]
    exact fetched.trans ready
  | some lp =>
    rw [answer, Option.isSome_some] at found
    refine ⟨(final (fetchDescriptor h (selectorOf (offset / 8))) (s.updating (offset / 8))).held (offset / 8) lp,
      ?_⟩
    rw [if_pos found.symm]
    show (final (mergeDescriptor h _ _ _ _) _).backbuf = _
    rw [mergeDescriptor_backbuf own bound busy, fetched]
    exact congrArg (Option.map _) ready

/-- The bytes at the front of a write are in the shadow LDT if and only if they land there. -/
theorem holds_iff_lands {offset : Nat} (bound : offset / 8 < LDT_ENTRIES) {bytes buffer : List Byte}
    (front : bytes <+: buffer) :
    (final (directLdtWrite h offset buffer) s).Holds offset bytes ↔ s.Lands h offset bytes := by
  obtain ⟨rest, rfl⟩ := front
  cases ready : s.backbuf with
  | none =>
    have skipped : final (directLdtWrite h offset (bytes ++ rest)) s = s := by
      rw [directLdtWrite, final_reads_bind, final_onlyIf, if_neg (by rw [ready]; decide)]
    rw [skipped, LdtState.Holds, LdtState.Lands, ready]
    exact iff_of_false (by rintro ⟨b, none, -⟩; cases none) (by rintro ⟨b, none, -⟩; cases none)
  | some b =>
    obtain ⟨old, after⟩ := directLdtWrite_backbuf own ready bound (bytes ++ rest)
    rw [LdtState.Holds, LdtState.Lands, after, ready]
    cases fetched : h.fetches s.host (offset / 8) with
    | false =>
      rw [if_neg (by decide)]
      constructor
      · rintro ⟨c, same, bytes⟩
        obtain rfl := Option.some.inj same
        exact ⟨b, rfl, fun i inside => .inr (bytes i inside)⟩
      · rintro ⟨c, same, lands⟩
        obtain rfl := Option.some.inj same
        refine ⟨b, rfl, fun i inside => (lands i inside).resolve_left fun found => ?_⟩
        exact absurd found.2 (by decide)
    | true =>
      rw [if_pos rfl]
      have value (i : Nat) (inside : i < bytes.length) :
          overlay b (offset / 8 * 8) (List.ofFn (old.patch (offset % 8) (bytes ++ rest))) (offset + i) =
            if offset % 8 + i < 8 then bytes[i] else b (offset + i) := by
        split
        next within =>
          have entryOf := congrFun (shadowOf_overlay b (offset / 8)
            (old.patch (offset % 8) (bytes ++ rest))) ⟨offset % 8 + i, within⟩
          rw [shadowOf, ← Nat.add_assoc, mod_entry] at entryOf
          rw [entryOf, Descriptor.patch, if_pos (Nat.le_add_right _ _), Nat.add_sub_cancel_left,
            List.getD_append _ _ _ _ inside, List.getD_eq_getElem _ _ inside]
        next past =>
          refine overlay_outside (.inr ?_)
          rw [List.length_ofFn]
          omega
      constructor
      · rintro ⟨c, same, bytes⟩
        obtain rfl := Option.some.inj same
        refine ⟨b, rfl, fun i inside => ?_⟩
        have byte := bytes i inside
        rw [value i inside] at byte
        split at byte
        next within => exact .inl ⟨within, rfl⟩
        next => exact .inr byte
      · rintro ⟨c, same, lands⟩
        obtain rfl := Option.some.inj same
        refine ⟨_, rfl, fun i inside => ?_⟩
        rw [value i inside]
        split
        next => rfl
        next past => exact (lands i inside).resolve_left fun found => past found.1

end Write

/-! ## The page fault -/

section Fault

variable {σ : Type} (h : LdtHost σ) (m : Memory) (base : Word → Dword) (size32 : Word → Bool) (ldtAlias : Dword)

def storeBytes (scp : Sigcontext) {instr : List Byte} (enc : Encoding (size32 scp.cs) instr) (store : Store) :
    List Byte :=
  enc.written m base (size32 scp.ss) scp.context scp.cr2 store

/-- Refused, a fault changes nothing; accepted, the instruction's write is in the shadow LDT. -/
structure AllOrNothing (op : Dword) (above : List Byte) (s : LdtState σ) : Prop where
  nothing : result (msdosLdtPagefault h m base size32 ldtAlias op above) s = some false →
    final (msdosLdtPagefault h m base size32 ldtAlias op above) s = s
  all : result (msdosLdtPagefault h m base size32 ldtAlias op above) s = some true →
    ∀ {instr : List Byte} (enc : Encoding (size32 s.scp.cs) instr) {code : Byte} {store : Store},
      StoreAt enc m base s.scp code store →
        (final (msdosLdtPagefault h m base size32 ldtAlias op above) s).Holds (s.scp.cr2 - ldtAlias).toNat
          (storeBytes m base size32 s.scp enc store)

/-- The writes that arrive: what `decode_memop` accepts in the alias lands in the shadow LDT. -/
def Arrives (s : LdtState σ) : Prop :=
  inAlias ldtAlias s.scp.cr2 = true →
    ∀ {instr : List Byte} (enc : Encoding (size32 s.scp.cs) instr) {code : Byte} {store : Store},
      StoreAt enc m base s.scp code store → MemopAccepts enc store →
        s.Lands h (s.scp.cr2 - ldtAlias).toNat (storeBytes m base size32 s.scp enc store)

variable {h m base size32 ldtAlias}

theorem stringStep_cr2 (x86 : X86Ins) (n : Dword) (r : Gpr) (scp : Sigcontext) :
    (stringStep x86 n r scp).cr2 = scp.cr2 := by
  unfold stringStep
  split
  next => rfl
  next => split <;> rfl

theorem memopSwitch_cr2 {scp : Sigcontext} {x86 : X86Ins} {csp : Nat → Byte} {past op : Dword}
    {r : Dword × Dword × Sigcontext} (decodes : memopSwitch m base scp x86 csp past op = some r) :
    r.2.2.cr2 = scp.cr2 := by
  unfold memopSwitch at decodes
  dsimp only at decodes
  split at decodes
  -- the string stores by operand size, and the default
  case h_13 | h_15 =>
    split at decodes
    next =>
      obtain rfl := Option.some.inj decodes
      simp only [stringStep_cr2]
    next =>
      split at decodes <;> obtain rfl := Option.some.inj decodes
      · simp only [stringStep_cr2]
      · rfl
  case h_31 => cases decodes
  all_goals
    obtain rfl := Option.some.inj decodes
    first | rfl | simp only [stringStep_cr2]

theorem decodeMemop_keeps {scp : Sigcontext} {op : Dword} {r : Memop}
    (decodes : decodeMemop m base size32 scp op = some r) :
    r.scp.cr2 = scp.cr2 ∧ (r.ret = 0 → r.scp = scp) := by
  unfold decodeMemop at decodes
  dsimp only at decodes
  split at decodes
  next =>
    obtain rfl := Option.some.inj decodes
    exact ⟨rfl, fun _ => rfl⟩
  next =>
    split at decodes
    next =>
      obtain rfl := Option.some.inj decodes
      exact ⟨rfl, fun _ => rfl⟩
    next ret value after switched =>
      split at decodes
      next => cases decodes
      next nonzero =>
        obtain rfl := Option.some.inj decodes
        exact ⟨memopSwitch_cr2 switched, fun zero => absurd zero nonzero⟩

/-- The four ways a fault goes. -/
theorem pagefault_run (op : Dword) (above : List Byte) (s : LdtState σ) :
    msdosLdtPagefault h m base size32 ldtAlias op above s =
      if inAlias ldtAlias s.scp.cr2 then
        match decodeMemop m base size32 s.scp op with
        | none => (none, s)
        | some r =>
          if r.ret = 0 then (some false, s)
          else (some true, final (directLdtWrite h (s.scp.cr2 - ldtAlias).toNat
            ((opBytes r.op ++ above).take r.ret.toNat)) { s with scp := r.scp })
      else (some false, s) := by
  by_cases inside : inAlias ldtAlias s.scp.cr2 = true
  · rw [if_pos inside]
    cases decodes : decodeMemop m base size32 s.scp op with
    | none =>
      have run := run_eq (msdosLdtPagefault h m base size32 ldtAlias op above) s
      simp only [msdosLdtPagefault, final_reads_bind, result_bind, result_reads, final_reads, inside, if_true,
        decodes] at run
      exact run
    | some r =>
      obtain ⟨cr2, refused⟩ := decodeMemop_keeps decodes
      have run := run_eq (msdosLdtPagefault h m base size32 ldtAlias op above) s
      simp only [msdosLdtPagefault, result_bind, result_reads, final_reads, inside, if_true,
        decodes, final_bind, final_updates, final_ite, result_ite, cr2, result_pure, final_pure] at run
      refine run.trans ?_
      by_cases zero : r.ret = 0
      · simp only [if_pos zero, refused zero]
      · simp only [if_neg zero]
  · rw [if_neg inside]
    have run := run_eq (msdosLdtPagefault h m base size32 ldtAlias op above) s
    simp only [msdosLdtPagefault, final_reads_bind, result_bind, result_reads, final_reads, inside] at run
    exact run

theorem inAlias_offset {cr2 : Dword} (inside : inAlias ldtAlias cr2 = true) :
    (cr2 - ldtAlias).toNat / 8 < LDT_ENTRIES := by
  rw [inAlias, Bool.and_eq_true, decide_eq_true_eq, decide_eq_true_eq] at inside
  obtain ⟨low, high⟩ := inside
  rw [BitVec.toNat_sub_of_le low]
  simp only [LDT_ENTRIES] at high ⊢
  omega

/-- A decoder that returns 0, or not at all, leaves everything as it was. -/
theorem pagefault_turned {op : Dword} {above : List Byte} {s : LdtState σ}
    (turned : decodeMemop m base size32 s.scp op = none ∨
      ∃ r, decodeMemop m base size32 s.scp op = some r ∧ r.ret = 0) :
    result (msdosLdtPagefault h m base size32 ldtAlias op above) s ≠ some true ∧
      final (msdosLdtPagefault h m base size32 ldtAlias op above) s = s := by
  rw [result, final, pagefault_run]
  by_cases inside : inAlias ldtAlias s.scp.cr2 = true
  · rw [if_pos inside]
    rcases turned with none | ⟨r, some, zero⟩
    · rw [none]
      exact ⟨by simp, rfl⟩
    · rw [some]
      dsimp only
      rw [if_pos zero]
      exact ⟨by simp, rfl⟩
  · rw [if_neg inside]
    exact ⟨by simp, rfl⟩

theorem pagefault_taken {op : Dword} {above : List Byte} {s : LdtState σ} {r : Memop}
    (inside : inAlias ldtAlias s.scp.cr2 = true) (decodes : decodeMemop m base size32 s.scp op = some r)
    (nonzero : r.ret ≠ 0) :
    msdosLdtPagefault h m base size32 ldtAlias op above s =
      (some true, final (directLdtWrite h (s.scp.cr2 - ldtAlias).toNat
        ((opBytes r.op ++ above).take r.ret.toNat)) { s with scp := r.scp }) := by
  rw [pagefault_run, if_pos inside, decodes]
  exact if_neg nonzero

/-- Where the stores that are accepted are taken right, a fault is handled all or not at all if and only if
their writes arrive. -/
theorem pagefault_all_or_nothing_iff (own : h.ReportsOwn) (op : Dword) (above : List Byte) (s : LdtState σ)
    (right : inAlias ldtAlias s.scp.cr2 = true →
      ∀ {instr : List Byte} (enc : Encoding (size32 s.scp.cs) instr) {code : Byte} {store : Store},
        StoreAt enc m base s.scp code store → MemopAccepts enc store →
          WriteRight enc s.scp (size32 s.scp.ss) store) :
    AllOrNothing h m base size32 ldtAlias op above s ↔ Arrives h m base size32 ldtAlias s := by
  by_cases inside : inAlias ldtAlias s.scp.cr2 = true
  · -- an accepted store is written from the front of `op`
    have written {instr : List Byte} (enc : Encoding (size32 s.scp.cs) instr) {code : Byte} {store : Store}
        (here : StoreAt enc m base s.scp code store) (accepted : MemopAccepts enc store) :
        result (msdosLdtPagefault h m base size32 ldtAlias op above) s = some true ∧
          ((final (msdosLdtPagefault h m base size32 ldtAlias op above) s).Holds (s.scp.cr2 - ldtAlias).toNat
            (storeBytes m base size32 s.scp enc store) ↔
              s.Lands h (s.scp.cr2 - ldtAlias).toNat (storeBytes m base size32 s.scp enc store)) := by
      obtain ⟨r, decodes, nonzero, front⟩ := decodeMemop_accepted enc m base s.scp here rfl op accepted
        (right inside enc here accepted)
      rw [result, final, pagefault_taken inside decodes nonzero]
      exact ⟨rfl, holds_iff_lands own (s := { s with scp := r.scp }) (inAlias_offset inside) (front above)⟩
    constructor
    · intro law _ instr enc code store here accepted
      obtain ⟨taken, holds⟩ := written enc here accepted
      exact holds.mp (law.all taken enc here)
    · intro arrives
      refine ⟨fun refused => ?_, fun taken instr enc code store here => ?_⟩
      · cases decodes : decodeMemop m base size32 s.scp op with
        | none => exact (pagefault_turned (.inl decodes)).2
        | some r =>
          by_cases zero : r.ret = 0
          · exact (pagefault_turned (.inr ⟨r, decodes, zero⟩)).2
          · rw [result, pagefault_taken inside decodes zero] at refused
            simp at refused
      · by_cases accepted : MemopAccepts enc store
        · exact (written enc here accepted).2.mpr (arrives inside enc here accepted)
        · exact absurd taken (pagefault_turned (decodeMemop_turned enc m base s.scp here rfl op accepted)).1
  · have run : msdosLdtPagefault h m base size32 ldtAlias op above s = (some false, s) := by
      rw [pagefault_run, if_neg inside]
    refine iff_of_true ⟨fun _ => congrArg Prod.snd run, fun accepted => ?_⟩ fun here => absurd here inside
    exact absurd ((congrArg Prod.fst run).symm.trans accepted) (by simp)

end Fault

def fullHost : LdtHost Unit where
  getDescriptor _ _ := none
  setDescriptor _ _ _ := ⟨(), []⟩
  allocateSpecific _ _ := (true, ⟨(), []⟩)

/-- 16-bit code at 0:100h that stores AX (1240h) at the first byte of entry 5, with a shadow full of zeros. -/
def ldtFault {σ : Type} (host : σ) : LdtState σ :=
  ⟨host, some fun _ => 0, -1,
    { ldtStart.scp with eip := 0x100, cr2 := 0x10028, gpr := setGpr (fun _ => 0) .eax 0x1240 }, fun _ => 0⟩

def movCode : Memory := Bytes.store (fun _ => 0) 0x100 [0x89, 0x07]

def movAx : Encoding false [0x89, 0x07] where
  prefixes := []
  opcode := .oneByte 0x89
  operands := [0x07]
  form := ⟨true, .none⟩
  split := rfl
  legacy := noPrefix_legacy
  defined := by decide
  complete := modrm_complete

theorem StoreAt.first {is32 : Bool} {instr : List Byte} {enc : Encoding is32 instr} {m : Memory}
    {base : Word → Dword} {scp : Sigcontext} {code : Byte} {store : Store}
    (here : StoreAt enc m base scp code store) {b : Byte}
    (first : codeAt m (base scp.cs + scp.eip) 0 = b) (other : b ∉ legacyPrefixes) :
    enc.prefixes = [] ∧ code = b := by
  have begins := here.begins
  rw [enc.split, here.one] at begins
  cases none : enc.prefixes with
  | nil =>
    rw [none] at begins
    exact ⟨rfl, begins.head.symm.trans first⟩
  | cons c rest =>
    rw [none] at begins
    have head : codeAt m (base scp.cs + scp.eip) 0 = c := begins.head
    have legacy := enc.legacy c (none ▸ List.mem_cons_self)
    rw [← head, first] at legacy
    exact absurd legacy other

theorem movCode_store {σ : Type} {host : σ} {instr : List Byte} {enc : Encoding false instr} {code : Byte}
    {store : Store} (here : StoreAt enc movCode (fun _ => 0) (ldtFault host).scp code store) :
    enc.prefixes = [] ∧ store = .mov .operand .register := by
  have first : codeAt movCode (0 + 0x100) 0 = 0x89 := by decide +kernel
  obtain ⟨none, opcode⟩ := here.first first (by decide)
  have kind := here.kind
  rw [opcode] at kind
  exact ⟨none, (Option.some.inj kind).symm⟩

theorem movCode_right {σ : Type} {host : σ} {instr : List Byte} {enc : Encoding false instr} {code : Byte}
    {store : Store} (here : StoreAt enc movCode (fun _ => 0) (ldtFault host).scp code store) :
    WriteRight enc (ldtFault host).scp false store := by
  obtain ⟨none, rfl⟩ := movCode_store here
  refine ⟨fun _ => ⟨fun _ => ?_, nofun⟩, nofun, nofun⟩
  rw [Encoding.operand32, none]
  decide

theorem tableHost_reports : tableHost.ReportsOwn := tableHost_lawful.toReportsOwn

theorem pagefault_stores : AllOrNothing tableHost movCode (fun _ => 0) (fun _ => false) 0x10000 0 []
    (ldtFault fun _ => none) := by
  refine (pagefault_all_or_nothing_iff tableHost_reports 0 [] _ fun _ _ enc _ _ here _ =>
    movCode_right here).mpr fun _ _ enc _ _ here _ => ?_
  obtain ⟨none, rfl⟩ := movCode_store here
  refine ⟨_, rfl, fun i inside => .inl ⟨?_, tableHost_accepts _ _ (by decide)⟩⟩
  have two : enc.operand32 = false := by
    rw [Encoding.operand32, none]
    decide
  rw [storeBytes, Encoding.written, bytesOf_length, two] at inside
  show 0x28 % 8 + i < 8
  have bytes : i < 2 := inside
  omega

/-- The client goes on after the store, and the shadow LDT has nothing of it. -/
theorem pagefault_drops :
    result (msdosLdtPagefault fullHost movCode (fun _ => 0) (fun _ => false) 0x10000 0 []) (ldtFault ()) =
        some true ∧
      (final (msdosLdtPagefault fullHost movCode (fun _ => 0) (fun _ => false) 0x10000 0 [])
        (ldtFault ())).scp.eip = 0x102 ∧
      (final (msdosLdtPagefault fullHost movCode (fun _ => 0) (fun _ => false) 0x10000 0 [])
        (ldtFault ())).backbuf.map (· 40) = some 0 ∧
      ¬ AllOrNothing fullHost movCode (fun _ => 0) (fun _ => false) 0x10000 0 [] (ldtFault ()) := by
  have accepted : result (msdosLdtPagefault fullHost movCode (fun _ => 0) (fun _ => false) 0x10000 0 [])
      (ldtFault ()) = some true := by decide +kernel
  have zero : (final (msdosLdtPagefault fullHost movCode (fun _ => 0) (fun _ => false) 0x10000 0 [])
      (ldtFault ())).backbuf.map (· 40) = some 0 := by decide +kernel
  refine ⟨accepted, by decide +kernel, zero, fun law => ?_⟩
  have here : StoreAt movAx movCode (fun _ => 0) (ldtFault ()).scp 0x89 (.mov .operand .register) :=
    ⟨rfl, rfl, by decide, by decide +kernel⟩
  obtain ⟨b, backed, bytes⟩ := law.all accepted movAx here
  have low : b 40 = 0x40 := bytes 0 (by decide)
  rw [backed, Option.map_some, Option.some.injEq, low] at zero
  exact absurd zero (by decide)

end Pmdapi
