import Mathlib.Tactic.SplitIfs
import Pmdapi.ClientContext
import Pmdapi.Library.Stores
import Pmdapi.Memop

/-!
What `decode_memop` makes of a store, beside what the processor does. The switch is compared first,
opcode by opcode, with the store's operands as the code takes them; then the operands are compared.
-/

namespace Pmdapi
open Bytes X86

/-! ## Reading operands -/

theorem readDword_byte (m : Memory) (a : Dword) : (readDword m a).setWidth 8 = m a := by
  have word : (readWord m a).setWidth 8 = m a := BitVec.setWidth_append_eq_right
  have dword : (readDword m a).setWidth 16 = readWord m a := BitVec.setWidth_append_eq_right
  rw [← word, ← dword, BitVec.setWidth_setWidth_of_le _ (by decide)]

theorem readDword_word (m : Memory) (a : Dword) : (readDword m a).setWidth 16 = readWord m a :=
  BitVec.setWidth_append_eq_right

theorem reg8_part (scp : Sigcontext) (modrm : Byte) :
    reg8 scp (modrm >>> 3) = scp.context.part .byte (regField modrm) 8 := by
  have low2 : ∀ b : Byte, ((b >>> 3) &&& 3).toNat = (regField b).toNat % 4 := by decide
  have high : ∀ b : Byte, (((b >>> 3) &&& 4) <<< 1).toNat = if regField b < 4 then 0 else 8 := by decide
  rw [reg8, low2, high]
  generalize regField modrm = r
  revert r
  apply forall_gpr <;> rfl

theorem reg_numbered (scp : Sigcontext) (modrm : Byte) :
    reg scp (modrm >>> 3) = scp.numbered (regField modrm) := by
  have low3 : ∀ b : Byte, ((b >>> 3) &&& 7).toNat = (regField b).toNat := by decide
  rw [reg, low3]
  generalize regField modrm = r
  revert r
  apply forall_gpr <;> rfl

theorem signExtend_word : ∀ b : Byte, (b.signExtend 32).setWidth 16 = b.signExtend 16 := by decide

theorem aluNumber : ∀ b : Byte, (b >>> 3).extractLsb' 0 3 = regField b := by decide

/-! ## The switch -/

section Switch

variable (m : Memory) (base : Word → Dword) (scp : Sigcontext) (x86 : X86Ins) (o : StoreOperands)

/-- What the switch makes of a store with operands `o`, but for INC and DEC, which leave the flags. -/
structure Decodes (store : Store) (r : Dword × Dword × Sigcontext) : Prop where
  ret : r.1 = BitVec.ofNat 32 (store.width.bytes o.operand32)
  value : r.2.1.setWidth (store.width.bits o.operand32) = scp.context.stored m base o store
  gpr : x86.addressSize = 2 → r.2.2.context.gpr = (scp.context.afterStore o store).gpr
  seg : r.2.2.context.seg = scp.context.seg
  eip : r.2.2.eip = scp.eip
  cr2 : r.2.2.cr2 = scp.cr2
  flags : if store = .inc ∨ store = .dec then r.2.2.eflags = scp.eflags
    else scp.context.FlagsAfter m o store r.2.2.eflags

theorem decodes_alu {code : Byte} {aop : AluOp} (number : AluOp.ofNumber (code.extractLsb' 0 3) = aop)
    (width : Width) (source : Source) {r : BitVec (width.bits o.operand32) × Dword}
    (ran : instrBinary code ((readDword m o.address).setWidth (width.bits o.operand32))
      (scp.context.source o width _ source) scp.eflags = r)
    {value : Dword} (holds : value.setWidth (width.bits o.operand32) = r.1) :
    Decodes m base scp x86 o (.alu aop width source)
      (BitVec.ofNat 32 (width.bytes o.operand32), value, { scp with eflags := r.2 }) := by
  obtain ⟨result, flags⟩ := instrBinary_run code ((readDword m o.address).setWidth (width.bits o.operand32))
    (scp.context.source o width _ source) scp.eflags
  rw [number, ran] at result flags
  refine ⟨rfl, holds.trans result, fun _ => rfl, rfl, rfl, rfl, ?_⟩
  rw [if_neg (by simp)]
  exact flags

variable {m base scp x86 o}

theorem decodes_aluByte {code op2 : Byte} {aop : AluOp}
    (number : AluOp.ofNumber (code.extractLsb' 0 3) = aop) {source : Source} (address : o.address = scp.cr2)
    (operand : op2 = scp.context.source o .byte 8 source) {r : Byte × Dword}
    (ran : instrBinaryByte code (m scp.cr2) op2 scp.eflags = r) :
    Decodes m base scp x86 o (.alu aop .byte source)
      (1, r.1.setWidth 32, { scp with eflags := r.2 }) := by
  rw [operand, ← address, ← readDword_byte m] at ran
  apply decodes_alu m base scp x86 o number .byte source ran
  have narrow : 8 ≤ 32 := by decide
  exact (BitVec.setWidth_setWidth_of_le r.1 narrow).trans (BitVec.setWidth_eq r.1)

/-- The words are taken from doublewords. -/
theorem decodes_aluOperand {code : Byte} {aop : AluOp}
    (number : AluOp.ofNumber (code.extractLsb' 0 3) = aop) {source : Source} (address : o.address = scp.cr2)
    (size : x86.operandSize = sizeBytes o.operand32) {word dword : Dword} (prev : Dword)
    (operand16 : o.operand32 = false → loWord word = scp.context.source o .operand 16 source)
    (operand32 : o.operand32 = true → dword = scp.context.source o .operand 32 source)
    {r : Dword × Dword × Dword} (ran : binaryBySize m scp x86 prev code word dword = r) :
    Decodes m base scp x86 o (.alu aop .operand source) (r.1, r.2.1, { scp with eflags := r.2.2 }) := by
  obtain ⟨o32, register, immediate, a, string⟩ := o
  subst ran
  have old : readDword m scp.cr2 = readDword m a := congrArg (readDword m) address.symm
  cases o32 with
  | false =>
    have two : x86.operandSize = 2 := size
    have result : binaryBySize m scp x86 prev code word dword =
        (2, instrBinaryWord code (zext (readWord m scp.cr2)) word scp.eflags) := if_pos two
    rw [result, instrBinaryWord, operand16 rfl, loWord_zext, ← readDword_word, old]
    apply decodes_alu m base scp x86 ⟨false, register, immediate, a, string⟩ number .operand source rfl
    exact loWord_zext _
  | true =>
    have four : x86.operandSize = 4 := size
    have result : binaryBySize m scp x86 prev code word dword =
        (4, instrBinaryDword code (readDword m scp.cr2) dword scp.eflags) := by
      rw [binaryBySize, if_neg (by rw [four]; decide), if_pos four]
    have whole : ∀ d : Dword, d.setWidth 32 = d := fun d => BitVec.setWidth_eq d
    rw [result, instrBinaryDword, operand32 rfl, old]
    apply decodes_alu m base scp x86 ⟨true, register, immediate, a, string⟩ number .operand source
      (congrArg (fun d => instrBinary code d _ scp.eflags) (whole (readDword m a)))
    exact whole _

theorem decodes_plain {store : Store} {value : Dword} {scp' : Sigcontext}
    (other : store ≠ .inc ∧ store ≠ .dec ∧ ∀ op width source, store ≠ .alu op width source)
    (stored : value.setWidth (store.width.bits o.operand32) = scp.context.stored m base o store)
    (gpr : x86.addressSize = 2 → scp'.context.gpr = (scp.context.afterStore o store).gpr)
    (same : scp' = { scp with gpr := scp'.gpr, esp := scp'.esp }) :
    Decodes m base scp x86 o store
      (BitVec.ofNat 32 (store.width.bytes o.operand32), value, scp') := by
  have flags : scp'.eflags = scp.eflags := by rw [same]
  refine ⟨rfl, stored, gpr, ?_, ?_, ?_, ?_⟩
  · rw [same]
    rfl
  · rw [same]
  · rw [same]
  · rw [if_neg (by simp [other.1, other.2.1])]
    cases store with
    | alu op width source => exact absurd rfl (other.2.2 op width source)
    | inc => exact absurd rfl other.1
    | dec => exact absurd rfl other.2.1
    | _ => exact flags

/-! ### Opcode by opcode -/

variable {csp : Nat → Byte} {past prev : Dword} (register : o.register = regField (csp 1))
  (address : o.address = scp.cr2) (size : x86.operandSize = sizeBytes o.operand32)

def ImmediateEnds (o : StoreOperands) (m : Memory) (past : Dword) : Width → Source → Prop
  | width, .immediate => o.immediate.setWidth (width.bits o.operand32) =
      (readDword m (past - BitVec.ofNat 32 (width.bytes o.operand32))).setWidth (width.bits o.operand32)
  | _, .signExtended => o.immediate.setWidth 8 = m (past - 1)
  | _, _ => True

def SwitchDecodes (m : Memory) (base : Word → Dword) (scp : Sigcontext) (x86 : X86Ins)
    (o : StoreOperands) (csp : Nat → Byte) (past prev : Dword) (store : Store) : Prop :=
  ∃ r, memopSwitch m base scp x86 csp past prev = some r ∧ Decodes m base scp x86 o store r

include address in
theorem switch_aluByte (register : o.register = regField (csp 1))
    (opcode : csp 0 ∈ [0x00, 0x08, 0x10, 0x18, 0x20, 0x28, 0x30]) :
    SwitchDecodes m base scp x86 o csp past prev
      (.alu (AluOp.ofNumber (regField (csp 0))) .byte .register) := by
  have operand : reg8 scp (csp 1 >>> 3) = scp.context.source o .byte 8 .register := by
    rw [reg8_part, ← register]
    rfl
  refine ⟨_, ?_, decodes_aluByte (congrArg AluOp.ofNumber (aluNumber (csp 0))) address operand rfl⟩
  simp only [List.mem_cons, List.not_mem_nil, or_false] at opcode
  rcases opcode with here | here | here | here | here | here | here <;>
    · rw [memopSwitch, here]
      rfl

include address size in
theorem switch_aluOperand (register : o.register = regField (csp 1))
    (opcode : csp 0 ∈ [0x01, 0x09, 0x11, 0x19, 0x21, 0x29, 0x31]) :
    SwitchDecodes m base scp x86 o csp past prev
      (.alu (AluOp.ofNumber (regField (csp 0))) .operand .register) := by
  have operand : reg scp (csp 1 >>> 3) = scp.context.gpr o.register := by
    rw [reg_numbered, ← register]
    rfl
  have whole : reg scp (csp 1 >>> 3) = scp.context.source o .operand 32 .register := by
    rw [operand]
    exact (BitVec.setWidth_eq _).symm
  refine ⟨_, ?_, decodes_aluOperand (congrArg AluOp.ofNumber (aluNumber (csp 0))) address size prev
    (fun _ => congrArg loWord operand) (fun _ => whole) rfl⟩
  simp only [List.mem_cons, List.not_mem_nil, or_false] at opcode
  rcases opcode with here | here | here | here | here | here | here <;>
    · rw [memopSwitch, here]
      rfl

include address in
theorem switch_groupByte (opcode : csp 0 = 0x80 ∨ csp 0 = 0x82)
    (ends : ImmediateEnds o m past .byte .immediate) :
    SwitchDecodes m base scp x86 o csp past prev
      (.alu (AluOp.ofNumber (regField (csp 1))) .byte .immediate) := by
  have operand : m (past - 1) = scp.context.source o .byte 8 .immediate := by
    rw [← readDword_byte m]
    exact ends.symm
  refine ⟨_, ?_, decodes_aluByte (congrArg AluOp.ofNumber (aluNumber (csp 1))) address operand rfl⟩
  rcases opcode with here | here <;>
    · rw [memopSwitch, here]
      rfl

include address size in
theorem switch_group (here : csp 0 = 0x81) (ends : ImmediateEnds o m past .operand .immediate) :
    SwitchDecodes m base scp x86 o csp past prev
      (.alu (AluOp.ofNumber (regField (csp 1))) .operand .immediate) := by
  have operand16 : o.operand32 = false → loWord (zext (readWord m (past - 2))) =
      scp.context.source o .operand 16 .immediate := by
    intro short
    rw [ImmediateEnds, short] at ends
    have word : o.immediate.setWidth 16 = readWord m (past - 2) :=
      ends.trans (readDword_word m (past - 2))
    rw [loWord_zext]
    exact word.symm
  have operand32 : o.operand32 = true → readDword m (past - 4) =
      scp.context.source o .operand 32 .immediate := by
    intro long
    rw [ImmediateEnds, long] at ends
    have dword : o.immediate.setWidth 32 = (readDword m (past - 4)).setWidth 32 := ends
    exact (BitVec.setWidth_eq _).symm.trans dword.symm
  refine ⟨_, ?_, decodes_aluOperand (congrArg AluOp.ofNumber (aluNumber (csp 1))) address size prev
    operand16 operand32 rfl⟩
  rw [memopSwitch, here]
  rfl

include address size in
theorem switch_groupSigned (here : csp 0 = 0x83) (ends : ImmediateEnds o m past .operand .signExtended) :
    SwitchDecodes m base scp x86 o csp past prev
      (.alu (AluOp.ofNumber (regField (csp 1))) .operand .signExtended) := by
  have byte : o.immediate.setWidth 8 = m (past - 1) := ends
  have operand16 : o.operand32 = false → loWord ((m (past - 1)).signExtend 32) =
      scp.context.source o .operand 16 .signExtended := by
    intro _
    show ((m (past - 1)).signExtend 32).setWidth 16 = (o.immediate.setWidth 8).signExtend 16
    rw [byte, signExtend_word]
  have operand32 : o.operand32 = true → (m (past - 1)).signExtend 32 =
      scp.context.source o .operand 32 .signExtended := by
    intro _
    show (m (past - 1)).signExtend 32 = (o.immediate.setWidth 8).signExtend 32
    rw [byte]
  refine ⟨_, ?_, decodes_aluOperand (congrArg AluOp.ofNumber (aluNumber (csp 1))) address size prev
    operand16 operand32 rfl⟩
  rw [memopSwitch, here]
  rfl

/-! Moves leave the flags. -/

theorem zext_byte (b : Byte) : (b.setWidth 32).setWidth 8 = b := by
  have narrow : 8 ≤ 32 := by decide
  exact (BitVec.setWidth_setWidth_of_le b narrow).trans (BitVec.setWidth_eq b)

theorem and_byte (d : Dword) : (d &&& 0xff).setWidth 8 = d.setWidth 8 := by
  apply BitVec.eq_of_toNat_eq
  rw [BitVec.toNat_setWidth, BitVec.toNat_setWidth, BitVec.toNat_and]
  show (d.toNat &&& (2 ^ 8 - 1)) % 2 ^ 8 = _
  rw [Nat.and_two_pow_sub_one_eq_mod, Nat.mod_mod]

theorem and_word (d : Dword) : (d &&& 0xffff).setWidth 16 = d.setWidth 16 := by
  apply BitVec.eq_of_toNat_eq
  rw [BitVec.toNat_setWidth, BitVec.toNat_setWidth, BitVec.toNat_and]
  show (d.toNat &&& (2 ^ 16 - 1)) % 2 ^ 16 = _
  rw [Nat.and_two_pow_sub_one_eq_mod, Nat.mod_mod]

theorem sizeBytes_eq (b : Bool) : sizeBytes b = BitVec.ofNat 32 (operandBytes b) := by
  cases b <;> rfl

include size in
theorem bySize_decodes {width : Width} (wide : width = .operand) (word dword prev wanted : Dword)
    (word16 : o.operand32 = false → word.setWidth 16 = wanted.setWidth 16)
    (dword32 : o.operand32 = true → dword.setWidth 32 = wanted.setWidth 32) :
    ∃ value, bySize x86 prev word dword = (BitVec.ofNat 32 (width.bytes o.operand32), value) ∧
      value.setWidth (width.bits o.operand32) = wanted.setWidth (width.bits o.operand32) := by
  rw [wide]
  cases size32 : o.operand32 with
  | false =>
    rw [size32] at size
    have two : x86.operandSize = 2 := size
    exact ⟨word, if_pos two, word16 size32⟩
  | true =>
    rw [size32] at size
    have four : x86.operandSize = 4 := size
    refine ⟨dword, ?_, dword32 size32⟩
    rw [bySize, if_neg (by rw [four]; decide), if_pos four]
    rfl

theorem switch_movByte (register : o.register = regField (csp 1)) (here : csp 0 = 0x88) :
    SwitchDecodes m base scp x86 o csp past prev (.mov .byte .register) := by
  have operand : reg8 scp (csp 1 >>> 3) = scp.context.source o .byte 8 .register := by
    rw [reg8_part, ← register]
    rfl
  refine ⟨(1, (reg8 scp (csp 1 >>> 3)).setWidth 32, scp), ?_,
    decodes_plain (by simp) ((zext_byte _).trans operand) (fun _ => rfl) rfl⟩
  rw [memopSwitch, here]
  rfl

include size in
theorem switch_movOperand (register : o.register = regField (csp 1)) (here : csp 0 = 0x89) :
    SwitchDecodes m base scp x86 o csp past prev (.mov .operand .register) := by
  have operand : reg scp (csp 1 >>> 3) = scp.context.gpr o.register := by
    rw [reg_numbered, ← register]
    rfl
  refine ⟨(x86.operandSize, reg scp (csp 1 >>> 3), scp), ?_, ?_⟩
  · rw [memopSwitch, here]
    rfl
  · rw [size, sizeBytes_eq, operand]
    exact decodes_plain (by simp) rfl (fun _ => rfl) rfl

theorem switch_movImmediateByte (here : csp 0 = 0xc6) (ends : ImmediateEnds o m past .byte .immediate) :
    SwitchDecodes m base scp x86 o csp past prev (.mov .byte .immediate) := by
  have byte : o.immediate.setWidth 8 = m (past - 1) := ends.trans (readDword_byte m _)
  refine ⟨(1, (m (past - 1)).setWidth 32, scp), ?_,
    decodes_plain (by simp) ((zext_byte _).trans byte.symm) (fun _ => rfl) rfl⟩
  rw [memopSwitch, here]
  rfl

include size in
theorem switch_movImmediate (here : csp 0 = 0xc7) (ends : ImmediateEnds o m past .operand .immediate) :
    SwitchDecodes m base scp x86 o csp past prev (.mov .operand .immediate) := by
  have word16 : o.operand32 = false →
      (zext (readWord m (past - 2))).setWidth 16 = o.immediate.setWidth 16 := by
    intro short
    rw [ImmediateEnds, short] at ends
    exact (loWord_zext _).trans ((readDword_word m (past - 2)).symm.trans ends.symm)
  have dword32 : o.operand32 = true →
      (readDword m (past - 4)).setWidth 32 = o.immediate.setWidth 32 := by
    intro long
    rw [ImmediateEnds, long] at ends
    exact ends.symm
  obtain ⟨value, sized, low⟩ := bySize_decodes size rfl _ _ prev _ word16 dword32
  refine ⟨(_, value, scp), ?_, decodes_plain (by simp) low (fun _ => rfl) rfl⟩
  rw [memopSwitch, here]
  show some ((bySize x86 prev _ _).1, (bySize x86 prev _ _).2, scp) = _
  rw [sized]
  rfl

theorem switch_storeByte (here : csp 0 = 0xa2) :
    SwitchDecodes m base scp x86 o csp past prev (.mov .byte .accumulator) := by
  refine ⟨(1, scp.gpr .eax &&& 0xff, scp), ?_,
    decodes_plain (by simp) (and_byte _) (fun _ => rfl) rfl⟩
  rw [memopSwitch, here]
  rfl

include size in
theorem switch_storeOperand (here : csp 0 = 0xa3) :
    SwitchDecodes m base scp x86 o csp past prev (.mov .operand .accumulator) := by
  obtain ⟨value, sized, low⟩ := bySize_decodes size rfl (scp.gpr .eax &&& 0xffff) _ prev (scp.gpr .eax)
    (fun _ => and_word _) (fun _ => rfl)
  refine ⟨(_, value, scp), ?_, decodes_plain (by simp) low (fun _ => rfl) rfl⟩
  rw [memopSwitch, here]
  show some ((bySize x86 prev _ _).1, (bySize x86 prev _ _).2, scp) = _
  rw [sized]
  rfl

include size in
theorem switch_pop (code16 : x86.bit32 = 0) (here : csp 0 = 0x8f) :
    SwitchDecodes m base scp x86 o csp past prev .pop := by
  have popped := x86Pop_eq m base scp code16 size
  refine ⟨(x86.operandSize, (x86Pop m base scp x86).1, (x86Pop m base scp x86).2), ?_, ?_⟩
  · rw [memopSwitch, here]
    rfl
  · rw [popped, size, sizeBytes_eq]
    refine decodes_plain (by simp) rfl (fun _ => ?_) rfl
    exact congrArg Context.gpr (context_drop scp _)

/-! Strings move SI and DI, and only these. -/

theorem stringStep_same (x86 : X86Ins) (n : Dword) (r : Gpr) (scp : Sigcontext) :
    stringStep x86 n r scp =
      { scp with gpr := (stringStep x86 n r scp).gpr, esp := (stringStep x86 n r scp).esp } := by
  unfold stringStep
  split_ifs <;> rfl

/-- DI or SI moved within its 64 KiB. -/
theorem stringStep_di {x86 : X86Ins} (word : x86.addressSize = 2) (n : Dword) (scp : Sigcontext) :
    (stringStep x86 n .edi scp).context.gpr = (scp.context.advance 7 (loWord n)).gpr := by
  rw [stringStep, if_pos word]
  funext r
  revert r
  apply forall_gpr <;> rfl

theorem stringStep_si {x86 : X86Ins} (word : x86.addressSize = 2) (n : Dword) (scp : Sigcontext) :
    (stringStep x86 n .esi scp).context.gpr = (scp.context.advance 6 (loWord n)).gpr := by
  rw [stringStep, if_pos word]
  funext r
  revert r
  apply forall_gpr <;> rfl

theorem stringStep_both {x86 : X86Ins} (word : x86.addressSize = 2) (n : Dword) (scp : Sigcontext) :
    (stringStep x86 n .esi (stringStep x86 n .edi scp)).context.gpr =
      ((scp.context.advance 7 (loWord n)).advance 6 (loWord n)).gpr := by
  rw [stringStep_si word]
  have same := stringStep_di word n scp
  show (fun q => if q = 6 then _ else _) = fun q => if q = 6 then _ else _
  simp only [same]

theorem direction (scp : Sigcontext) : (scp.eflags &&& DF ≠ 0) ↔ scp.context.eflags.getLsbD 10 = true := by
  have bit : scp.eflags &&& DF = if scp.eflags.getLsbD 10 then DF else 0 := BitVec.and_twoPow scp.eflags 10
  show _ ↔ scp.eflags.getLsbD 10 = true
  rw [bit]
  cases scp.eflags.getLsbD 10 <;> decide

theorem stride_eq (scp : Sigcontext) {k : Nat} (known : k = 1 ∨ k = 2 ∨ k = 4) :
    loWord ((if scp.eflags &&& DF ≠ 0 then -1 else 1) * BitVec.ofNat 32 k) = scp.context.stride k := by
  rw [Context.stride]
  simp only [direction scp]
  split <;> rcases known with rfl | rfl | rfl <;> rfl

theorem stringSteps_same (x86 : X86Ins) (n : Dword) (scp : Sigcontext) :
    stringStep x86 n .esi (stringStep x86 n .edi scp) =
      { scp with
        gpr := (stringStep x86 n .esi (stringStep x86 n .edi scp)).gpr,
        esp := (stringStep x86 n .esi (stringStep x86 n .edi scp)).esp } := by
  unfold stringStep
  split_ifs <;> rfl

section

variable (sized : x86.addressSize = 2 ∨ x86.addressSize = 4)
  (string : o.stringSource = segBase base scp x86 +
    if x86.addressSize = 2 then zext (scp.lword .esi) else scp.gpr .esi)

include sized string

theorem movs_decodes (prev : Dword) (width : Width) {k : Nat} (known : k = 1 ∨ k = 2 ∨ k = 4)
    (bytes : width.bytes o.operand32 = k) (read : Dword → Dword)
    (reads : ∀ a, (read a).setWidth (width.bits o.operand32) =
      (readDword m a).setWidth (width.bits o.operand32))
    {inc : Dword} (steps : inc = (if scp.eflags &&& DF ≠ 0 then -1 else 1) * BitVec.ofNat 32 k) :
    Decodes m base scp x86 o (.movs width)
      (BitVec.ofNat 32 k, stringLoad base x86 scp read prev,
        stringStep x86 inc .esi (stringStep x86 inc .edi scp)) := by
  have moved : x86.addressSize = 2 →
      (stringStep x86 inc .esi (stringStep x86 inc .edi scp)).context.gpr =
        (scp.context.afterStore o (.movs width)).gpr := by
    intro word
    rw [stringStep_both word, steps, stride_eq scp known, ← bytes]
    rfl
  have loaded : (stringLoad base x86 scp read prev).setWidth (width.bits o.operand32) =
      scp.context.stored m base o (.movs width) := by
    have source : stringLoad base x86 scp read prev = read o.stringSource := by
      rw [stringLoad, string]
      rcases sized with two | four
      · rw [if_pos two, if_pos two]
      · rw [if_neg (by rw [four]; decide), if_pos four, if_neg (by rw [four]; decide)]
    rw [source, reads]
    rfl
  rw [← bytes]
  exact decodes_plain (by simp) loaded moved (stringSteps_same x86 inc scp)

theorem switch_movsByte (here : csp 0 = 0xa4) :
    SwitchDecodes m base scp x86 o csp past prev (.movs .byte) := by
  have reads : ∀ a, ((m a).setWidth 32).setWidth 8 = (readDword m a).setWidth 8 := by
    intro a
    rw [zext_byte, readDword_byte]
  refine ⟨_, ?_, movs_decodes (k := 1) sized string prev .byte (Or.inl rfl) rfl (fun a => (m a).setWidth 32) reads
    (BitVec.mul_one _).symm⟩
  rw [memopSwitch, here]
  rfl

include size in
theorem switch_movs (here : csp 0 = 0xa5) :
    SwitchDecodes m base scp x86 o csp past prev (.movs .operand) := by
  cases size32 : o.operand32 with
  | false =>
    have two : x86.operandSize = 2 := by
      rw [size, size32]
      rfl
    have reads : ∀ a, (zext (readWord m a)).setWidth ((Width.operand).bits o.operand32) =
        (readDword m a).setWidth ((Width.operand).bits o.operand32) := by
      intro a
      rw [size32]
      exact (loWord_zext _).trans (readDword_word m a).symm
    refine ⟨_, ?_, movs_decodes (k := 2) sized string prev .operand (Or.inr (Or.inl rfl))
      (by rw [size32]; rfl) _ reads rfl⟩
    rw [memopSwitch, here]
    exact if_pos two
  | true =>
    have four : x86.operandSize = 4 := by
      rw [size, size32]
      rfl
    refine ⟨_, ?_, movs_decodes (k := 4) sized string prev .operand (Or.inr (Or.inr rfl))
      (by rw [size32]; rfl) _ (fun _ => rfl) rfl⟩
    rw [memopSwitch, here]
    exact (if_neg (by rw [four]; decide)).trans (if_pos four)

end

theorem stos_decodes (width : Width) {k : Nat} (known : k = 1 ∨ k = 2 ∨ k = 4)
    (bytes : width.bytes o.operand32 = k) {value : Dword}
    (low : value.setWidth (width.bits o.operand32) = (scp.gpr .eax).setWidth (width.bits o.operand32))
    {inc : Dword} (steps : inc = (if scp.eflags &&& DF ≠ 0 then -1 else 1) * BitVec.ofNat 32 k) :
    Decodes m base scp x86 o (.stos width) (BitVec.ofNat 32 k, value, stringStep x86 inc .edi scp) := by
  have moved : x86.addressSize = 2 →
      (stringStep x86 inc .edi scp).context.gpr = (scp.context.afterStore o (.stos width)).gpr := by
    intro word
    rw [stringStep_di word, steps, stride_eq scp known, ← bytes]
    rfl
  rw [← bytes]
  exact decodes_plain (by simp) low moved (stringStep_same x86 inc .edi scp)

theorem switch_stosByte (here : csp 0 = 0xaa) :
    SwitchDecodes m base scp x86 o csp past prev (.stos .byte) := by
  refine ⟨_, ?_, stos_decodes .byte (k := 1) (Or.inl rfl) rfl (and_byte (scp.gpr .eax))
    (BitVec.mul_one _).symm⟩
  rw [memopSwitch, here]
  rfl

include size in
theorem switch_stos (here : csp 0 = 0xab) :
    SwitchDecodes m base scp x86 o csp past prev (.stos .operand) := by
  cases size32 : o.operand32 with
  | false =>
    have two : x86.operandSize = 2 := by
      rw [size, size32]
      rfl
    have low : (zext (scp.lword .eax)).setWidth ((Width.operand).bits o.operand32) =
        (scp.gpr .eax).setWidth ((Width.operand).bits o.operand32) := by
      rw [size32]
      exact loWord_zext _
    refine ⟨_, ?_, stos_decodes .operand (k := 2) (Or.inr (Or.inl rfl)) (by rw [size32]; rfl) low rfl⟩
    rw [memopSwitch, here]
    exact if_pos two
  | true =>
    have four : x86.operandSize = 4 := by
      rw [size, size32]
      rfl
    refine ⟨_, ?_, stos_decodes .operand (k := 4) (Or.inr (Or.inr rfl)) (by rw [size32]; rfl)
      (congrArg (BitVec.setWidth _) rfl) rfl⟩
    rw [memopSwitch, here]
    exact (if_neg (by rw [four]; decide)).trans (if_pos four)

/-! INC and DEC. -/

theorem decodes_step {store : Store} (known : store = .inc ∨ store = .dec) {value : Dword}
    (low : value.setWidth (store.width.bits o.operand32) = scp.context.stored m base o store) :
    Decodes m base scp x86 o store (1, value, scp) := by
  rcases known with rfl | rfl
  · exact ⟨rfl, low, fun _ => rfl, rfl, rfl, rfl, rfl⟩
  · exact ⟨rfl, low, fun _ => rfl, rfl, rfl, rfl, rfl⟩

theorem increment_byte : ∀ b : Byte, (b.setWidth 32 + 1 : Dword).setWidth 8 = (increment b).value := by
  decide

theorem decrement_byte : ∀ b : Byte, (b.setWidth 32 - 1 : Dword).setWidth 8 = (decrement b).value := by
  decide

include address in
theorem switch_inc (here : csp 0 = 0xfe) (first : regField (csp 1) = 0) :
    SwitchDecodes m base scp x86 o csp past prev .inc := by
  have bits : ∀ b : Byte, regField b = 0 → b &&& 0x38 = 0 := by decide
  refine ⟨(1, (m scp.cr2).setWidth 32 + 1, scp), ?_, decodes_step (Or.inl rfl) ?_⟩
  · rw [memopSwitch, here]
    exact congrArg (fun v => some (1, v, scp)) (if_pos (bits _ first))
  · rw [← address]
    exact increment_byte _

include address in
theorem switch_dec (here : csp 0 = 0xfe) (second : regField (csp 1) = 1) :
    SwitchDecodes m base scp x86 o csp past prev .dec := by
  have bits : ∀ b : Byte, regField b = 1 → b &&& 0x38 = 8 := by decide
  refine ⟨(1, (m scp.cr2).setWidth 32 - 1, scp), ?_, decodes_step (Or.inr rfl) ?_⟩
  · rw [memopSwitch, here]
    have eight := bits _ second
    exact congrArg (fun v => some (1, v, scp))
      ((if_neg (by rw [eight]; decide)).trans (if_pos eight))
  · rw [← address]
    exact decrement_byte _

def StoreEnds (o : StoreOperands) (m : Memory) (past : Dword) : Store → Prop
  | .alu _ width source | .mov width source => ImmediateEnds o m past width source
  | _ => True

def registerOpcodes : List Byte :=
  [0x00, 0x08, 0x10, 0x18, 0x20, 0x28, 0x30, 0x01, 0x09, 0x11, 0x19, 0x21, 0x29, 0x31, 0x88, 0x89]

theorem registerOpcodes_form : ∀ op ∈ registerOpcodes, opcodeForm op = some ⟨true, .none⟩ := by decide

section

variable {store : Store} (sizes : store.width = .operand → x86.operandSize = sizeBytes o.operand32)
  (code16 : store = .pop → x86.bit32 = 0)
  (string : ∀ width, store = .movs width → (x86.addressSize = 2 ∨ x86.addressSize = 4) ∧
    o.stringSource = segBase base scp x86 +
      if x86.addressSize = 2 then zext (scp.lword .esi) else scp.gpr .esi)

include address sizes code16 string

/-- A store is decoded, if its operand size is one of the two, its immediate is where the code looks
for it, and so is its source. -/
theorem switch_store {form : OpcodeForm} (defined : opcodeForm (csp 0) = some form)
    (register : form.modrm = true → o.register = regField (csp 1))
    (kind : StoreOpcode (csp 0) (csp 1) store) (ends : StoreEnds o m past store) :
    SwitchDecodes m base scp x86 o csp past prev store := by
  have named : csp 0 ∈ registerOpcodes → o.register = regField (csp 1) := by
    intro known
    have withModrm := registerOpcodes_form _ known
    rw [defined, Option.some.injEq] at withModrm
    exact register (by rw [withModrm])
  cases kind with
  | aluByte opcode => exact switch_aluByte address (named (List.mem_append_left _ opcode)) opcode
  | aluOperand opcode =>
    have known := List.mem_append_right [0x00, 0x08, 0x10, 0x18, 0x20, 0x28, 0x30]
      (List.mem_append_left [0x88, 0x89] opcode)
    exact switch_aluOperand address (sizes rfl) (named known) opcode
  | groupByte opcode => exact switch_groupByte address opcode ends
  | group opcode => exact switch_group address (sizes rfl) opcode ends
  | groupSigned opcode => exact switch_groupSigned address (sizes rfl) opcode ends
  | movByte opcode => exact switch_movByte (named (opcode ▸ by decide)) opcode
  | movOperand opcode => exact switch_movOperand (sizes rfl) (named (opcode ▸ by decide)) opcode
  | pop opcode => exact switch_pop (sizes rfl) (code16 rfl) opcode
  | storeByte opcode => exact switch_storeByte opcode
  | storeOperand opcode => exact switch_storeOperand (sizes rfl) opcode
  | movsByte opcode => exact switch_movsByte (string _ rfl).1 (string _ rfl).2 opcode
  | movs opcode => exact switch_movs (sizes rfl) (string _ rfl).1 (string _ rfl).2 opcode
  | stosByte opcode => exact switch_stosByte opcode
  | stos opcode => exact switch_stos (sizes rfl) opcode
  | movImmediateByte opcode => exact switch_movImmediateByte opcode ends
  | movImmediate opcode => exact switch_movImmediate (sizes rfl) opcode ends
  | dec opcode second => exact switch_dec address opcode second
  | inc opcode first => exact switch_inc address opcode first

end

end Switch

end Pmdapi
