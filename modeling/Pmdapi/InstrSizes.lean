import Mathlib.Tactic.SplitIfs
import Pmdapi.BumpHost
import Pmdapi.InstrPrefixes
import Pmdapi.Memop

/-! Operand and address size in the two decoders of `instr_dec.c` and `instremu.c`. -/

namespace Pmdapi
open Bytes X86

/-! ## The two sizes -/

theorem sizeBytes_cases (b : Bool) : sizeBytes b = 2 ∨ sizeBytes b = 4 := by
  cases b
  · exact .inl rfl
  · exact .inr rfl

theorem sizeBytes_injective {b c : Bool} (same : sizeBytes b = sizeBytes c) : b = c := by
  revert same
  cases b <;> cases c <;> decide

/-! ## The prefix loop of `instr_len` -/

theorem scanPrefixes_read (p : Nat → Byte) (fuel : Nat) (scan : PrefixScan) :
    scan.read + 1 ≤ (scanPrefixes p (fuel + 1) scan).read := by
  induction fuel generalizing scan with
  | zero =>
    unfold scanPrefixes
    dsimp only
    split_ifs <;> exact Nat.le_refl _
  | succ fuel ih =>
    have later (next : PrefixScan) (one : next.read = scan.read + 1) :
        scan.read + 1 ≤ (scanPrefixes p (fuel + 1) next).read := by
      have := ih next
      omega
    rw [scanPrefixes]
    dsimp only
    split_ifs
    · exact later _ rfl
    · exact later _ rfl
    · exact later _ rfl
    · exact later _ rfl
    · exact Nat.le_refl _

theorem scanPrefixes_past (p : Nat → Byte) {bytes : List Byte} (legacy : ∀ b ∈ bytes, b ∈ legacyPrefixes) :
    ∀ (fuel read : Nat) (osp asp : Dword), bytes.length < fuel → Begins (fun i => p (read + i)) bytes →
      read + bytes.length + 1 ≤ (scanPrefixes p fuel ⟨read, osp, asp⟩).read := by
  induction bytes with
  | nil =>
    intro fuel read osp asp enough _
    obtain ⟨fuel, rfl⟩ : ∃ k, fuel = k + 1 := ⟨fuel - 1, by rw [List.length_nil] at enough; omega⟩
    exact scanPrefixes_read p fuel ⟨read, osp, asp⟩
  | cons b rest ih =>
    intro fuel read osp asp enough begins
    rw [List.length_cons] at enough
    obtain ⟨fuel, rfl⟩ : ∃ k, fuel = k + 1 := ⟨fuel - 1, by omega⟩
    have here : p read = b := begins.head
    have later : Begins (fun i => p (read + 1 + i)) rest := by
      intro i inside
      have next : p (read + (i + 1)) = rest.getD i 0 := begins.tail i inside
      rwa [show read + (i + 1) = read + 1 + i by omega] at next
    rw [scanPrefixes_legacy p fuel read osp asp (legacy b List.mem_cons_self) here]
    have rest := ih (fun c inside => legacy c (List.mem_cons_of_mem b inside)) fuel (read + 1)
      (toggled osp 0x66 [b]) (toggled asp 0x67 [b]) (by omega) later
    rw [List.length_cons]
    omega

/-! ## Both decoders -/

/-- Both decoders take the sizes that the prefixes select, and the same number of prefixes. -/
structure SizesDecoded (p : Nat → Byte) (is32 : Bool) (prefixes : List Byte) : Prop where
  operand : (x86HandlePrefixes p (signedBit is32)).2.operandSize =
    sizeBytes (sizeAttribute is32 0x66 prefixes)
  address : (x86HandlePrefixes p (signedBit is32)).2.addressSize =
    sizeBytes (sizeAttribute is32 0x67 prefixes)
  count : (x86HandlePrefixes p (signedBit is32)).1 =
    (scanPrefixes p 17 ⟨0, signedBit is32, signedBit is32⟩).read - 1
  lenOperand : decide ((scanPrefixes p 17 ⟨0, signedBit is32, signedBit is32⟩).osp ≠ 0) =
    sizeAttribute is32 0x66 prefixes
  lenAddress : decide ((scanPrefixes p 17 ⟨0, signedBit is32, signedBit is32⟩).asp ≠ 0) =
    sizeAttribute is32 0x67 prefixes

def Toggles (toggle : Byte) (prefixes : List Byte) : Prop :=
  prefixes.count toggle = 0 ∨ prefixes.count toggle % 2 = 1

instance (toggle : Byte) (prefixes : List Byte) : Decidable (Toggles toggle prefixes) :=
  inferInstanceAs (Decidable (_ ∨ _))

theorem toggles_iff (is32 : Bool) (toggle : Byte) (prefixes : List Byte) :
    countedSize is32 toggle prefixes = sizeAttribute is32 toggle prefixes ↔ Toggles toggle prefixes := by
  have parity : decide (prefixes.count toggle % 2 = 1) = decide (toggle ∈ prefixes) ↔
      Toggles toggle prefixes := by
    rw [decide_eq_decide, ← List.count_pos_iff, Toggles]
    omega
  rw [← parity, countedSize, sizeAttribute]
  cases is32 <;> simp

section Sizes

variable {p : Nat → Byte} {prefixes : List Byte} {next : Byte} (few : prefixes.length ≤ 15)
  (handled : ∀ b ∈ prefixes, b ∈ handledPrefixes) (other : next ∉ handledPrefixes)
  (begins : Begins p (prefixes ++ [next]))
include few handled other begins

theorem handlePrefixes_sequence (bit32 : Dword) :
    x86HandlePrefixes p bit32 = (prefixes.length, (X86Ins.start bit32).after prefixes) := by
  have here : p prefixes.length = next := begins.right.head
  have run := handleFrom_prefixes p handled (2 ^ 32) 0 (.start bit32) (by omega)
    (by simpa using begins.left) (by rw [Nat.zero_add, here]; exact other)
  rw [Nat.zero_add] at run
  exact run

theorem scanPrefixes_sequence (unlocked : next ≠ 0xf0) :
    scanPrefixes p 17 ⟨0, 0, 0⟩ = ⟨prefixes.length + 1, sizeBit (countedSize false 0x66 prefixes),
      sizeBit (countedSize false 0x67 prefixes)⟩ := by
  have here : p prefixes.length = next := begins.right.head
  have ends : next ∉ legacyPrefixes := fun legacy => (handled_or_lock legacy).elim other unlocked
  have run := scanPrefixes_prefixes p (fun b inside => legacy_of_handled (handled b inside)) 17 0 false false
    (by omega) (by simpa using begins.left) (by rw [Nat.zero_add, here]; exact ends)
  rw [Nat.zero_add] at run
  exact run

theorem sizesDecoded_iff (is32 : Bool) : SizesDecoded p is32 prefixes ↔
    is32 = false ∧ Toggles 0x66 prefixes ∧ Toggles 0x67 prefixes ∧ next ≠ 0xf0 := by
  constructor
  · intro decoded
    have narrow : is32 = false := by
      cases is32 with
      | false => rfl
      | true =>
        have operand := decoded.operand
        rw [handlePrefixes_sequence few handled other begins] at operand
        have wide : ((X86Ins.start (signedBit true)).after prefixes).operandSize =
            if prefixes.count 0x66 % 2 = 1 then 6 else 0 := after_toggled (fun _ => rfl) take_operandSize _
        rw [operand] at wide
        rcases sizeBytes_cases (sizeAttribute true 0x66 prefixes) with two | four
        · rw [two] at wide
          split at wide <;> exact absurd wide (by decide)
        · rw [four] at wide
          split at wide <;> exact absurd wide (by decide)
    subst narrow
    have operand := decoded.operand
    have address := decoded.address
    have count := decoded.count
    rw [handlePrefixes_sequence few handled other begins] at operand address count
    have size : ((X86Ins.start (signedBit false)).after prefixes).operandSize =
        sizeBytes (countedSize false 0x66 prefixes) := after_operandSize rfl
    have width : ((X86Ins.start (signedBit false)).after prefixes).addressSize =
        sizeBytes (countedSize false 0x67 prefixes) := after_addressSize rfl
    refine ⟨rfl, (toggles_iff false _ _).mp (sizeBytes_injective (size.symm.trans operand)),
      (toggles_iff false _ _).mp (sizeBytes_injective (width.symm.trans address)), ?_⟩
    rintro rfl
    have legacy : ∀ b ∈ prefixes ++ [0xf0], b ∈ legacyPrefixes := by
      intro b inside
      rcases List.mem_append.mp inside with inside | last
      · exact legacy_of_handled (handled b inside)
      · rw [List.mem_singleton.mp last]
        decide
    have past := scanPrefixes_past p legacy 17 0 0 0 (by simp; omega) (by simpa using begins)
    have same : prefixes.length = (scanPrefixes p 17 ⟨0, 0, 0⟩).read - 1 := count
    rw [List.length_append, List.length_singleton] at past
    omega
  · rintro ⟨rfl, operand, address, unlocked⟩
    have handles := handlePrefixes_sequence few handled other begins (signedBit false)
    have scans : scanPrefixes p 17 ⟨0, signedBit false, signedBit false⟩ = _ :=
      scanPrefixes_sequence few handled other begins unlocked
    have size := (toggles_iff false _ _).mpr operand
    have width := (toggles_iff false _ _).mpr address
    constructor
    · rw [handles, ← size]
      exact after_operandSize rfl
    · rw [handles, ← width]
      exact after_addressSize rfl
    · rw [handles, scans]
      rfl
    · rw [scans, sizeBit_ne_zero]
      exact size
    · rw [scans, sizeBit_ne_zero]
      exact width

end Sizes

/-! ## The assertion of `decode_memop` -/

section Assertion

variable {m : Memory} {base : Word → Dword} {size32 : Word → Bool} {scp : Sigcontext}

theorem memopSwitch_width {x86 : X86Ins} {csp : Nat → Byte} {past op : Dword}
    {r : Dword × Dword × Sigcontext} (size : x86.operandSize = 2 ∨ x86.operandSize = 4)
    (decodes : memopSwitch m base scp x86 csp past op = some r) : r.1 ≠ 0 := by
  have width : x86.operandSize ≠ 0 := by
    rcases size with two | four
    · rw [two]
      decide
    · rw [four]
      decide
  have bySize (word dword : Dword) : (bySize x86 op word dword).1 ≠ 0 := by
    rcases size with two | four
    · simp [Pmdapi.bySize, two]
    · simp [Pmdapi.bySize, four]
  have binary (code : Byte) (word dword : Dword) : (binaryBySize m scp x86 op code word dword).1 ≠ 0 := by
    rcases size with two | four
    · simp [binaryBySize, two]
    · simp [binaryBySize, four]
  unfold memopSwitch at decodes
  dsimp only at decodes
  split at decodes
  -- the string stores by operand size, and the default
  case h_13 | h_15 =>
    rcases size with two | four
    · rw [if_pos two] at decodes
      obtain rfl := Option.some.inj decodes
      show (2 : Dword) ≠ 0
      decide
    · rw [if_neg (by rw [four]; decide), if_pos four] at decodes
      obtain rfl := Option.some.inj decodes
      show (4 : Dword) ≠ 0
      decide
  case h_31 => cases decodes
  all_goals
    obtain rfl := Option.some.inj decodes
    first | exact width | exact bySize _ _ | exact binary _ _ _ | (show (1 : Dword) ≠ 0; decide)

theorem decodeMemop_asserts (op : Dword) (size :
    (x86HandlePrefixes (codeAt m (base scp.cs + scp.eip)) (signedBit (size32 scp.cs))).2.operandSize = 2 ∨
      (x86HandlePrefixes (codeAt m (base scp.cs + scp.eip)) (signedBit (size32 scp.cs))).2.operandSize = 4) :
    decodeMemop m base size32 scp op ≠ none := by
  unfold decodeMemop
  dsimp only
  split
  next => nofun
  next =>
    split
    next => nofun
    next ret value after switched =>
      have nonzero : ret ≠ 0 := memopSwitch_width size switched
      rw [if_neg nonzero]
      nofun

/-- The two decoders take the right sizes, and the assertion holds, if and only if the code is 16-bit, each
size prefix is written an odd number of times or not at all, and no LOCK follows. -/
theorem sizes_decoded_iff {prefixes : List Byte} {next : Byte} (few : prefixes.length ≤ 15)
    (handled : ∀ b ∈ prefixes, b ∈ handledPrefixes) (other : next ∉ handledPrefixes)
    (begins : Begins (codeAt m (base scp.cs + scp.eip)) (prefixes ++ [next])) :
    (SizesDecoded (codeAt m (base scp.cs + scp.eip)) (size32 scp.cs) prefixes ∧
        ∀ op, decodeMemop m base size32 scp op ≠ none) ↔
      size32 scp.cs = false ∧ Toggles 0x66 prefixes ∧ Toggles 0x67 prefixes ∧ next ≠ 0xf0 := by
  have sizes := sizesDecoded_iff few handled other begins (size32 scp.cs)
  constructor
  · intro decoded
    exact sizes.mp decoded.1
  · intro right
    have decoded := sizes.mpr right
    refine ⟨decoded, fun op => decodeMemop_asserts op ?_⟩
    rw [decoded.operand]
    exact sizeBytes_cases _

end Assertion

/-- `66 C7`: a dword store in 16-bit code. -/
def dwordStore : Memory := Bytes.store (fun _ => 0) 0 [0x66, 0xc7]

theorem dwordStore_begins : Begins (codeAt dwordStore ((fun _ : Word => (0 : Dword)) bumpStart.scp.cs +
    bumpStart.scp.eip)) ([0x66] ++ [0xc7]) := by decide +kernel

theorem sizes_decoded_dword :
    SizesDecoded (codeAt dwordStore ((fun _ : Word => (0 : Dword)) bumpStart.scp.cs + bumpStart.scp.eip))
      ((fun _ => false) bumpStart.scp.cs) [0x66] ∧
      ∀ op, decodeMemop dwordStore (fun _ => 0) (fun _ => false) bumpStart.scp op ≠ none :=
  (@sizes_decoded_iff dwordStore (fun _ => 0) (fun _ => false) bumpStart.scp [0x66] 0xc7 (by decide)
    (by decide) (by decide) dwordStore_begins).mpr ⟨rfl, by decide, by decide, by decide⟩

/-- A prefix 66h in a 32-bit segment: the operand size is 6, and the assertion fails. -/
theorem sizes_decoded_misses_32bit :
    (x86HandlePrefixes (codeAt dwordStore 0) (signedBit true)).2.operandSize = 6 ∧
    ¬ ∀ (m : Memory) (base : Word → Dword) (size32 : Word → Bool) (scp : Sigcontext) (prefixes : List Byte)
      (next : Byte), prefixes.length ≤ 15 → (∀ b ∈ prefixes, b ∈ handledPrefixes) → next ∉ handledPrefixes →
      Begins (codeAt m (base scp.cs + scp.eip)) (prefixes ++ [next]) →
      SizesDecoded (codeAt m (base scp.cs + scp.eip)) (size32 scp.cs) prefixes ∧
        ∀ op, decodeMemop m base size32 scp op ≠ none := by
  refine ⟨by decide +kernel, fun always => ?_⟩
  have decoded := (always dwordStore (fun _ => 0) (fun _ => true) bumpStart.scp [0x66] 0xc7 (by decide)
    (by decide) (by decide) dwordStore_begins).2 0
  have fails : (decodeMemop dwordStore (fun _ => 0) (fun _ => true) bumpStart.scp 0).isNone := by decide +kernel
  exact decoded (Option.isNone_iff_eq_none.mp fails)

end Pmdapi
