import Pmdapi.Library.DownStack
import Pmdapi.BumpHost
import Pmdapi.Clients

/-! What a mouse callback pushes on the client's stack, and what its return handler makes of both
stacks. -/

namespace Pmdapi
open Bytes Effect

variable {σ : Type} (h : DpmiHost σ)

/-! ## The real-mode stack -/

def rmStackByte (rmreg : RealModeCallStructure) (k : Nat) : Dword :=
  segoff2linear rmreg.ss 0 + zext (rmreg.sp + BitVec.ofNat 16 k)

def rmStackWord (m : Memory) (rmreg : RealModeCallStructure) (k : Nat) : Word :=
  m (rmStackByte rmreg (k + 1)) ++ m (rmStackByte rmreg k)

def rmTop (m : Memory) (rmreg : RealModeCallStructure) : Far :=
  ⟨rmStackWord m rmreg 0, rmStackWord m rmreg 2⟩

theorem doRetf_eq (m : Memory) (rmreg : RealModeCallStructure) :
    doRetf m rmreg = { rmreg with
      ip := (rmTop m rmreg).offset, cs := (rmTop m rmreg).segment, sp := rmreg.sp + 4 } := by
  have next : rmreg.sp + 2 + 1 = rmreg.sp + BitVec.ofNat 16 3 := by
    rw [BitVec.add_assoc]
    rfl
  simp only [doRetf, popw, next, rmTop, rmStackWord, rmStackByte, BitVec.add_zero]
  rfl

/-! ## The client's stack -/

def stackAddress (is32 : Bool) (base esp : Dword) : Dword :=
  base + if is32 then esp else zext (loWord esp)

def raiseEsp (is32 : Bool) (esp : Dword) (n : Nat) : Dword :=
  if is32 then esp + BitVec.ofNat 32 n else setLoWord esp (loWord esp + BitVec.ofNat 16 n)

def lowerEsp (is32 : Bool) (esp : Dword) (n : Nat) : Dword :=
  if is32 then esp - BitVec.ofNat 32 (4 * n) else setLoWord esp (loWord esp - BitVec.ofNat 16 (2 * n))

theorem raiseEsp_raiseEsp (is32 : Bool) (esp : Dword) (a b : Nat) :
    raiseEsp is32 (raiseEsp is32 esp a) b = raiseEsp is32 esp (a + b) := by
  cases is32 with
  | true => simp only [raiseEsp, if_true, BitVec.add_assoc, BitVec.ofNat_add]
  | false =>
    simp only [raiseEsp, if_false, Bool.false_eq_true, loWord_setLoWord, setLoWord_setLoWord,
      BitVec.add_assoc, BitVec.ofNat_add]

theorem raiseEsp_lowerEsp (is32 : Bool) (esp : Dword) (n : Nat) :
    raiseEsp is32 (lowerEsp is32 esp n) (itemSize is32 * n) = esp := by
  cases is32 with
  | true => simp only [raiseEsp, lowerEsp, itemSize, if_true, BitVec.sub_add_cancel]
  | false =>
    simp only [raiseEsp, lowerEsp, itemSize, if_false, Bool.false_eq_true, loWord_setLoWord,
      setLoWord_setLoWord, BitVec.sub_add_cancel, setLoWord_loWord]

theorem stackAddress_raised {is32 : Bool} {esp : Dword} {n j : Nat} (base : Dword)
    (room : is32 = false → 2 * n ≤ (loWord esp).toNat) (small : n ≤ 6) (pushed : j ≤ n) :
    stackAddress is32 base (raiseEsp is32 (lowerEsp is32 esp n) (itemSize is32 * j)) =
      itemAddress is32 (stackAddress is32 base esp) (n - j) := by
  cases is32 with
  | true =>
    simp only [stackAddress, raiseEsp, lowerEsp, itemAddress, itemSize, if_true]
    have down : (BitVec.ofNat 32 (4 * n)).toNat = 4 * n := Nat.mod_eq_of_lt (by omega)
    have up : (BitVec.ofNat 32 (4 * j)).toNat = 4 * j := Nat.mod_eq_of_lt (by omega)
    have left : (BitVec.ofNat 32 (4 * (n - j))).toNat = 4 * (n - j) := Nat.mod_eq_of_lt (by omega)
    bv_omega
  | false =>
    have room := room rfl
    simp only [stackAddress, raiseEsp, lowerEsp, itemAddress, itemSize, if_false, Bool.false_eq_true,
      loWord_setLoWord]
    have down : (BitVec.ofNat 16 (2 * n)).toNat = 2 * n := Nat.mod_eq_of_lt (by omega)
    have up : (BitVec.ofNat 16 (2 * j)).toNat = 2 * j := Nat.mod_eq_of_lt (by omega)
    have left : (BitVec.ofNat 32 (2 * (n - j))).toNat = 2 * (n - j) := Nat.mod_eq_of_lt (by omega)
    generalize loWord esp = sp at *
    simp only [zext]
    bv_omega

def farReturnAddress (is32 : Bool) (base : Dword) (m : Memory) (esp : Dword) : Dword × Word :=
  (readItem is32 m (stackAddress is32 base esp),
    loWord (readItem is32 m (stackAddress is32 base (raiseEsp is32 esp (itemSize is32)))))

def clientRetf (is32 : Bool) : M σ Unit := do
  let base ← reads fun s => getSegmentBase h s s.scp.ss
  let address ← reads fun s => farReturnAddress is32 base s.mem s.scp.esp
  setScp fun scp =>
    { scp with
      eip := address.1, cs := address.2, esp := raiseEsp is32 scp.esp (2 * itemSize is32) }

/-! ## A whole callback -/

def callHandler (is32 : Bool) (target : Pmaddr) : OpsHandler → M σ Unit
  | .mouseCallback => mouseCallback h is32 target
  | .ps2MouseCallback => ps2MouseCallback h is32 target
  | _ => pure ()

def callbackItems : Rmcb → Nat
  | .io => 0
  | .ms => 2
  | .ps2ms => 6

/-- The state in which the routine makes its far return. It has kept its stack pointer, its return
address and the real-mode stack. -/
structure AtFarReturn (is32 : Bool) (s started t : State σ) : Prop where
  ss : t.scp.ss = started.scp.ss
  esp : t.scp.esp = started.scp.esp
  base : getSegmentBase h t t.scp.ss = getSegmentBase h s s.scp.ss
  address : farReturnAddress is32 (getSegmentBase h s s.scp.ss) t.mem t.scp.esp =
    farReturnAddress is32 (getSegmentBase h s s.scp.ss) started.mem started.scp.esp
  rmSp : t.rmreg.sp = started.rmreg.sp
  rmTop : rmTop t.mem t.rmreg = rmTop started.mem started.rmreg

/-- What the host finds after the callback: the client's stack and its place in the code as they were,
the real-mode side returned to its caller. -/
structure Restored (s u : State σ) : Prop where
  esp : u.scp.esp = s.scp.esp
  eip : u.scp.eip = s.scp.eip
  cs : u.scp.cs = s.scp.cs
  rmSp : u.rmreg.sp = s.rmreg.sp + 4
  rmIp : u.rmreg.ip = (rmTop s.mem s.rmreg).offset
  rmCs : u.rmreg.cs = (rmTop s.mem s.rmreg).segment

def FindsWords (is32 : Bool) (s started : State σ) : Prop :=
  ∀ i < 4, readItem is32 started.mem
      (stackAddress is32 (getSegmentBase h started started.scp.ss)
        (raiseEsp is32 started.scp.esp (itemSize is32 * (2 + i)))) =
    zext (rmStackWord s.mem s.rmreg (4 + 2 * i))

def Balanced (n : Rmcb) (is32 : Bool) (target : Pmaddr) (s : State σ) : Prop :=
  let started := final (callHandler h is32 target (rmcbHandlers n)) s
  let ret : M σ Unit := retHandler is32 (rmcbRetHandlers n)
  if validAndUsedSelector h s target.selector then
    (n = .ps2ms → FindsWords h is32 s started) ∧
      ∀ t, AtFarReturn h is32 s started t → Restored s (final ret (final (clientRetf h is32) t))
  else Restored s (final ret started)

def Balances (n : Rmcb) (is32 : Bool) (target : Pmaddr) (s : State σ) : Prop :=
  ∀ m, Balanced h n is32 target { s with mem := m }

def clientStack (is32 : Bool) (s : State σ) : Dword := selAdr h s s.scp.ss s.scp.esp is32

/-- The places where the two stacks do not get in each other's way. A 16-bit client's (E)IP and SP
must not need more than their low words. -/
structure StackRoom (n : Rmcb) (is32 : Bool) (s : State σ) : Prop where
  eip : is32 = false → s.scp.eip.toNat < 2 ^ 16
  room : is32 = false → 2 * callbackItems n ≤ (loWord s.scp.esp).toNat
  apart : ∀ k < 4, ¬(stackItems is32 (clientStack h is32 s) (callbackItems n)).Covers (rmStackByte s.rmreg k)
  words : n = .ps2ms → s.rmreg.sp.toNat + 12 ≤ 2 ^ 16

/-! ## What the handlers push -/

structure Starts (n : Rmcb) (is32 : Bool) (s started : State σ) : Prop where
  ss : started.scp.ss = s.scp.ss
  esp : started.scp.esp = lowerEsp is32 s.scp.esp (callbackItems n)
  rmreg : started.rmreg = s.rmreg
  base : n = .ps2ms → getSegmentBase h started started.scp.ss = getSegmentBase h s s.scp.ss

theorem mouseCallback_starts {is32 : Bool} {target : Pmaddr} {s : State σ}
    (valid : validAndUsedSelector h s target.selector = true) :
    Starts h .ms is32 s (final (mouseCallback h is32 target) s) ∧
      (final (mouseCallback h is32 target) s).mem =
        writeItem is32 (writeItem is32 s.mem
          (itemAddress is32 (selAdr h s s.scp.ss s.scp.esp is32) 1) (zext s.scp.cs))
          (itemAddress is32 (selAdr h s s.scp.ss s.scp.esp is32) 2) s.scp.eip := by
  rw [mouseCallback, final_reads_bind, valid]
  cases is32 <;> exact ⟨⟨rfl, rfl, rfl, nofun⟩, rfl⟩

def ps2Copied (is32 : Bool) (sp : Dword) (rmreg : RealModeCallStructure) (m : Memory) : Nat → Memory
  | 0 => m
  | i + 1 =>
    let before := ps2Copied is32 sp rmreg m i
    writeItem is32 before (itemAddress is32 sp (i + 1)) (zext (ps2Data before rmreg (i + 1)))

theorem ps2MouseCallback_starts {is32 : Bool} {target : Pmaddr} {s : State σ}
    (valid : validAndUsedSelector h s target.selector = true) :
    Starts h .ps2ms is32 s (final (ps2MouseCallback h is32 target) s) ∧
      (final (ps2MouseCallback h is32 target) s).mem =
        writeItem is32 (writeItem is32
          (ps2Copied is32 (selAdr h s s.scp.ss s.scp.esp is32) s.rmreg s.mem 4)
          (itemAddress is32 (selAdr h s s.scp.ss s.scp.esp is32) 5) (zext s.scp.cs))
          (itemAddress is32 (selAdr h s s.scp.ss s.scp.esp is32) 6) s.scp.eip := by
  rw [ps2MouseCallback, final_reads_bind, valid]
  cases is32 <;> exact ⟨⟨rfl, rfl, rfl, fun _ => rfl⟩, rfl⟩

theorem items_small (is32 : Bool) {n : Nat} (few : n ≤ 6) : itemSize is32 * n < 2 ^ 32 :=
  Nat.lt_of_le_of_lt (Nat.mul_le_mul (itemSize_le is32) few) (by decide)

section Values

variable (is32 : Bool) (sp : Dword) (rmreg : RealModeCallStructure) (m : Memory)

def ps2Values (i : Nat) : List Dword :=
  (List.range i).map fun j => zext (ps2Data (ps2Copied is32 sp rmreg m j) rmreg (j + 1))

theorem pushed_ps2Copied {i : Nat} (small : i ≤ 6) :
    Pushed is32 sp m (ps2Values is32 sp rmreg m i) (ps2Copied is32 sp rmreg m i) := by
  induction i with
  | zero => exact .nil is32 sp m
  | succ i ih =>
    have before := ih (by omega)
    have length : (ps2Values is32 sp rmreg m i).length = i := by simp [ps2Values]
    have pushed := before.push (items_small is32 (by omega))
      (zext (ps2Data (ps2Copied is32 sp rmreg m i) rmreg (i + 1)))
    rw [length] at pushed
    have values : ps2Values is32 sp rmreg m (i + 1) = ps2Values is32 sp rmreg m i ++
        [zext (ps2Data (ps2Copied is32 sp rmreg m i) rmreg (i + 1))] := by
      rw [ps2Values, List.range_succ, List.map_append]
      rfl
    rw [values]
    exact pushed

def callbackValues (scp : Sigcontext) : Rmcb → List Dword
  | .io => []
  | .ms => [zext scp.cs, scp.eip]
  | .ps2ms => ps2Values is32 sp rmreg m 4 ++ [zext scp.cs, scp.eip]

theorem length_callbackValues (scp : Sigcontext) (n : Rmcb) :
    (callbackValues is32 sp rmreg m scp n).length = callbackItems n := by
  cases n <;> simp [callbackValues, callbackItems, ps2Values]

end Values

theorem callHandler_starts {n : Rmcb} (mouse : n ≠ .io) (is32 : Bool) {target : Pmaddr} {s : State σ}
    (valid : validAndUsedSelector h s target.selector = true) :
    let started := final (callHandler h is32 target (rmcbHandlers n)) s
    Starts h n is32 s started ∧
      Pushed is32 (clientStack h is32 s) s.mem
        (callbackValues is32 (clientStack h is32 s) s.rmreg s.mem s.scp n) started.mem := by
  cases n with
  | io => exact absurd rfl mouse
  | ms =>
    obtain ⟨starts, mem⟩ := @mouseCallback_starts σ h is32 target s valid
    refine ⟨starts, ?_⟩
    rw [show final (callHandler h is32 target (rmcbHandlers .ms)) s =
      final (mouseCallback h is32 target) s from rfl, mem]
    exact (Pushed.nil is32 _ s.mem).push_two (items_small is32 (by decide)) _ _
  | ps2ms =>
    obtain ⟨starts, mem⟩ := @ps2MouseCallback_starts σ h is32 target s valid
    refine ⟨starts, ?_⟩
    rw [show final (callHandler h is32 target (rmcbHandlers .ps2ms)) s =
      final (ps2MouseCallback h is32 target) s from rfl, mem]
    have copied := pushed_ps2Copied is32 (clientStack h is32 s) s.rmreg s.mem (i := 4) (by decide)
    have length : (ps2Values is32 (clientStack h is32 s) s.rmreg s.mem 4).length = 4 := by simp [ps2Values]
    have pushed := copied.push_two (items_small is32 (by rw [length])) (zext s.scp.cs) s.scp.eip
    rw [length] at pushed
    exact pushed

/-! ## With room for both stacks -/

section Room

variable {h} {n : Rmcb} {is32 : Bool} {target : Pmaddr} {s started : State σ}

theorem clientStack_ldt (ldt : s.scp.ss &&& 4 ≠ 0) :
    clientStack h is32 s = stackAddress is32 (getSegmentBase h s s.scp.ss) s.scp.esp := by
  rw [clientStack, selAdr, if_neg ldt]
  rfl

/-- The routine finds what was pushed, counted up from SS:(E)SP. -/
theorem item_found (ldt : s.scp.ss &&& 4 ≠ 0) (starts : Starts h n is32 s started)
    (pushed : Pushed is32 (clientStack h is32 s) s.mem
      (callbackValues is32 (clientStack h is32 s) s.rmreg s.mem s.scp n) started.mem)
    (room : is32 = false → 2 * callbackItems n ≤ (loWord s.scp.esp).toNat) {i j : Nat} {v : Dword}
    (listed : (callbackValues is32 (clientStack h is32 s) s.rmreg s.mem s.scp n)[i]? = some v)
    (depth : i + 1 + j = callbackItems n) :
    readItem is32 started.mem (stackAddress is32 (getSegmentBase h s s.scp.ss)
      (raiseEsp is32 started.scp.esp (itemSize is32 * j))) = cutItem is32 v := by
  have few : callbackItems n ≤ 6 := by cases n <;> decide
  have place : callbackItems n - j = i + 1 := by omega
  rw [starts.esp, stackAddress_raised _ room few (by omega), place, ← clientStack_ldt ldt]
  exact pushed.read listed

theorem listed_eip (mouse : n ≠ .io) (sp : Dword) (rmreg : RealModeCallStructure) (m : Memory)
    (scp : Sigcontext) :
    (callbackValues is32 sp rmreg m scp n)[callbackItems n - 1]? = some scp.eip ∧
      (callbackValues is32 sp rmreg m scp n)[callbackItems n - 2]? = some (zext scp.cs) := by
  cases n with
  | io => exact absurd rfl mouse
  | ms => exact ⟨rfl, rfl⟩
  | ps2ms => exact ⟨rfl, rfl⟩

theorem cutItem_zext (w : Word) : cutItem is32 (zext w) = zext w := by
  cases is32 with
  | true => rfl
  | false => exact congrArg zext (loWord_zext w)

theorem cutItem_small {v : Dword} (small : is32 = false → v.toNat < 2 ^ 16) : cutItem is32 v = v := by
  cases is32 with
  | true => rfl
  | false =>
    have bound := small rfl
    apply BitVec.eq_of_toNat_eq
    simp only [cutItem, Bool.false_eq_true, if_false, BitVec.toNat_setWidth]
    omega

theorem raiseEsp_zero (esp : Dword) : raiseEsp is32 esp 0 = esp := by
  cases is32 <;> simp [raiseEsp]

theorem farReturnAddress_started (ldt : s.scp.ss &&& 4 ≠ 0) (mouse : n ≠ .io)
    (starts : Starts h n is32 s started)
    (pushed : Pushed is32 (clientStack h is32 s) s.mem
      (callbackValues is32 (clientStack h is32 s) s.rmreg s.mem s.scp n) started.mem)
    (room : is32 = false → 2 * callbackItems n ≤ (loWord s.scp.esp).toNat) :
    farReturnAddress is32 (getSegmentBase h s s.scp.ss) started.mem started.scp.esp =
      (cutItem is32 s.scp.eip, s.scp.cs) := by
  have two : 2 ≤ callbackItems n := by
    cases n with
    | io => exact absurd rfl mouse
    | ms => decide
    | ps2ms => decide
  obtain ⟨eip, cs⟩ := @listed_eip n is32 mouse (clientStack h is32 s) s.rmreg s.mem s.scp
  have first := item_found ldt starts pushed room (j := 0) eip (by omega)
  have second := item_found ldt starts pushed room (j := 1) cs (by omega)
  rw [Nat.mul_zero, raiseEsp_zero] at first
  rw [Nat.mul_one, cutItem_zext] at second
  rw [farReturnAddress, first, second, loWord_zext]

theorem esp_returned (mouse : n ≠ .io) {t : State σ} :
    (final (retHandler is32 (rmcbRetHandlers n)) (final (clientRetf h is32) t)).scp.esp =
      raiseEsp is32 t.scp.esp (itemSize is32 * callbackItems n) := by
  cases n with
  | io => exact absurd rfl mouse
  | ms => cases is32 <;> rfl
  | ps2ms =>
    cases is32 with
    | true => exact raiseEsp_raiseEsp true t.scp.esp 8 16
    | false => exact raiseEsp_raiseEsp false t.scp.esp 4 8

theorem returned (mouse : n ≠ .io) (is32 : Bool) (t : State σ) :
    let u := final (retHandler is32 (rmcbRetHandlers n)) (final (clientRetf h is32) t)
    (u.scp.eip, u.scp.cs) = farReturnAddress is32 (getSegmentBase h t t.scp.ss) t.mem t.scp.esp ∧
      u.rmreg = doRetf t.mem t.rmreg := by
  cases n with
  | io => exact absurd rfl mouse
  | ms => exact ⟨rfl, rfl⟩
  | ps2ms => cases is32 <;> exact ⟨rfl, rfl⟩

theorem rmStackByte_linear {rmreg : RealModeCallStructure} {k : Nat} (fits : rmreg.sp.toNat + k < 2 ^ 16) :
    rmStackByte rmreg k = segoff2linear rmreg.ss 0 + zext rmreg.sp + BitVec.ofNat 32 k := by
  have wide : zext (rmreg.sp + BitVec.ofNat 16 k) = zext rmreg.sp + BitVec.ofNat 32 k := by
    apply BitVec.eq_of_toNat_eq
    simp only [zext, BitVec.toNat_setWidth, BitVec.toNat_add, BitVec.toNat_ofNat]
    omega
  rw [rmStackByte, wide, BitVec.add_assoc]

theorem rmStackByte_add {rmreg : RealModeCallStructure} {k d : Nat}
    (fits : rmreg.sp.toNat + (k + d) < 2 ^ 16) :
    rmStackByte rmreg (k + d) = rmStackByte rmreg k + BitVec.ofNat 32 d := by
  rw [rmStackByte_linear fits, rmStackByte_linear (by omega), BitVec.ofNat_add, ← BitVec.add_assoc]

theorem add_sub_ofNat (a : Dword) {x y : Nat} (less : y ≤ x) :
    a + BitVec.ofNat 32 x - BitVec.ofNat 32 y = a + BitVec.ofNat 32 (x - y) := by
  have parts : BitVec.ofNat 32 x = BitVec.ofNat 32 (x - y) + BitVec.ofNat 32 y := by
    rw [← BitVec.ofNat_add, Nat.sub_add_cancel less]
  rw [parts, ← BitVec.add_assoc, BitVec.add_sub_cancel]

/-- The words of the BIOS where the real-mode stack pointer does not wrap. -/
theorem ps2Data_eq (m : Memory) (rmreg : RealModeCallStructure) {i : Nat} (few : i < 4)
    (words : rmreg.sp.toNat + 12 ≤ 2 ^ 16) :
    ps2Data m rmreg (4 - i) = rmStackWord m rmreg (4 + 2 * i) := by
  have low : segoff2linear rmreg.ss 0 + zext rmreg.sp + 12 - BitVec.ofNat 32 (2 * (4 - i)) =
      rmStackByte rmreg (4 + 2 * i) := by
    rw [rmStackByte_linear (by omega)]
    exact (add_sub_ofNat _ (x := 12) (by omega)).trans (by congr 2; omega)
  have high : rmStackByte rmreg (4 + 2 * i) + 1 = rmStackByte rmreg (4 + 2 * i + 1) :=
    (rmStackByte_add (d := 1) (by omega)).symm
  rw [ps2Data, readWord, rmStackWord, low, high]

/-- Nothing has been pushed on a word that is still to be copied. -/
theorem source_apart {sp : Dword} {rmreg : RealModeCallStructure} (words : rmreg.sp.toNat + 12 ≤ 2 ^ 16)
    (apart : ∀ k < 4, ¬(stackItems is32 sp 6).Covers (rmStackByte rmreg k)) {j e : Nat} (few : j < 4)
    (inside : e ≤ 1) : ¬(stackItems is32 sp j).Covers (rmStackByte rmreg (10 - 2 * j + e)) := by
  have top := apart 3 (by decide)
  rw [stackItems_covers (items_small is32 (by decide))] at top
  rw [stackItems_covers (items_small is32 (by omega))]
  intro covered
  apply top
  have distance : rmStackByte rmreg (10 - 2 * j + e) =
      rmStackByte rmreg 3 + BitVec.ofNat 32 (7 - 2 * j + e) := by
    have position : 10 - 2 * j + e = 3 + (7 - 2 * j + e) := by omega
    rw [position, rmStackByte_add (by omega)]
  have source : offset (rmStackByte rmreg 3) sp =
      offset (rmStackByte rmreg (10 - 2 * j + e)) sp + (7 - 2 * j + e) := by
    have size : itemSize is32 * j ≤ 4 * 4 := Nat.mul_le_mul (itemSize_le is32) (by omega)
    rw [distance] at covered ⊢
    generalize rmStackByte rmreg 3 = a at *
    have wrap : (BitVec.ofNat 32 (7 - 2 * j + e)).toNat = 7 - 2 * j + e := Nat.mod_eq_of_lt (by omega)
    generalize BitVec.ofNat 32 (7 - 2 * j + e) = d at *
    unfold offset at *
    rw [← wrap]
    bv_omega
  rw [source]
  cases is32 with
  | true => simp only [itemSize, if_true] at covered ⊢; omega
  | false => simp only [itemSize, if_false, Bool.false_eq_true] at covered ⊢; omega

theorem length_ps2Values (sp : Dword) (rmreg : RealModeCallStructure) (m : Memory) (i : Nat) :
    (ps2Values is32 sp rmreg m i).length = i := by
  simp [ps2Values]

theorem word_copied {sp : Dword} {rmreg : RealModeCallStructure} (words : rmreg.sp.toNat + 12 ≤ 2 ^ 16)
    (apart : ∀ k < 4, ¬(stackItems is32 sp 6).Covers (rmStackByte rmreg k)) (m : Memory) {i : Nat}
    (few : i < 4) :
    ps2Data (ps2Copied is32 sp rmreg m (3 - i)) rmreg (4 - i) = rmStackWord m rmreg (4 + 2 * i) := by
  have pushed := pushed_ps2Copied is32 sp rmreg m (i := 3 - i) (by omega)
  have kept (e : Nat) (inside : e ≤ 1) : ps2Copied is32 sp rmreg m (3 - i)
      (rmStackByte rmreg (4 + 2 * i + e)) = m (rmStackByte rmreg (4 + 2 * i + e)) := by
    apply pushed.outside
    have clear := source_apart words apart (j := 3 - i) (by omega) inside
    have position : 10 - 2 * (3 - i) + e = 4 + 2 * i + e := by omega
    rw [length_ps2Values, ← position]
    exact clear
  rw [ps2Data_eq _ rmreg few words, rmStackWord, rmStackWord, kept 1 (by decide)]
  exact congrArg (_ ++ ·) (kept 0 (by decide))

theorem finds_words (ldt : s.scp.ss &&& 4 ≠ 0) (starts : Starts h .ps2ms is32 s started)
    (pushed : Pushed is32 (clientStack h is32 s) s.mem
      (callbackValues is32 (clientStack h is32 s) s.rmreg s.mem s.scp .ps2ms) started.mem)
    (fits : StackRoom h .ps2ms is32 s) : FindsWords h is32 s started := by
  intro i few
  have listed : (callbackValues is32 (clientStack h is32 s) s.rmreg s.mem s.scp .ps2ms)[3 - i]? =
      some (zext (ps2Data (ps2Copied is32 (clientStack h is32 s) s.rmreg s.mem (3 - i)) s.rmreg
        (3 - i + 1))) := by
    have inside : 3 - i < (ps2Values is32 (clientStack h is32 s) s.rmreg s.mem 4).length := by
      rw [length_ps2Values]
      omega
    rw [callbackValues, List.getElem?_append_left inside, ps2Values, List.getElem?_map,
      List.getElem?_range (by omega)]
    rfl
  have depth : 3 - i + 1 + (2 + i) = callbackItems .ps2ms := by
    rw [callbackItems]
    omega
  have found := item_found ldt starts pushed fits.room listed depth
  have position : 3 - i + 1 = 4 - i := by omega
  rw [starts.base rfl, found, cutItem_zext, position, word_copied (fits.words rfl) fits.apart _ few]

theorem rmTop_kept {values : List Dword} {sp : Dword} {m m' : Memory} (rmreg : RealModeCallStructure)
    (pushed : Pushed is32 sp m values m')
    (apart : ∀ k < 4, ¬(stackItems is32 sp values.length).Covers (rmStackByte rmreg k)) :
    rmTop m' rmreg = rmTop m rmreg := by
  have kept (k : Nat) (top : k < 4) : m' (rmStackByte rmreg k) = m (rmStackByte rmreg k) :=
    pushed.outside _ (apart k top)
  rw [rmTop, rmTop, rmStackWord, rmStackWord, rmStackWord, rmStackWord, kept 0 (by decide),
    kept 1 (by decide), kept 2 (by decide), kept 3 (by decide)]

theorem balanced_of_room (ldt : s.scp.ss &&& 4 ≠ 0) (mouse : n ≠ .io)
    (valid : validAndUsedSelector h s target.selector = true) (fits : StackRoom h n is32 s) :
    Balanced h n is32 target s := by
  obtain ⟨starts, pushed⟩ := callHandler_starts h mouse is32 valid
  rw [Balanced, if_pos valid]
  constructor
  · rintro rfl
    exact finds_words ldt starts pushed fits
  · intro t arrives
    have address := farReturnAddress_started ldt mouse starts pushed fits.room
    obtain ⟨back, rmreg⟩ := returned mouse is32 t
    rw [arrives.base, arrives.address, address, cutItem_small fits.eip] at back
    have apart : ∀ k < 4, ¬(stackItems is32 (clientStack h is32 s)
        (callbackValues is32 (clientStack h is32 s) s.rmreg s.mem s.scp n).length).Covers
          (rmStackByte s.rmreg k) := by
      rw [length_callbackValues]
      exact fits.apart
    have top := rmTop_kept s.rmreg pushed apart
    rw [doRetf_eq, arrives.rmTop, starts.rmreg, top] at rmreg
    constructor
    · rw [esp_returned mouse, arrives.esp, starts.esp, raiseEsp_lowerEsp]
    · exact (Prod.mk.inj back).1
    · exact (Prod.mk.inj back).2
    · rw [rmreg, arrives.rmSp, starts.rmreg]
    · rw [rmreg]
    · rw [rmreg]

/-! ## Without room -/

theorem zext_byte_cases (w : Word) {k : Nat} (inside : k < 4) :
    (zext w).extractLsb' (8 * k) 8 = loByte w ∨ (zext w).extractLsb' (8 * k) 8 = hiByte w ∨
      (zext w).extractLsb' (8 * k) 8 = 0 := by
  have bound := w.isLt
  obtain rfl | rfl | upper : k = 0 ∨ k = 1 ∨ 2 ≤ k := by omega
  · left
    apply BitVec.eq_of_toNat_eq
    simp [zext, loByte]
  · right
    left
    apply BitVec.eq_of_toNat_eq
    simp only [zext, hiByte, BitVec.extractLsb'_toNat, BitVec.toNat_setWidth, Nat.shiftRight_eq_div_pow]
    omega
  · right
    right
    apply BitVec.eq_of_toNat_eq
    have small : (zext w).toNat < 2 ^ (8 * k) := by
      rw [zext, BitVec.toNat_setWidth_of_le (by decide)]
      exact Nat.lt_of_lt_of_le bound (Nat.pow_le_pow_right (by decide) (by omega))
    rw [BitVec.extractLsb'_toNat, Nat.shiftRight_eq_div_pow, Nat.div_eq_of_lt small]
    rfl

theorem source_ne {rmreg : RealModeCallStructure} {c k : Nat} (above : 4 ≤ c) (small : c < 12)
    (top : k < 4) :
    segoff2linear rmreg.ss 0 + zext rmreg.sp + BitVec.ofNat 32 c ≠ rmStackByte rmreg k := by
  intro same
  rw [rmStackByte, BitVec.add_assoc, BitVec.add_right_inj] at same
  have value := congrArg BitVec.toNat same
  simp only [zext, BitVec.toNat_setWidth, BitVec.toNat_add, BitVec.toNat_ofNat] at value
  have bound := rmreg.sp.isLt
  omega

theorem ps2Data_bytes (m : Memory) (rmreg : RealModeCallStructure) {i : Nat} (first : 1 ≤ i) (last : i ≤ 4) :
    ps2Data m rmreg i =
      m (segoff2linear rmreg.ss 0 + zext rmreg.sp + BitVec.ofNat 32 (12 - 2 * i + 1)) ++
        m (segoff2linear rmreg.ss 0 + zext rmreg.sp + BitVec.ofNat 32 (12 - 2 * i)) := by
  have low : segoff2linear rmreg.ss 0 + zext rmreg.sp + 12 - BitVec.ofNat 32 (2 * i) =
      segoff2linear rmreg.ss 0 + zext rmreg.sp + BitVec.ofNat 32 (12 - 2 * i) :=
    add_sub_ofNat _ (x := 12) (by omega)
  rw [ps2Data, readWord, low, BitVec.ofNat_add _ 1, ← BitVec.add_assoc]
  rfl

theorem hiByte_append (a b : Byte) : hiByte (a ++ b) = a := BitVec.extractLsb'_append_eq_left

theorem loByte_append (a b : Byte) : loByte (a ++ b) = b := BitVec.setWidth_append_eq_right

/-- A byte that is neither 0 nor in the memory outside of `x` is not copied anywhere. -/
theorem copied_ne {sp x : Dword} {rmreg : RealModeCallStructure} {m : Memory} {u : Byte} {k : Nat}
    (top : k < 4) (place : x = rmStackByte rmreg k) (nonzero : u ≠ 0) (absent : ∀ a, a ≠ x → m a ≠ u)
    {j : Nat} (few : j ≤ 4) (a : Dword) (other : a ≠ x) : ps2Copied is32 sp rmreg m j a ≠ u := by
  induction j generalizing a with
  | zero => exact absent a other
  | succ j ih =>
    have source (c : Nat) (above : 4 ≤ c) (small : c < 12) : ps2Copied is32 sp rmreg m j
        (segoff2linear rmreg.ss 0 + zext rmreg.sp + BitVec.ofNat 32 c) ≠ u :=
      ih (by omega) _ (place ▸ source_ne above small top)
    rw [ps2Copied, writeItem_apply]
    split
    next inside =>
      have short : offset (itemAddress is32 sp (j + 1)) a < 4 := Nat.lt_of_lt_of_le inside (itemSize_le is32)
      rcases zext_byte_cases (ps2Data (ps2Copied is32 sp rmreg m j) rmreg (j + 1)) short with low | high | zero
      · rw [low, ps2Data_bytes _ _ (by omega) (by omega), loByte_append]
        exact source _ (by omega) (by omega)
      · rw [high, ps2Data_bytes _ _ (by omega) (by omega), hiByte_append]
        exact source _ (by omega) (by omega)
      · rw [zero]
        exact nonzero.symm
    next => exact ih (by omega) a other

theorem value_ne {sp x : Dword} {rmreg : RealModeCallStructure} {m : Memory} {scp : Sigcontext} {u : Byte}
    {k : Nat} (top : k < 4) (place : x = rmStackByte rmreg k) (nonzero : u ≠ 0)
    (absent : ∀ a, a ≠ x → m a ≠ u) (registers : ∀ c < 4, (zext scp.cs).extractLsb' (8 * c) 8 ≠ u ∧
      scp.eip.extractLsb' (8 * c) 8 ≠ u) {v : Dword} (pushed : v ∈ callbackValues is32 sp rmreg m scp n)
    {c : Nat} (inside : c < 4) : v.extractLsb' (8 * c) 8 ≠ u := by
  have register (v : Dword) (listed : v ∈ [zext scp.cs, scp.eip]) : v.extractLsb' (8 * c) 8 ≠ u := by
    rcases List.mem_pair.mp listed with rfl | rfl
    · exact (registers c inside).1
    · exact (registers c inside).2
  cases n with
  | io => exact absurd pushed List.not_mem_nil
  | ms => exact register v pushed
  | ps2ms =>
    rcases List.mem_append.mp pushed with copied | listed
    · obtain ⟨j, few, rfl⟩ := List.mem_map.mp copied
      have few := List.mem_range.mp few
      have source (e : Nat) (above : 4 ≤ e) (small : e < 12) := @copied_ne is32 sp x rmreg m u k top place
        nonzero absent (j := j) few.le _ (place ▸ source_ne above small top)
      rcases zext_byte_cases (ps2Data (ps2Copied is32 sp rmreg m j) rmreg (j + 1)) inside with
        low | high | zero
      · rw [low, ps2Data_bytes _ _ (by omega) (by omega), loByte_append]
        exact source _ (by omega) (by omega)
      · rw [high, ps2Data_bytes _ _ (by omega) (by omega), hiByte_append]
        exact source _ (by omega) (by omega)
      · rw [zero]
        exact nonzero.symm
    · exact register v listed

theorem Balanced.parts (balanced : Balanced h n is32 target s) (mouse : n ≠ .io)
    (valid : validAndUsedSelector h s target.selector = true) :
    let started := final (callHandler h is32 target (rmcbHandlers n)) s
    (n = .ps2ms → FindsWords h is32 s started) ∧
      (s.scp.eip, s.scp.cs) =
        farReturnAddress is32 (getSegmentBase h s s.scp.ss) started.mem started.scp.esp ∧
      rmTop started.mem s.rmreg = rmTop s.mem s.rmreg := by
  obtain ⟨starts, -⟩ := callHandler_starts h mouse is32 valid
  rw [Balanced, if_pos valid] at balanced
  obtain ⟨words, restores⟩ := balanced
  generalize final (callHandler h is32 target (rmcbHandlers n)) s = started at *
  refine ⟨words, ?_⟩
  have arrives : AtFarReturn h is32 s started { started with host := s.host } :=
    ⟨rfl, rfl, congrArg (getSegmentBase h s) starts.ss, rfl, rfl, rfl⟩
  have restored := restores _ arrives
  obtain ⟨back, rmreg⟩ := returned (h := h) mouse is32 { started with host := s.host }
  rw [arrives.base, restored.eip, restored.cs] at back
  refine ⟨back, ?_⟩
  have ip := restored.rmIp
  have cs := restored.rmCs
  rw [rmreg, doRetf_eq] at ip cs
  have top : rmTop started.mem started.rmreg = rmTop s.mem s.rmreg := congrArg₂ Far.mk ip cs
  rw [starts.rmreg] at top
  exact top

theorem readItem_low (is32 : Bool) (m : Memory) (a : Dword) : loByte (loWord (readItem is32 m a)) = m a := by
  have word : loByte (readWord m a) = m a := loByte_append _ _
  cases is32 with
  | true => exact (congrArg loByte BitVec.setWidth_append_eq_right).trans word
  | false => exact (congrArg loByte (loWord_zext _)).trans word

theorem readItem_narrow (m : Memory) (a : Dword) : (readItem false m a).toNat < 2 ^ 16 := by
  show ((readWord m a).setWidth 32).toNat < 2 ^ 16
  rw [BitVec.toNat_setWidth_of_le (by decide)]
  exact (readWord m a).isLt

section Needed

variable (mouse : n ≠ .io) (valid : validAndUsedSelector h s target.selector = true)
include mouse valid

theorem eip_of_balanced (balanced : Balanced h n false target s) : s.scp.eip.toNat < 2 ^ 16 := by
  obtain ⟨-, address, -⟩ := balanced.parts mouse valid
  rw [(Prod.mk.inj address).1]
  exact readItem_narrow _ _

/-- A stack pointer that wraps while the items are pushed: they are written below the segment. -/
theorem room_of_balanced (ldt : s.scp.ss &&& 4 ≠ 0)
    (mem : ∀ a, s.mem a ≠ loByte (loWord s.scp.eip)) (balanced : Balanced h n false target s) :
    2 * callbackItems n ≤ (loWord s.scp.esp).toNat := by
  by_contra short
  have few : callbackItems n ≤ 6 := by cases n <;> decide
  obtain ⟨starts, pushed⟩ := callHandler_starts h mouse false valid
  obtain ⟨-, address, -⟩ := balanced.parts mouse valid
  generalize final (callHandler h false target (rmcbHandlers n)) s = started at *
  have low := congrArg (fun eip => loByte (loWord eip)) (Prod.mk.inj address).1
  rw [readItem_low, pushed.outside] at low
  · exact mem _ low.symm
  · rw [length_callbackValues, stackItems_covers (items_small false few), clientStack_ldt ldt, starts.esp]
    simp only [stackAddress, lowerEsp, Bool.false_eq_true, if_false, loWord_setLoWord, itemSize]
    have down : (BitVec.ofNat 16 (2 * callbackItems n)).toNat = 2 * callbackItems n :=
      Nat.mod_eq_of_lt (by omega)
    generalize BitVec.ofNat 16 (2 * callbackItems n) = d at *
    generalize loWord s.scp.esp = sp at *
    unfold offset zext
    bv_omega

theorem apart_of_balanced {k : Nat} (top : k < 4) {u : Byte} (nonzero : u ≠ 0)
    (absent : ∀ a, a ≠ rmStackByte s.rmreg k → s.mem a ≠ u) (present : s.mem (rmStackByte s.rmreg k) = u)
    (registers : ∀ c < 4, (zext s.scp.cs).extractLsb' (8 * c) 8 ≠ u ∧
      s.scp.eip.extractLsb' (8 * c) 8 ≠ u) (balanced : Balanced h n is32 target s) :
    ¬(stackItems is32 (clientStack h is32 s) (callbackItems n)).Covers (rmStackByte s.rmreg k) := by
  intro covered
  obtain ⟨-, pushed⟩ := callHandler_starts h mouse is32 valid
  obtain ⟨-, -, kept⟩ := balanced.parts mouse valid
  generalize final (callHandler h is32 target (rmcbHandlers n)) s = started at *
  rw [← length_callbackValues is32 (clientStack h is32 s) s.rmreg s.mem s.scp n] at covered
  obtain ⟨v, listed, c, inside, byte⟩ := pushed.covered _ covered
  have ip := congrArg Far.offset kept
  have cs := congrArg Far.segment kept
  have same : started.mem (rmStackByte s.rmreg k) = s.mem (rmStackByte s.rmreg k) := by
    match k, top with
    | 0, _ => exact (loByte_append _ _).symm.trans ((congrArg loByte ip).trans (loByte_append _ _))
    | 1, _ => exact (hiByte_append _ _).symm.trans ((congrArg hiByte ip).trans (hiByte_append _ _))
    | 2, _ => exact (loByte_append _ _).symm.trans ((congrArg loByte cs).trans (loByte_append _ _))
    | 3, _ => exact (hiByte_append _ _).symm.trans ((congrArg hiByte cs).trans (hiByte_append _ _))
  have other := value_ne top rfl nonzero absent registers listed
    (Nat.lt_of_lt_of_le inside (itemSize_le is32))
  rw [← byte, same, present] at other
  exact other rfl

end Needed

theorem words_of_balanced (valid : validAndUsedSelector h s target.selector = true)
    (ldt : s.scp.ss &&& 4 ≠ 0) (room : is32 = false → 12 ≤ (loWord s.scp.esp).toNat)
    (mem : ∀ a, s.mem a = if a = rmStackByte s.rmreg 11 then 1 else 0)
    (balanced : Balanced h .ps2ms is32 target s) : s.rmreg.sp.toNat + 12 ≤ 2 ^ 16 := by
  by_contra wraps
  obtain ⟨starts, pushed⟩ := callHandler_starts h (n := .ps2ms) nofun is32 valid
  obtain ⟨words, -, -⟩ := balanced.parts nofun valid
  generalize final (callHandler h is32 target (rmcbHandlers .ps2ms)) s = started at *
  have word := words rfl 3 (by decide)
  have listed : (callbackValues is32 (clientStack h is32 s) s.rmreg s.mem s.scp .ps2ms)[0]? =
      some (zext (ps2Data s.mem s.rmreg 1)) := rfl
  rw [starts.base rfl, item_found ldt starts pushed room listed (j := 5) rfl, cutItem_zext,
    ps2Data_bytes _ _ (by decide) (by decide)] at word
  have high := congrArg (fun v => hiByte (loWord v)) word
  simp only [loWord_zext, hiByte_append, rmStackWord] at high
  rw [mem, mem, if_pos rfl] at high
  have place : segoff2linear s.rmreg.ss 0 + zext s.rmreg.sp + BitVec.ofNat 32 (12 - 2 * 1 + 1) =
      rmStackByte s.rmreg 11 := by
    by_contra apart
    rw [if_neg apart] at high
    exact absurd high (by decide)
  rw [rmStackByte, BitVec.add_assoc, BitVec.add_right_inj] at place
  have value := congrArg BitVec.toNat place
  simp only [zext, BitVec.toNat_setWidth, BitVec.toNat_add, BitVec.toNat_ofNat] at value
  have bound := s.rmreg.sp.isLt
  omega

theorem room_of_balances (ldt : s.scp.ss &&& 4 ≠ 0) (mouse : n ≠ .io)
    (valid : validAndUsedSelector h s target.selector = true) (balances : Balances h n is32 target s) :
    StackRoom h n is32 s := by
  have room : is32 = false → 2 * callbackItems n ≤ (loWord s.scp.esp).toNat := by
    rintro rfl
    obtain ⟨b, other⟩ := exists_byte_notMem (l := [loByte (loWord s.scp.eip)]) (by simp)
    have balanced := balances fun _ => b
    exact room_of_balanced (s := { s with mem := fun _ => b }) mouse valid ldt
      (fun _ => List.ne_of_not_mem_cons other) balanced
  constructor
  · rintro rfl
    exact eip_of_balanced mouse valid (balances s.mem)
  · exact room
  · intro k top
    let bytes (v : Dword) : List Byte := (List.range 4).map fun c => v.extractLsb' (8 * c) 8
    obtain ⟨u, absent⟩ := exists_byte_notMem (l := 0 :: (bytes (zext s.scp.cs) ++ bytes s.scp.eip))
      (by simp [bytes])
    rw [List.mem_cons, List.mem_append, not_or, not_or] at absent
    obtain ⟨nonzero, cs, eip⟩ := absent
    let m : Memory := fun a => if a = rmStackByte s.rmreg k then u else 0
    have outside (a : Dword) (other : a ≠ rmStackByte s.rmreg k) : m a ≠ u := by
      rw [show m a = 0 from if_neg other]
      exact Ne.symm nonzero
    have registers (c : Nat) (inside : c < 4) : (zext s.scp.cs).extractLsb' (8 * c) 8 ≠ u ∧
        s.scp.eip.extractLsb' (8 * c) 8 ≠ u :=
      ⟨fun same => cs (List.mem_map.mpr ⟨c, List.mem_range.mpr inside, same⟩),
        fun same => eip (List.mem_map.mpr ⟨c, List.mem_range.mpr inside, same⟩)⟩
    exact apart_of_balanced (s := { s with mem := m }) mouse valid top nonzero outside (if_pos rfl)
      registers (balances m)
  · rintro rfl
    exact words_of_balanced (s := { s with mem := fun a => if a = rmStackByte s.rmreg 11 then 1 else 0 })
      valid ldt room (fun _ => rfl) (balances _)

/-- A callback to an unusable selector: only the PS/2 return handler takes anything off the stack. -/
theorem balanced_unused (mouse : n ≠ .io)
    (unused : validAndUsedSelector h s target.selector = false) :
    Balanced h n is32 target s ↔ n = .ms := by
  have nothing : final (callHandler h is32 target (rmcbHandlers n)) s = s := by
    cases n with
    | io => rfl
    | ms =>
      show final (mouseCallback h is32 target) s = s
      rw [mouseCallback, final_reads_bind, unused]
      rfl
    | ps2ms =>
      show final (ps2MouseCallback h is32 target) s = s
      rw [ps2MouseCallback, final_reads_bind, unused]
      rfl
  rw [Balanced, if_neg (by rw [unused]; decide), nothing]
  cases n with
  | io => exact absurd rfl mouse
  | ms =>
    refine iff_of_true ?_ rfl
    have rmreg : (final (retHandler is32 (rmcbRetHandlers .ms)) s).rmreg = doRetf s.mem s.rmreg := rfl
    rw [doRetf_eq] at rmreg
    constructor
    · rfl
    · rfl
    · rfl
    all_goals rw [rmreg]
  | ps2ms =>
    refine iff_of_false (fun restored => ?_) nofun
    have esp : raiseEsp is32 s.scp.esp (itemSize is32 * 4) = s.scp.esp := by
      refine Eq.trans ?_ restored.esp
      cases is32 <;> rfl
    cases is32 with
    | true =>
      simp only [raiseEsp, itemSize, if_true] at esp
      bv_omega
    | false =>
      simp only [raiseEsp, itemSize, if_false, Bool.false_eq_true] at esp
      have low := congrArg loWord esp
      rw [loWord_setLoWord] at low
      bv_omega

/-! ## The law -/

def BalanceRight (h : DpmiHost σ) (n : Rmcb) (is32 : Bool) (target : Pmaddr) (s : State σ) : Prop :=
  if validAndUsedSelector h s target.selector then StackRoom h n is32 s else n = .ms

theorem callback_balance_iff (ldt : s.scp.ss &&& 4 ≠ 0) (mouse : n ≠ .io) :
    Balances h n is32 target s ↔ BalanceRight h n is32 target s := by
  unfold BalanceRight
  split
  next valid =>
    constructor
    · exact room_of_balances ldt mouse valid
    · intro fits m
      exact balanced_of_room (s := { s with mem := m }) ldt mouse valid
        ⟨fits.eip, fits.room, fits.apart, fits.words⟩
  next unused =>
    have unused := Bool.eq_false_iff.mpr unused
    constructor
    · intro balances
      exact (balanced_unused mouse unused).mp (balances s.mem)
    · intro ms m
      exact (balanced_unused (s := { s with mem := m }) mouse unused).mpr ms

end Room

/-! ## On a host -/

/-- A 32-bit client whose stack is below 1000h, with a real-mode stack at 9000h:100h. -/
def mouseStacks : State Bump :=
  { bumpStart with
    scp := { bumpStart.scp with ss := 0x87, esp := 0x1000, cs := 0x8f, eip := 0x12345 }
    rmreg := { RealModeCallStructure.zero with ss := 0x9000, sp := 0x100 } }

theorem stackRoom_mouse : StackRoom bumpHost .ps2ms true mouseStacks where
  eip := nofun
  room := nofun
  apart := by decide +kernel
  words _ := by decide +kernel

theorem callback_balance_ps2 : Balances bumpHost .ps2ms true ⟨0x500, 0x97⟩ mouseStacks := by
  have ldt : mouseStacks.scp.ss &&& 4 ≠ 0 := by decide
  refine (callback_balance_iff (n := .ps2ms) ldt (by decide)).mpr ?_
  rw [BalanceRight, if_pos (by decide)]
  exact stackRoom_mouse

/-- Selector 0 is not one of the client's. -/
theorem callback_balance_misses_unused : ¬Balances bumpHost .ps2ms true ⟨0x500, 0⟩ mouseStacks := by
  intro balances
  have unused : validAndUsedSelector bumpHost mouseStacks 0 = false := by decide
  have ms := (balanced_unused (n := .ps2ms) (by decide) unused).mp (balances mouseStacks.mem)
  cases ms

end Pmdapi
