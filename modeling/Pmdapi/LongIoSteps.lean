import Pmdapi.LongIo

/-! The registers along one pass of the long read and write loops, as numbers. -/

namespace Pmdapi
open Bytes

/-! ## Numbers in registers -/

theorem loWord_ofNat (n : Nat) : loWord (BitVec.ofNat 32 n) = BitVec.ofNat 16 n := by
  apply BitVec.eq_of_toNat_eq
  simp only [loWord, BitVec.toNat_setWidth, BitVec.toNat_ofNat]
  omega

theorem zext_ofNat {n : Nat} (small : n < 65536) : zext (BitVec.ofNat 16 n) = BitVec.ofNat 32 n := by
  apply BitVec.eq_of_toNat_eq
  simp only [zext, BitVec.toNat_setWidth, BitVec.toNat_ofNat]
  omega

theorem toNat_ofNat {n : Nat} (fits : n < 2 ^ 32) : (BitVec.ofNat 32 n : Dword).toNat = n := by
  rw [BitVec.toNat_ofNat]
  exact Nat.mod_eq_of_lt fits

@[simp] theorem loByte_loWord_append (d : Dword) (v : Byte) :
    loByte (loWord (d.extractLsb' 8 24 ++ v)) = v := by
  rw [loByte, loWord, BitVec.setWidth_setWidth_of_le _ (by decide)]
  exact BitVec.setWidth_append_eq_right

namespace RmHelper

variable (s : RmHelper)

@[simp] theorem reg_movl (r q : Gpr) (v : Dword) :
    (s.movl r v).reg q = if q = r then v else s.reg q := rfl

@[simp] theorem lword_eq (r : Gpr) : s.lword r = loWord (s.reg r) := rfl

@[simp] theorem movl_log (r : Gpr) (v : Dword) : (s.movl r v).log = s.log := rfl

/-! ## From the head of a pass to the count -/

theorem cutCount_eq : s.cutCount =
    if s.reg .ecx < 0x10000 then s.movl .esi (s.reg .ecx)
    else (s.movl .esi (s.reg .ecx)).movl .ecx 0xffff := rfl

@[simp] theorem cutCount_reg (r : Gpr) (other : r ≠ .esi) (notCount : r ≠ .ecx) :
    s.cutCount.reg r = s.reg r := by
  rw [cutCount_eq]
  split <;> simp [other, notCount]

@[simp] theorem cutCount_esi : s.cutCount.reg .esi = s.reg .ecx := by
  rw [cutCount_eq]
  split <;> simp

theorem cutCount_ecx {n : Nat} (fits : n < 2 ^ 32) (rest : s.reg .ecx = BitVec.ofNat 32 n) :
    s.cutCount.reg .ecx = BitVec.ofNat 32 (min n 65535) := by
  have value := toNat_ofNat fits
  rw [cutCount_eq, rest]
  by_cases small : (BitVec.ofNat 32 n : Dword) < 0x10000
  · rw [if_pos small]
    rw [BitVec.lt_def, value] at small
    change n < 65536 at small
    rw [Nat.min_eq_left (by omega)]
    simpa using rest
  · rw [if_neg small]
    rw [BitVec.lt_def, value] at small
    change ¬n < 65536 at small
    rw [Nat.min_eq_right (by omega)]
    rfl

structure Served (u v : RmHelper) (events : List IoEvent) (mem : Memory) : Prop where
  log : v.log = u.log ++ events
  mem : v.mem = mem
  io : v.io = u.io
  ds : v.regs.ds = u.regs.ds
  edx : v.reg .edx = u.reg .edx

theorem Served.dosPtr {u v : RmHelper} {events : List IoEvent} {mem : Memory}
    (served : Served u v events mem) : v.dosPtr = u.dosPtr := by
  rw [RmHelper.dosPtr, RmHelper.dosPtr, lword_eq, lword_eq, served.ds, served.edx]

theorem served_cutCount : Served s s.cutCount [] s.mem := by
  rw [cutCount_eq]
  split
  all_goals exact ⟨(List.append_nil _).symm, rfl, rfl, rfl, rfl⟩

theorem Served.trans {u v w : RmHelper} {first second : List IoEvent} {mem last : Memory}
    (before : Served u v first mem) (after : Served v w second last) :
    Served u w (first ++ second) last where
  log := by rw [after.log, before.log, List.append_assoc]
  mem := after.mem
  io := after.io.trans before.io
  ds := after.ds.trans before.ds
  edx := after.edx.trans before.edx

/-- A register other than EDX may change on the way. -/
theorem Served.movl {u v : RmHelper} {events : List IoEvent} {mem : Memory} {r : Gpr} {d : Dword}
    (served : Served u v events mem) (other : r ≠ .edx) : Served u (v.movl r d) events mem where
  log := served.log
  mem := served.mem
  io := served.io
  ds := served.ds
  edx := by rw [reg_movl, if_neg (Ne.symm other), served.edx]

theorem served_answered (ax : Word) (carry : Bool) (reply : Except Word (List Byte)) :
    Served s (s.answered ax carry reply) [.dos (s.lword .ecx) reply] s.mem :=
  ⟨rfl, rfl, rfl, rfl, rfl⟩

theorem int21Read_error {dos : ReadOracle} {k : Nat} {count code : Word} (next : s.served = k)
    (asks : s.lword .ecx = count) (answer : dos k count = .error code) :
    s.int21Read dos = s.answered code true (.error code) := by
  subst next asks
  rw [int21Read, answer]

theorem int21Read_ok {dos : ReadOracle} {k : Nat} {count : Word}
    {data : { data : List Byte // data.length ≤ count.toNat }} (next : s.served = k)
    (asks : s.lword .ecx = count) (answer : dos k count = .ok data) :
    s.int21Read dos = { s.answered (BitVec.ofNat 16 data.val.length) false (.ok data.val) with
      mem := store s.mem s.dosPtr data.val } := by
  subst next asks
  rw [int21Read, answer]

theorem int21Write_error {dos : WriteOracle} {k : Nat} {count code : Word} (next : s.served = k)
    (asks : s.lword .ecx = count) (answer : dos k count = .error code) :
    s.int21Write dos = s.answered code true (.error code) := by
  subst next asks
  rw [int21Write, answer]

theorem int21Write_ok {dos : WriteOracle} {k : Nat} {count : Word}
    {taken : { n : Word // n ≤ count }} (next : s.served = k) (asks : s.lword .ecx = count)
    (answer : dos k count = .ok taken) :
    s.int21Write dos = s.answered taken.val false (.ok (s.atDosPtr taken.val.toNat)) := by
  subst next asks
  rw [int21Write, answer]

theorem cutCount_served : s.cutCount.served = s.served := by
  rw [cutCount_eq]
  split <;> rfl

/-! ## The ends of a pass -/

section Advance

variable {s : RmHelper} {total n c : Nat}

/-- The registers before the comparison: `c` of the wanted bytes came, of the `n` that were left. -/
structure Counted (s : RmHelper) (total n c : Nat) : Prop where
  edi : s.reg .edi = BitVec.ofNat 32 total
  esi : s.reg .esi = BitVec.ofNat 32 n
  ecx : s.reg .ecx = BitVec.ofNat 32 (min n 65535)
  eax : s.reg .eax = BitVec.ofNat 32 c

theorem Counted.same_iff (counted : Counted s total n c) (most : c ≤ min n 65535) :
    s.lword .ecx ≠ s.lword .eax ↔ c < min n 65535 := by
  rw [lword_eq, lword_eq, counted.ecx, counted.eax, loWord_ofNat, loWord_ofNat]
  constructor
  · intro differs
    by_contra same
    exact differs (congrArg _ (by omega))
  · intro less same
    have values := congrArg BitVec.toNat same
    simp only [BitVec.toNat_ofNat] at values
    omega

theorem advance_short (counted : Counted s total n c) (less : c < min n 65535) :
    s.advance = .done s := by
  rw [advance, if_pos ((counted.same_iff (Nat.le_of_lt less)).mpr less)]

theorem Counted.left (counted : Counted s total n c) (fits : n < 2 ^ 32) (most : c ≤ n) :
    s.reg .esi - s.reg .eax = BitVec.ofNat 32 (n - c) := by
  rw [counted.esi, counted.eax]
  apply BitVec.eq_of_toNat_eq
  simp only [BitVec.toNat_sub, BitVec.toNat_ofNat]
  omega

theorem advance_complete (counted : Counted s total n n) (last : n ≤ 65535) :
    s.advance = .done ((s.movl .ecx 0).movl .eax (BitVec.ofNat 32 total)) := by
  have same : ¬s.lword .ecx ≠ s.lword .eax := by
    rw [counted.same_iff (by omega)]
    omega
  have left := counted.left (by omega) (Nat.le_refl n)
  rw [Nat.sub_self] at left
  simp only [advance, if_neg same, left, reg_movl, if_true, counted.edi]
  rfl

theorem advance_more (counted : Counted s total n 65535) (fits : n < 2 ^ 32) (more : 65535 < n) :
    s.advance = .again (s.movl .ecx (BitVec.ofNat 32 (n - 65535))) := by
  have same : ¬s.lword .ecx ≠ s.lword .eax := by
    rw [counted.same_iff (by omega)]
    omega
  have nonzero : (BitVec.ofNat 32 (n - 65535) : Dword) ≠ 0 := by
    intro zero
    have value := congrArg BitVec.toNat zero
    rw [toNat_ofNat (by omega)] at value
    change n - 65535 = 0 at value
    omega
  simp only [advance, if_neg same, counted.left fits (Nat.le_of_lt more), reg_movl, if_true,
    if_pos nonzero]

end Advance

/-- An error after some data: the total is returned. -/
theorem setCf_later {total : Nat} (edi : s.reg .edi = BitVec.ofNat 32 total)
    (some : 0 < total) (fits : total < 2 ^ 32) :
    s.setCf = s.movl .eax (BitVec.ofNat 32 total) := by
  have nonzero : s.reg .edi ≠ 0 := by
    intro zero
    have value := congrArg BitVec.toNat (edi.symm.trans zero)
    rw [toNat_ofNat fits] at value
    change total = 0 at value
    omega
  rw [setCf, if_pos nonzero, edi]

/-! ## The three callbacks -/

theorem lcall_read (al : loByte (s.lword .eax) = 0) :
    s.lcall = { s with
      mem := if s.reg .edi + s.reg .ecx ≤ s.io.size then
          copy s.mem (s.io.ptr + s.reg .edi) s.dosPtr (s.reg .ecx).toNat else s.mem,
      log := s.log ++ [.callback 0 (s.reg .edi) (s.reg .ecx)] } := by
  rw [lcall, rmcbHandler_read _ _ al, al]
  rfl

theorem lcall_write (al : loByte (s.lword .eax) = 1) :
    s.lcall = { s with
      mem := if s.reg .edi + s.reg .ecx ≤ s.io.size then
          copy s.mem s.dosPtr (s.io.ptr + s.reg .edi) (s.reg .ecx).toNat else s.mem,
      log := s.log ++ [.callback 1 (s.reg .edi) (s.reg .ecx)] } := by
  rw [lcall, rmcbHandler_write _ _ al, al]
  rfl

theorem lcall_error (al : loByte (s.lword .eax) = 2) :
    s.lcall = { s with
      io := { s.io with error := true, errorCode := s.lword .ecx },
      log := s.log ++ [.callback 2 (s.reg .edi) (s.reg .ecx)] } := by
  rw [lcall, rmcbHandler_error _ _ al, al]
  rfl

@[simp] theorem al_movbAl (v : Byte) : loByte ((s.movbAl v).lword .eax) = v := by
  rw [lword_eq, movbAl, reg_movl, if_pos rfl, loByte_loWord_append]

theorem setCf_first (edi : s.reg .edi = 0) :
    s.setCf.log = s.log ++ [.callback 2 0 (s.reg .eax)] ∧ s.setCf.mem = s.mem := by
  have unset : ¬s.reg .edi ≠ 0 := fun nonzero => nonzero edi
  rw [setCf, if_neg unset, lcall_error _ (al_movbAl _ _)]
  constructor
  · simp [movbAl, edi]
  · rfl

theorem deliver_spec : Served s s.deliver [.callback 0 (s.reg .edi) (s.reg .eax)]
      (if s.reg .edi + s.reg .eax ≤ s.io.size then
        copy s.mem (s.io.ptr + s.reg .edi) s.dosPtr (s.reg .eax).toNat else s.mem) ∧
    (∀ r, s.deliver.reg r = s.reg r) ∧ s.deliver.served = s.served := by
  generalize saved : (s.pushl .ecx).pushl .eax = t
  have called := lcall_read _ (al_movbAl (t.movl .ecx (t.reg .eax)) 0)
  rw [deliver, saved, called, ← saved]
  refine ⟨⟨rfl, rfl, rfl, rfl, rfl⟩, ?_, rfl⟩
  intro r
  cases r <;> rfl

theorem fetch_spec : Served s s.fetch [.callback 1 (s.reg .edi) (s.reg .ecx)]
      (if s.reg .edi + s.reg .ecx ≤ s.io.size then
        copy s.mem s.dosPtr (s.io.ptr + s.reg .edi) (s.reg .ecx).toNat else s.mem) ∧
    (∀ r, r ≠ .eax → s.fetch.reg r = s.reg r) ∧ s.fetch.served = s.served := by
  rw [fetch, lcall_write _ (al_movbAl s 1)]
  refine ⟨⟨rfl, rfl, rfl, rfl, rfl⟩, ?_, rfl⟩
  intro r other
  cases r with
  | eax => exact absurd rfl other
  | _ => rfl

end RmHelper

theorem runLoop_unique {pass : RmHelper → Flow} {fuel other : Nat} {s t u : RmHelper}
    (first : runLoop pass fuel s = some t) (second : runLoop pass other s = some u) : t = u := by
  induction fuel generalizing other s with
  | zero => cases first
  | succ fuel ih =>
    cases other with
    | zero => cases second
    | succ other =>
      rw [runLoop] at first second
      cases flow : pass s with
      | again v =>
        rw [flow] at first second
        exact ih first second
      | done v =>
        rw [flow] at first second
        exact Option.some.inj (first.symm.trans second)

end Pmdapi
