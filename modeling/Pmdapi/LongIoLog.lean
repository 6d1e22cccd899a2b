import Pmdapi.Helpers
import Pmdapi.Library.Chunks
import Pmdapi.LongIoSteps

/-! What the long reads and writes share: the reading of their log, the head of their loops, and the
transfers they carry out. -/

namespace Pmdapi
open Bytes Chunks

/-! ## What the log says -/

def calls (al : Byte) (log : List IoEvent) : List (Dword × Dword) :=
  log.filterMap fun
    | .callback which edi ecx => if which = al then some (edi, ecx) else none
    | .dos _ _ => none

def errorCodes (log : List IoEvent) : List Word := (calls 2 log).map fun c => loWord c.2

def moved (log : List IoEvent) : List Byte :=
  log.flatMap fun
    | .dos _ (.ok data) => data
    | _ => []

def Consecutive : Nat → List (Dword × Dword) → Prop
  | _, [] => True
  | start, (offs, size) :: rest => offs.toNat = start ∧ Consecutive (start + size.toNat) rest

def amount (pieces : List (Dword × Dword)) : Nat := (pieces.map fun c => c.2.toNat).sum

theorem calls_append (al : Byte) (first second : List IoEvent) :
    calls al (first ++ second) = calls al first ++ calls al second := List.filterMap_append

theorem errorCodes_append (first second : List IoEvent) :
    errorCodes (first ++ second) = errorCodes first ++ errorCodes second := by
  rw [errorCodes, calls_append, List.map_append]
  rfl

theorem moved_append (first second : List IoEvent) :
    moved (first ++ second) = moved first ++ moved second := List.flatMap_append

theorem amount_append (first second : List (Dword × Dword)) :
    amount (first ++ second) = amount first + amount second := by
  rw [amount, List.map_append, List.sum_append]
  rfl

theorem consecutive_append {start : Nat} {pieces : List (Dword × Dword)} {offs size : Dword}
    (before : Consecutive start pieces) (next : offs.toNat = start + amount pieces) :
    Consecutive start (pieces ++ [(offs, size)]) := by
  induction pieces generalizing start with
  | nil => exact ⟨by simpa [amount] using next, trivial⟩
  | cons piece rest ih =>
    obtain ⟨here, later⟩ := before
    refine ⟨here, ih later ?_⟩
    rw [next, amount, amount, List.map_cons, List.sum_cons, Nat.add_assoc]

theorem getD_append_eq (first second : List Byte) (i : Nat) (d : Byte) :
    (if first.length ≤ i then second.getD (i - first.length) (first.getD i d) else first.getD i d) =
      (first ++ second).getD i d := by
  split
  next past =>
    rw [List.getD_append_right _ _ _ _ past, List.getD_eq_default _ _ past]
  next before => rw [List.getD_append _ _ _ _ (Nat.not_le.mp before)]

/-! ## The head of the loop -/

/-- The transfer buffer, which DOS fills up to 65535 bytes of, is no part of the client's buffer. -/
def RmHelper.Apart (s : RmHelper) : Prop :=
  ∀ i < 65535, ∀ j < (s.reg .ecx).toNat,
    s.dosPtr + BitVec.ofNat 32 i ≠ s.io.ptr + BitVec.ofNat 32 j

/-- At the head of the loop: `total` bytes are done, `n` are left, request `k` comes next. -/
structure AtHead (u : RmHelper) (k n total : Nat) : Prop where
  edi : u.reg .edi = BitVec.ofNat 32 total
  ecx : u.reg .ecx = BitVec.ofNat 32 n
  served : u.served = k
  fits : n < 2 ^ 32

def count (n : Nat) : Word := BitVec.ofNat 16 (min n 65535)

structure Asking (u w : RmHelper) (events : List IoEvent) (mem : Memory) (k n total : Nat) :
    Prop where
  served : RmHelper.Served u w events mem
  edi : w.reg .edi = BitVec.ofNat 32 total
  esi : w.reg .esi = BitVec.ofNat 32 n
  ecx : w.reg .ecx = BitVec.ofNat 32 (min n 65535)
  next : w.served = k

namespace Asking

variable {u w : RmHelper} {events : List IoEvent} {mem : Memory} {k n total : Nat}

theorem count (asking : Asking u w events mem k n total) : w.lword .ecx = count n := by
  rw [RmHelper.lword_eq, asking.ecx, loWord_ofNat]
  rfl

theorem movbAh (asking : Asking u w events mem k n total) (v : Byte) :
    Asking u (w.movbAh v) events mem k n total where
  served := asking.served.movl (by decide)
  edi := by rw [RmHelper.movbAh, RmHelper.reg_movl, if_neg (by decide), asking.edi]
  esi := by rw [RmHelper.movbAh, RmHelper.reg_movl, if_neg (by decide), asking.esi]
  ecx := by rw [RmHelper.movbAh, RmHelper.reg_movl, if_neg (by decide), asking.ecx]
  next := asking.next

end Asking

theorem AtHead.cutCount {u : RmHelper} {k n total : Nat} (head : AtHead u k n total) :
    Asking u u.cutCount [] u.mem k n total where
  served := u.served_cutCount
  edi := by rw [RmHelper.cutCount_reg _ _ (by decide) (by decide), head.edi]
  esi := by rw [RmHelper.cutCount_esi, head.ecx]
  ecx := RmHelper.cutCount_ecx _ head.fits head.ecx
  next := by rw [u.cutCount_served, head.served]

theorem enter_atHead {s : RmHelper} (fresh : s.served = 0) : AtHead s.enter 0 (s.reg .ecx).toNat 0 where
  edi := rfl
  ecx := by
    rw [BitVec.ofNat_toNat, BitVec.setWidth_eq]
    rfl
  served := fresh
  fits := (s.reg .ecx).isLt

/-! ## Short chunks -/

/-- After at least one full chunk, a chunk comes short. -/
def ShortLater (reply : Nat → Nat → Except Word Nat) (n : Nat) : Prop :=
  ∃ j, 0 < j ∧ ShortAt reply 65535 0 n j

theorem shortLater_iff {reply : Nat → Nat → Except Word Nat} {n : Nat} {cs : List Nat}
    {e : Exit Word} (transfer : Transfer reply 65535 0 n cs e) :
    ShortLater reply n ↔ (∃ c, e = .short c) ∧ 2 ≤ cs.length := by
  constructor
  · rintro ⟨j, later, short⟩
    obtain ⟨ended, length⟩ := (transfer.short_iff j).mp short
    exact ⟨ended, by omega⟩
  · rintro ⟨ended, length⟩
    refine ⟨cs.length - 1, by omega, (transfer.short_iff _).mpr ⟨ended, by omega⟩⟩

theorem not_shortLater_of_full {reply : Nat → Nat → Except Word Nat} (full : Full reply 65535) (n : Nat) :
    ¬ShortLater reply n := by
  rintro ⟨j, -, -, -, c, less, answer⟩
  rw [full _ _ (Nat.min_le_right _ _)] at answer
  exact Nat.ne_of_gt less (Except.ok.inj answer)

def ioClient (n : Dword) : RmHelper where
  regs := { RealModeCallStructure.zero with
    gpr := fun | .ecx => n | _ => 0
    ds := 0xd000 }
  carry := false
  stack := []
  mem := fun _ => 0
  io := ⟨0x200000, n, false, 0⟩
  served := 0
  log := []

end Pmdapi
