import Mathlib.Algebra.Group.Nat.Defs
import Mathlib.Data.List.GetD
import Mathlib.Data.List.Nodup
import Mathlib.Data.List.Perm.Subperm

/-!
A byte-addressed 32-bit memory: block copies, block fills, little-endian words and
NUL-terminated strings. Addresses wrap at 2^32.
-/

namespace Pmdapi.Bytes

abbrev Byte := BitVec 8
abbrev Word := BitVec 16
abbrev Dword := BitVec 32

instance : LawfulBEq Byte := inferInstance

abbrev Memory := Dword → Byte

/-- Position of `a` counted upwards from `base`. -/
def offset (base a : Dword) : Nat := (a - base).toNat

/-- `n` bytes at `src` copied to `dst`, all read before the first is written. -/
def copy (m : Memory) (dst src : Dword) (n : Nat) : Memory :=
  fun a => if offset dst a < n then m (src + (a - dst)) else m a

def fill (m : Memory) (dst : Dword) (v : Byte) (n : Nat) : Memory :=
  fun a => if offset dst a < n then v else m a

def store (m : Memory) (dst : Dword) (bytes : List Byte) : Memory :=
  fun a => bytes.getD (offset dst a) (m a)

def readWord (m : Memory) (a : Dword) : Word := m (a + 1) ++ m a

def readDword (m : Memory) (a : Dword) : Dword := readWord m (a + 2) ++ readWord m a

def writeWord (m : Memory) (a : Dword) (v : Word) : Memory :=
  store m a [v.extractLsb' 0 8, v.extractLsb' 8 8]

def writeDword (m : Memory) (a : Dword) (v : Dword) : Memory :=
  store m a [v.extractLsb' 0 8, v.extractLsb' 8 8, v.extractLsb' 16 8, v.extractLsb' 24 8]

/-- Bytes before the first NUL at or above `a`, looking at no more than `fuel` bytes. -/
def strlenUpTo (m : Memory) (a : Dword) : Nat → Nat
  | 0 => 0
  | fuel + 1 => if m a = 0 then 0 else strlenUpTo m (a + 1) fuel + 1

/-- Length of the string at `a`; a memory without a NUL is taken once round. -/
def strlen (m : Memory) (a : Dword) : Nat := strlenUpTo m a (2 ^ 32)

def copyString (m : Memory) (dst src : Dword) : Memory := copy m dst src (strlen m src + 1)

def stringAt (m : Memory) (a : Dword) : List Byte → Bool
  | [] => m a = 0
  | b :: text => m a = b && stringAt m (a + 1) text

theorem le_strlenUpTo {m : Memory} {a : Dword} {n fuel : Nat} (nonzero : ∀ i < n, m (a + BitVec.ofNat 32 i) ≠ 0)
    (enough : n ≤ fuel) : n ≤ strlenUpTo m a fuel := by
  induction n generalizing a fuel with
  | zero => exact Nat.zero_le _
  | succ n ih =>
    obtain ⟨fuel, rfl⟩ : ∃ k, fuel = k + 1 := ⟨fuel - 1, by omega⟩
    have first : m a ≠ 0 := by simpa using nonzero 0 (Nat.succ_pos n)
    rw [strlenUpTo, if_neg first]
    have rest : n ≤ strlenUpTo m (a + 1) fuel := by
      refine ih (fun i small => ?_) (by omega)
      have next : a + 1 + BitVec.ofNat 32 i = a + BitVec.ofNat 32 (i + 1) := by
        rw [BitVec.ofNat_add, BitVec.add_assoc, BitVec.add_comm 1]
        rfl
      rw [next]
      exact nonzero (i + 1) (by omega)
    omega

theorem le_strlen {m : Memory} {a : Dword} {n : Nat} (nonzero : ∀ i < n, m (a + BitVec.ofNat 32 i) ≠ 0)
    (small : n ≤ 2 ^ 32) : n ≤ strlen m a := le_strlenUpTo nonzero small

theorem strlenUpTo_le {m : Memory} {a : Dword} {n fuel : Nat} (ends : m (a + BitVec.ofNat 32 n) = 0) :
    strlenUpTo m a fuel ≤ n := by
  induction fuel generalizing a n with
  | zero => exact Nat.zero_le _
  | succ fuel ih =>
    rw [strlenUpTo]
    split
    next => exact Nat.zero_le _
    next first =>
      obtain ⟨n, rfl⟩ : ∃ k, n = k + 1 := by
        refine ⟨n - 1, (Nat.succ_pred fun zero => first ?_).symm⟩
        simpa [zero] using ends
      have next : a + BitVec.ofNat 32 (n + 1) = a + 1 + BitVec.ofNat 32 n := by
        rw [BitVec.ofNat_add, BitVec.add_assoc, BitVec.add_comm 1]
        rfl
      rw [next] at ends
      exact Nat.succ_le_succ (ih ends)

theorem strlen_le {m : Memory} {a : Dword} {n : Nat} (ends : m (a + BitVec.ofNat 32 n) = 0) :
    strlen m a ≤ n := strlenUpTo_le ends

theorem strlenUpTo_ends {m : Memory} {a : Dword} {fuel : Nat} (short : strlenUpTo m a fuel < fuel) :
    m (a + BitVec.ofNat 32 (strlenUpTo m a fuel)) = 0 := by
  induction fuel generalizing a with
  | zero => exact absurd short (Nat.not_lt_zero _)
  | succ fuel ih =>
    rw [strlenUpTo] at short ⊢
    split at short
    next first => simp [first]
    next first =>
      have next : a + BitVec.ofNat 32 (strlenUpTo m (a + 1) fuel + 1) =
          a + 1 + BitVec.ofNat 32 (strlenUpTo m (a + 1) fuel) := by
        rw [BitVec.ofNat_add, BitVec.add_assoc, BitVec.add_comm 1]
        rfl
      rw [if_neg first, next]
      exact ih (Nat.lt_of_succ_lt_succ short)

theorem strlen_ends {m : Memory} {a : Dword} (short : strlen m a < 2 ^ 32) :
    m (a + BitVec.ofNat 32 (strlen m a)) = 0 := strlenUpTo_ends short

theorem exists_byte_notMem {l : List Byte} (few : l.length < 256) : ∃ b, b ∉ l := by
  by_contra every
  have every : ∀ b, b ∈ l := fun b => by_contra fun missing => every ⟨b, missing⟩
  have all : ((List.range 256).map (BitVec.ofNat 8)).Nodup := by
    apply List.Nodup.map_on _ List.nodup_range
    intro a small b small' same
    have value := congrArg BitVec.toNat same
    rw [List.mem_range] at small small'
    simp only [BitVec.toNat_ofNat] at value
    omega
  have bound := (all.subperm fun b _ => every b).length_le
  rw [List.length_map, List.length_range] at bound
  omega

/-! ## Where a block is -/

theorem offset_add (base : Dword) {i : Nat} (small : i < 2 ^ 32) :
    offset base (base + BitVec.ofNat 32 i) = i := by
  rw [offset, BitVec.add_comm, BitVec.add_sub_cancel, BitVec.toNat_ofNat]
  exact Nat.mod_eq_of_lt small

theorem add_offset (base a : Dword) : base + BitVec.ofNat 32 (offset base a) = a := by
  rw [offset, BitVec.ofNat_toNat, BitVec.setWidth_eq, BitVec.add_comm, BitVec.sub_add_cancel]

theorem copy_inside (m : Memory) (dst src : Dword) {n i : Nat} (fits : n ≤ 2 ^ 32) (inside : i < n) :
    copy m dst src n (dst + BitVec.ofNat 32 i) = m (src + BitVec.ofNat 32 i) := by
  rw [copy, offset_add dst (by omega), if_pos inside, BitVec.add_comm dst, BitVec.add_sub_cancel]

theorem copy_outside (m : Memory) (dst src : Dword) {n : Nat} {a : Dword}
    (outside : ∀ i < n, dst + BitVec.ofNat 32 i ≠ a) : copy m dst src n a = m a := by
  apply if_neg
  intro inside
  exact outside _ inside (add_offset dst a)

theorem store_inside (m : Memory) (dst : Dword) (bytes : List Byte) {i : Nat} (small : i < 2 ^ 32) :
    store m dst bytes (dst + BitVec.ofNat 32 i) =
      bytes.getD i (m (dst + BitVec.ofNat 32 i)) := by
  rw [store, offset_add dst small]

theorem store_outside (m : Memory) (dst : Dword) (bytes : List Byte) {a : Dword}
    (outside : ∀ i < bytes.length, dst + BitVec.ofNat 32 i ≠ a) : store m dst bytes a = m a := by
  have past : bytes.length ≤ offset dst a := by
    apply Nat.not_lt.mp
    intro inside
    exact outside _ inside (add_offset dst a)
  rw [store, List.getD_eq_default _ _ past]

end Pmdapi.Bytes
