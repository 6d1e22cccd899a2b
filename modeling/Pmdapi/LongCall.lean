import Pmdapi.FailedCall
import Pmdapi.Library.Pieces
import Pmdapi.LongRead
import Pmdapi.LongWrite
import Pmdapi.RegisterTransfer

/-! int 21h/3Fh and 40h from the client's call to its return, the helper and its callbacks included. -/

namespace Pmdapi
open Bytes Chunks Effect

/-! ## What DOS answers -/

/-- A read of `n` bytes by requests of at most 65535 bytes, from request `k` on: the data and the end. -/
inductive Reads (dos : ReadOracle) : Nat → Nat → List Byte → Exit Word → Prop where
  | failed {k n : Nat} {code : Word} (answer : dos k (count n) = .error code) :
      Reads dos k n [] (.failed code)
  | short {k n : Nat} {data : { data : List Byte // data.length ≤ (count n).toNat }}
      (answer : dos k (count n) = .ok data) (less : data.val.length < min n 65535) :
      Reads dos k n data.val (.short data.val.length)
  | complete {k n : Nat} {data : { data : List Byte // data.length ≤ (count n).toNat }}
      (answer : dos k (count n) = .ok data) (all : data.val.length = n) (last : n ≤ 65535) :
      Reads dos k n data.val .complete
  | more {k n : Nat} {data : { data : List Byte // data.length ≤ (count n).toNat }} {rest : List Byte}
      {e : Exit Word} (answer : dos k (count n) = .ok data) (full : data.val.length = 65535)
      (left : 65535 < n) (later : Reads dos (k + 1) (n - 65535) rest e) :
      Reads dos k n (data.val ++ rest) e

theorem count_toNat (n : Nat) : (count n).toNat = min n 65535 := by
  rw [count, BitVec.toNat_ofNat]
  omega

theorem Reads.exists (dos : ReadOracle) (k n : Nat) : ∃ data e, Reads dos k n data e := by
  induction n using Nat.strongRecOn generalizing k with
  | ind n ih =>
    cases answer : dos k (count n) with
    | error code => exact ⟨_, _, .failed answer⟩
    | ok data =>
      have most : data.val.length ≤ min n 65535 := count_toNat n ▸ data.property
      by_cases less : data.val.length < min n 65535
      · exact ⟨_, _, .short answer less⟩
      by_cases last : n ≤ 65535
      · exact ⟨_, _, .complete answer (by omega) last⟩
      · obtain ⟨rest, e, later⟩ := ih (n - 65535) (by omega) (k + 1)
        exact ⟨_, _, .more answer (by omega) (by omega) later⟩

theorem Reads.length_le {dos : ReadOracle} {k n : Nat} {data : List Byte} {e : Exit Word}
    (reads : Reads dos k n data e) : data.length ≤ n := by
  induction reads with
  | failed => exact Nat.zero_le _
  | short _ less => omega
  | complete _ all => omega
  | more _ full left later ih =>
    rw [List.length_append]
    omega

structure LoopBuffers (u : RmHelper) (N : Nat) : Prop where
  fits : N ≤ u.io.size.toNat
  apart : Block.Apart ⟨u.dosPtr, 65535⟩ ⟨u.io.ptr, N⟩

section Loops

variable {u v : RmHelper} {N : Nat}

theorem LoopBuffers.bound (buffers : LoopBuffers u N) : N < 2 ^ 32 :=
  Nat.lt_of_le_of_lt buffers.fits u.io.size.isLt

theorem LoopBuffers.served {events : List IoEvent} {mem : Memory} (buffers : LoopBuffers u N)
    (served : RmHelper.Served u v events mem) : LoopBuffers v N := by
  refine ⟨?_, ?_⟩
  · rw [served.io]
    exact buffers.fits
  · rw [served.dosPtr, served.io]
    exact buffers.apart

theorem LoopBuffers.inside (buffers : LoopBuffers u N) {total size : Nat} (chunk : total + size ≤ N) :
    BitVec.ofNat 32 total + BitVec.ofNat 32 size ≤ u.io.size := by
  have bound := buffers.bound
  rw [← BitVec.ofNat_add, BitVec.le_def, toNat_ofNat (by omega)]
  exact Nat.le_trans chunk buffers.fits

end Loops

/-! ## The way down -/

variable {σ : Type} (h : DpmiHost σ)

namespace State

end State

end Pmdapi
