import Pmdapi.LongIoLog

/-! The long write: what is fetched and what DOS accepts, and what the loop answers. -/

namespace Pmdapi
open Bytes Chunks

/-! ## The law -/

/-- Every request comes right after its fetch; only an error callback may follow the last one. -/
def FetchedFirst : List IoEvent → Prop
  | [] => True
  | .callback al _ size :: .dos count _ :: rest =>
    al = 1 ∧ size.toNat = count.toNat ∧ FetchedFirst rest
  | [.callback al _ _] => al = 2
  | _ => False

def requests (log : List IoEvent) : List Word :=
  log.filterMap fun
    | .dos count _ => some count
    | .callback _ _ _ => none

def clientBytes (s : RmHelper) (n : Nat) : List Byte :=
  (List.range n).map fun i => s.mem (s.io.ptr + BitVec.ofNat 32 i)

/-- What a long write does between `s` and its return in `t`. -/
structure LongWriteLaw (dos : WriteOracle) (s t : RmHelper) : Prop where
  fetched : FetchedFirst t.log
  consecutive : Consecutive 0 (calls 1 t.log)
  inside : ∀ c ∈ calls 1 t.log, c.1.toNat + c.2.toNat ≤ (s.reg .ecx).toNat
  atMost : (moved t.log).length ≤ (s.reg .ecx).toNat
  accepted : s.Apart → moved t.log = clientBytes s (moved t.log).length
  empty : s.reg .ecx = 0 → requests t.log = [0]
  answer : match dos 0 (count (s.reg .ecx).toNat) with
    | .error code => errorCodes t.log = [code]
    | .ok _ => errorCodes t.log = [] ∧ t.reg .eax = BitVec.ofNat 32 (moved t.log).length

def LongWriteMeets (dos : WriteOracle) (s : RmHelper) : Prop :=
  ∃ fuel t, lwStart dos fuel s = some t ∧ LongWriteLaw dos s t

def writeReply (dos : WriteOracle) (k n : Nat) : Except Word Nat :=
  (dos k (BitVec.ofNat 16 n)).map fun taken => taken.val.toNat

section Reply

variable {dos : WriteOracle}

theorem writeReply_ok {k n c : Nat} (answer : writeReply dos k n = .ok c) :
    ∃ taken, dos k (BitVec.ofNat 16 n) = .ok taken ∧ taken.val.toNat = c := by
  rw [writeReply] at answer
  cases came : dos k (BitVec.ofNat 16 n) with
  | error code =>
    rw [came] at answer
    cases answer
  | ok taken =>
    rw [came] at answer
    exact ⟨taken, rfl, Except.ok.inj answer⟩

theorem writeReply_error {k n : Nat} {code : Word} (answer : writeReply dos k n = .error code) :
    dos k (BitVec.ofNat 16 n) = .error code := by
  rw [writeReply] at answer
  cases came : dos k (BitVec.ofNat 16 n) with
  | error e =>
    rw [came] at answer
    cases answer
    rfl
  | ok taken =>
    rw [came] at answer
    cases answer

theorem writeReply_bounded (dos : WriteOracle) : Bounded (writeReply dos) := by
  intro k n c answer
  obtain ⟨taken, _, rfl⟩ := writeReply_ok answer
  have bound : taken.val.toNat ≤ (BitVec.ofNat 16 n).toNat := taken.property
  exact Nat.le_trans bound (Nat.mod_le _ _)

end Reply

/-! ## One pass -/

def fetchedMem (u : RmHelper) (total size : Nat) : Memory :=
  if BitVec.ofNat 32 total + BitVec.ofNat 32 size ≤ u.io.size then
    copy u.mem u.dosPtr (u.io.ptr + BitVec.ofNat 32 total) size
  else u.mem

section Pass

variable {dos : WriteOracle} {u : RmHelper} {k n total : Nat}

def fetchEvent (total n : Nat) : IoEvent :=
  .callback 1 (BitVec.ofNat 32 total) (BitVec.ofNat 32 (min n 65535))

theorem AtHead.fetch (head : AtHead u k n total) :
    Asking u u.cutCount.fetch [fetchEvent total n] (fetchedMem u total (min n 65535)) k n total := by
  have asking := head.cutCount
  obtain ⟨called, regs, next⟩ := u.cutCount.fetch_spec
  have whole := asking.served.trans called
  have small : min n 65535 < 2 ^ 32 := by omega
  rw [asking.edi, asking.ecx, asking.served.io, asking.served.mem, asking.served.dosPtr,
    toNat_ofNat small] at whole
  constructor
  · exact whole
  · rw [regs _ (by decide), asking.edi]
  · rw [regs _ (by decide), asking.esi]
  · rw [regs _ (by decide), asking.ecx]
  · rw [next, asking.next]

theorem writePass_error {code : Word} (head : AtHead u k n total)
    (answer : dos k (count n) = .error code) :
    ∃ v, writePass dos u = .done v.setCf ∧
      RmHelper.Served u v [fetchEvent total n, .dos (count n) (.error code)]
        (fetchedMem u total (min n 65535)) ∧
      v.reg .edi = BitVec.ofNat 32 total ∧ loWord (v.reg .eax) = code := by
  have asking := head.fetch.movbAh 0x40
  generalize asked : u.cutCount.fetch.movbAh 0x40 = w at asking
  have called := w.int21Write_error asking.next asking.count answer
  refine ⟨w.answered code true (.error code), ?_, ?_, asking.edi, loWord_setLoWord _ _⟩
  · rw [writePass, asked, called]
    rfl
  · have whole := asking.served.trans (w.served_answered code true (.error code))
    rw [asking.served.mem, asking.count] at whole
    exact whole

def takenBytes (u : RmHelper) (total n c : Nat) : List Byte :=
  (List.range c).map fun i => fetchedMem u total (min n 65535) (u.dosPtr + BitVec.ofNat 32 i)

theorem writePass_ok {taken : { c : Word // c ≤ count n }} (head : AtHead u k n total)
    (answer : dos k (count n) = .ok taken) :
    ∃ v, writePass dos u = v.advance ∧
      RmHelper.Served u v [fetchEvent total n,
        .dos (count n) (.ok (takenBytes u total n taken.val.toNat))]
        (fetchedMem u total (min n 65535)) ∧
      RmHelper.Counted v (total + taken.val.toNat) n taken.val.toNat ∧ v.served = k + 1 := by
  have asking := head.fetch.movbAh 0x40
  generalize asked : u.cutCount.fetch.movbAh 0x40 = w at asking
  have called := w.int21Write_ok asking.next asking.count answer
  generalize taken.val = c at called ⊢
  generalize came : w.answered c false (.ok (w.atDosPtr c.toNat)) = x at called
  have pass : writePass dos u = x.movzwl.addTotal.advance := by
    rw [writePass, asked, called, ← came]
    rfl
  have eax : x.movzwl.reg .eax = BitVec.ofNat 32 c.toNat := by
    rw [← zext_ofNat c.isLt, RmHelper.movzwl, RmHelper.reg_movl, if_pos rfl, RmHelper.lword_eq, ← came,
      BitVec.ofNat_toNat, BitVec.setWidth_eq]
    exact congrArg zext (loWord_setLoWord _ _)
  have edi : x.movzwl.reg .edi = BitVec.ofNat 32 total := by
    rw [← asking.edi, ← came]
    rfl
  have bytes : w.atDosPtr c.toNat = takenBytes u total n c.toNat := by
    rw [RmHelper.atDosPtr, asking.served.mem, asking.served.dosPtr]
    rfl
  have answered := asking.served.trans (w.served_answered c false (.ok (w.atDosPtr c.toNat)))
  rw [came, asking.served.mem, asking.count, bytes] at answered
  have whole : RmHelper.Served u x.movzwl.addTotal _ _ :=
    (answered.movl (by decide)).movl (by decide)
  refine ⟨_, pass, whole, ⟨?_, ?_, ?_, ?_⟩, ?_⟩
  · rw [RmHelper.addTotal, RmHelper.reg_movl, if_pos rfl, edi, eax, BitVec.ofNat_add]
  · rw [RmHelper.addTotal, RmHelper.reg_movl, if_neg (by decide), ← asking.esi, ← came]
    rfl
  · rw [RmHelper.addTotal, RmHelper.reg_movl, if_neg (by decide), ← asking.ecx, ← came]
    rfl
  · rw [RmHelper.addTotal, RmHelper.reg_movl, if_neg (by decide), eax]
  · rw [← asking.next, ← came]
    rfl

end Pass

/-! ## The transfer so far -/

theorem FetchedFirst.append {log rest : List IoEvent} (before : FetchedFirst log)
    (quiet : errorCodes log = []) (after : FetchedFirst rest) : FetchedFirst (log ++ rest) := by
  fun_induction FetchedFirst log with
  | case1 => exact after
  | case2 al edi size count reply tail ih =>
    obtain ⟨fetch, same, later⟩ := before
    refine ⟨fetch, same, ih later ?_⟩
    subst fetch
    exact quiet
  | case3 al edi size =>
    subst before
    cases quiet
  | case4 => exact before.elim

structure Accepted (s u : RmHelper) (total : Nat) : Prop where
  fetched : FetchedFirst u.log
  consecutive : Consecutive 0 (calls 1 u.log)
  inside : ∀ c ∈ calls 1 u.log, c.1.toNat + c.2.toNat ≤ (s.reg .ecx).toNat
  length : (moved u.log).length = total
  accepted : s.Apart → moved u.log = clientBytes s total
  atMost : total ≤ (s.reg .ecx).toNat

structure WriteProgress (s u : RmHelper) (total upTo : Nat) : Prop extends Accepted s u total where
  upTo : amount (calls 1 u.log) = upTo
  kept : s.Apart → ∀ i < (s.reg .ecx).toNat,
    u.mem (s.io.ptr + BitVec.ofNat 32 i) = s.mem (s.io.ptr + BitVec.ofNat 32 i)
  io : u.io = s.io
  ptr : u.dosPtr = s.dosPtr
  quiet : errorCodes u.log = []

section Progress

variable {s u v : RmHelper} {total upTo : Nat}

theorem WriteProgress.movl {r : Gpr} {d : Dword} (progress : WriteProgress s u total upTo)
    (other : r ≠ .edx) : WriteProgress s (u.movl r d) total upTo := by
  refine ⟨⟨progress.fetched, progress.consecutive, progress.inside, progress.length,
    progress.accepted, progress.atMost⟩, progress.upTo, progress.kept, progress.io, ?_, progress.quiet⟩
  rw [← progress.ptr, RmHelper.dosPtr, RmHelper.dosPtr, RmHelper.lword_eq, RmHelper.lword_eq,
    RmHelper.reg_movl, if_neg (Ne.symm other)]
  rfl

theorem WriteProgress.refused {d e : Dword} (progress : WriteProgress s u total upTo)
    (log : v.log = u.log ++ [.callback 2 d e]) : Accepted s v total := by
  have calls_eq : calls 1 v.log = calls 1 u.log := by
    rw [log, calls_append]
    exact List.append_nil _
  have moved_eq : moved v.log = moved u.log := by
    rw [log, moved_append]
    exact List.append_nil _
  refine ⟨?_, ?_, ?_, ?_, ?_, progress.atMost⟩
  · rw [log]
    exact progress.fetched.append progress.quiet rfl
  · rw [calls_eq]
    exact progress.consecutive
  · rw [calls_eq]
    exact progress.inside
  · rw [moved_eq]
    exact progress.length
  · rw [moved_eq]
    exact progress.accepted

section Fetch

variable {n : Nat} (progress : WriteProgress s u total upTo) (buffer : s.io.size = s.reg .ecx)
  (left : total + n = (s.reg .ecx).toNat)
include progress buffer left

theorem fetchedMem_inside : fetchedMem u total (min n 65535) =
    copy u.mem s.dosPtr (s.io.ptr + BitVec.ofNat 32 total) (min n 65535) := by
  have bound := (s.reg .ecx).isLt
  have goes : BitVec.ofNat 32 total + BitVec.ofNat 32 (min n 65535) ≤ u.io.size := by
    rw [← BitVec.ofNat_add, progress.io, buffer, BitVec.le_def, toNat_ofNat (by omega)]
    omega
  rw [fetchedMem, if_pos goes, progress.io, progress.ptr]

theorem fetchedMem_kept (apart : s.Apart) {i : Nat} (inside : i < (s.reg .ecx).toNat) :
    fetchedMem u total (min n 65535) (s.io.ptr + BitVec.ofNat 32 i) =
      s.mem (s.io.ptr + BitVec.ofNat 32 i) := by
  rw [fetchedMem_inside progress buffer left, copy_outside]
  · exact progress.kept apart i inside
  · intro j below
    exact apart j (by omega) i inside

theorem takenBytes_eq (apart : s.Apart) {c : Nat} (most : c ≤ min n 65535) :
    clientBytes s total ++ takenBytes u total n c = clientBytes s (total + c) := by
  rw [clientBytes, clientBytes, List.range_add, List.map_append, takenBytes, List.map_map]
  congr 1
  apply List.map_congr_left
  intro i below
  have small : i < c := List.mem_range.mp below
  rw [progress.ptr, fetchedMem_inside progress buffer left, copy_inside _ _ _ (by omega) (by omega),
    BitVec.add_assoc, ← BitVec.ofNat_add, progress.kept apart _ (by omega)]
  rfl

end Fetch

theorem WriteProgress.pass {n c : Nat} {reply : Except Word (List Byte)}
    (progress : WriteProgress s u total total) (buffer : s.io.size = s.reg .ecx)
    (left : total + n = (s.reg .ecx).toNat) (most : c ≤ min n 65535)
    (served : RmHelper.Served u v [fetchEvent total n, .dos (count n) reply]
      (fetchedMem u total (min n 65535)))
    (bytes : moved [.dos (count n) reply] = takenBytes u total n c) :
    WriteProgress s v (total + c) (total + min n 65535) := by
  have bound := (s.reg .ecx).isLt
  have fetch : calls 1 v.log =
      calls 1 u.log ++ [(BitVec.ofNat 32 total, BitVec.ofNat 32 (min n 65535))] := by
    rw [served.log, calls_append]
    rfl
  have data : moved v.log = moved u.log ++ takenBytes u total n c := by
    rw [served.log, moved_append, ← bytes]
    rfl
  refine ⟨⟨?_, ?_, ?_, ?_, ?_, by omega⟩, ?_, ?_, ?_, ?_, ?_⟩
  · rw [served.log]
    apply progress.fetched.append progress.quiet
    refine ⟨rfl, ?_, trivial⟩
    rw [count, BitVec.toNat_ofNat, BitVec.toNat_ofNat]
    omega
  · rw [fetch]
    apply consecutive_append progress.consecutive
    rw [progress.upTo, toNat_ofNat (by omega), Nat.zero_add]
  · intro piece member
    rw [fetch, List.mem_append, List.mem_singleton] at member
    rcases member with old | rfl
    · exact progress.inside piece old
    · rw [toNat_ofNat (by omega), toNat_ofNat (by omega)]
      omega
  · rw [data, List.length_append, progress.length, takenBytes, List.length_map, List.length_range]
  · intro apart
    rw [data, progress.accepted apart]
    exact takenBytes_eq progress buffer left apart most
  · rw [fetch, amount_append, progress.upTo]
    simp only [amount, List.map_cons, List.map_nil, List.sum_singleton]
    rw [toNat_ofNat (by omega)]
  · intro apart i inside
    rw [served.mem]
    exact fetchedMem_kept progress buffer left apart inside
  · exact served.io.trans progress.io
  · exact served.dosPtr.trans progress.ptr
  · rw [served.log, errorCodes_append, progress.quiet]
    rfl

end Progress

/-! ## The whole loop -/

section Loop

variable {dos : WriteOracle} {s : RmHelper}

def WriteEnds (s t : RmHelper) (total : Nat) : Exit Word → Prop
  | .complete => ∃ upTo, WriteProgress s t total upTo ∧ t.reg .eax = BitVec.ofNat 32 total
  | .short c => ∃ upTo, WriteProgress s t total upTo ∧ t.reg .eax = BitVec.ofNat 32 c
  | .failed code =>
    if total = 0 then Accepted s t 0 ∧ errorCodes t.log = [code]
    else ∃ upTo, WriteProgress s t total upTo ∧ t.reg .eax = BitVec.ofNat 32 total

theorem requests_append (first second : List IoEvent) :
    requests (first ++ second) = requests first ++ requests second := List.filterMap_append

theorem writePass_failed {k n total : Nat} {code : Word} {u : RmHelper}
    (buffer : s.io.size = s.reg .ecx) (answer : writeReply dos k (min n 65535) = .error code)
    (head : AtHead u k n total) (progress : WriteProgress s u total total)
    (left : total + n = (s.reg .ecx).toNat) :
    ∃ t, writePass dos u = .done t ∧ WriteEnds s t total (.failed code) ∧
      requests t.log = requests u.log ++ [count n] := by
  obtain ⟨v, pass, served, edi, eax⟩ := writePass_error head (writeReply_error answer)
  have after : WriteProgress s v total _ := progress.pass buffer left (Nat.zero_le _) served rfl
  have asked : requests v.log = requests u.log ++ [count n] := by
    rw [served.log, requests_append]
    rfl
  refine ⟨v.setCf, pass, ?_⟩
  by_cases first : total = 0
  · subst first
    obtain ⟨log, _⟩ := v.setCf_first edi
    refine ⟨⟨after.refused log, ?_⟩, ?_⟩
    · rw [log, errorCodes_append, after.quiet, ← eax]
      rfl
    · rw [log, requests_append, asked]
      exact List.append_nil _
  · have bound := (s.reg .ecx).isLt
    rw [v.setCf_later edi (by omega) (by omega), WriteEnds, if_neg first]
    exact ⟨⟨_, after.movl (by decide), rfl⟩, asked⟩

theorem writePass_chunk {k n c total : Nat} {u : RmHelper} (buffer : s.io.size = s.reg .ecx)
    (answer : writeReply dos k (min n 65535) = .ok c) (head : AtHead u k n total)
    (progress : WriteProgress s u total total) (left : total + n = (s.reg .ecx).toNat) :
    ∃ v, writePass dos u = v.advance ∧ RmHelper.Counted v (total + c) n c ∧
      WriteProgress s v (total + c) (total + min n 65535) ∧ v.served = k + 1 ∧
      requests v.log = requests u.log ++ [count n] := by
  have most := writeReply_bounded dos k _ c answer
  obtain ⟨taken, came, rfl⟩ := writeReply_ok answer
  obtain ⟨v, pass, served, counted, next⟩ := writePass_ok head came
  have data : moved [.dos (count n) (.ok (takenBytes u total n taken.val.toNat))] =
      takenBytes u total n taken.val.toNat := List.append_nil _
  refine ⟨v, pass, counted, progress.pass buffer left most served data, next, ?_⟩
  rw [served.log, requests_append]
  rfl

/-- A transfer from the head of the loop: the loop ends, and how decides over EAX. -/
theorem writeLoop_transfer {k n : Nat} {cs : List Nat} {e : Exit Word}
    (transfer : Transfer (writeReply dos) 65535 k n cs e) (buffer : s.io.size = s.reg .ecx)
    {u : RmHelper} {total : Nat} (head : AtHead u k n total)
    (progress : WriteProgress s u total total) (left : total + n = (s.reg .ecx).toNat) :
    ∃ fuel t, runLoop (writePass dos) fuel u = some t ∧ WriteEnds s t (total + cs.sum) e ∧
      (n = 0 → requests t.log = requests u.log ++ [0]) := by
  induction transfer generalizing u total with
  | @failed k n code answer =>
    obtain ⟨t, pass, ends, asked⟩ := writePass_failed buffer answer head progress left
    refine ⟨1, t, ?_, ends, ?_⟩
    · rw [runLoop, pass]
    · rintro rfl
      exact asked
  | @short k n c answer less =>
    obtain ⟨v, pass, counted, after, _, asked⟩ := writePass_chunk buffer answer head progress left
    refine ⟨1, v, ?_, ⟨_, after, counted.eax⟩, ?_⟩
    · rw [runLoop, pass, RmHelper.advance_short counted less]
    · rintro rfl
      exact asked
  | @complete k n answer last =>
    rw [← Nat.min_eq_left last] at answer
    obtain ⟨v, pass, counted, after, _, asked⟩ := writePass_chunk buffer answer head progress left
    rw [Nat.min_eq_left last] at counted after
    refine ⟨1, (v.movl .ecx 0).movl .eax (BitVec.ofNat 32 (total + n)), ?_, ⟨total + n, ?_, rfl⟩, ?_⟩
    · rw [runLoop, pass, RmHelper.advance_complete counted last]
    · exact (after.movl (by decide)).movl (by decide)
    · rintro rfl
      exact asked
  | @more k n cs e answer more rest ih =>
    rw [← Nat.min_eq_right (Nat.le_of_lt more)] at answer
    obtain ⟨v, pass, counted, after, next, _⟩ := writePass_chunk buffer answer head progress left
    rw [Nat.min_eq_right (Nat.le_of_lt more)] at counted after
    have newHead : AtHead (v.movl .ecx (BitVec.ofNat 32 (n - 65535))) (k + 1) (n - 65535)
        (total + 65535) := by
      have fits := head.fits
      exact ⟨counted.edi, rfl, next, by omega⟩
    obtain ⟨fuel, t, loop, ends, _⟩ := ih newHead (after.movl (by decide)) (by omega)
    refine ⟨fuel + 1, t, ?_, ?_, ?_⟩
    · rw [runLoop, pass, RmHelper.advance_more counted head.fits more]
      exact loop
    · rw [List.sum_cons, ← Nat.add_assoc]
      exact ends
    · intro none
      omega

/-! ## The claim of the write -/

theorem enter_writeProgress (fresh : s.log = []) : WriteProgress s s.enter 0 0 := by
  have empty : s.enter.log = [] := fresh
  refine ⟨⟨?_, ?_, ?_, ?_, ?_, Nat.zero_le _⟩, ?_, ?_, rfl, rfl, ?_⟩
  all_goals try rw [empty]
  · trivial
  · trivial
  · exact fun c member => absurd member List.not_mem_nil
  · rfl
  · exact fun _ => rfl
  · rfl
  · exact fun _ _ _ => rfl
  · rfl

theorem writeLaw_of_answer {t : RmHelper} {total : Nat} (done : Accepted s t total)
    (empty : s.reg .ecx = 0 → requests t.log = [0])
    (answer : match dos 0 (count (s.reg .ecx).toNat) with
      | .error code => errorCodes t.log = [code]
      | .ok _ => errorCodes t.log = [] ∧ t.reg .eax = BitVec.ofNat 32 (moved t.log).length) :
    LongWriteLaw dos s t.leave where
  fetched := done.fetched
  consecutive := done.consecutive
  inside := done.inside
  atMost := by
    change (moved t.log).length ≤ _
    rw [done.length]
    exact done.atMost
  accepted := by
    intro apart
    change moved t.log = clientBytes s (moved t.log).length
    rw [done.length]
    exact done.accepted apart
  empty := empty
  answer := answer

theorem writeLaw_of_progress {t : RmHelper} {total upTo : Nat}
    (progress : WriteProgress s t total upTo) (empty : s.reg .ecx = 0 → requests t.log = [0])
    (taken : ∃ taken, dos 0 (count (s.reg .ecx).toNat) = .ok taken)
    (eax : t.reg .eax = BitVec.ofNat 32 total) : LongWriteLaw dos s t.leave := by
  obtain ⟨taken, first⟩ := taken
  apply writeLaw_of_answer progress.toAccepted empty
  rw [first, progress.length]
  exact ⟨progress.quiet, eax⟩

theorem first_taken {c : Nat} (answer : writeReply dos 0 (min (s.reg .ecx).toNat 65535) = .ok c) :
    ∃ taken, dos 0 (count (s.reg .ecx).toNat) = .ok taken := by
  obtain ⟨taken, came, _⟩ := writeReply_ok answer
  exact ⟨taken, came⟩

/-- A transfer that does not end short after a full chunk is answered rightly. -/
theorem writeLaw_of_ends {t : RmHelper} {cs : List Nat} {e : Exit Word}
    (transfer : Transfer (writeReply dos) 65535 0 (s.reg .ecx).toNat cs e)
    (ends : WriteEnds s t cs.sum e) (empty : s.reg .ecx = 0 → requests t.log = [0])
    (fine : ¬((∃ c, e = .short c) ∧ 2 ≤ cs.length)) : LongWriteLaw dos s t.leave := by
  rcases transfer.first with ⟨code, answer, rfl, rfl⟩ | ⟨c, rest, answer, rfl⟩
  · have ended : Accepted s t 0 ∧ errorCodes t.log = [code] := ends
    obtain ⟨done, codes⟩ := ended
    apply writeLaw_of_answer done empty
    have came : dos 0 (count (s.reg .ecx).toNat) = .error code := writeReply_error answer
    rw [came]
    exact codes
  · have taken := first_taken answer
    cases e with
    | complete =>
      obtain ⟨upTo, progress, eax⟩ := ends
      exact writeLaw_of_progress progress empty taken eax
    | short d =>
      obtain ⟨nonempty, sum⟩ := transfer.short_sum
      have single : (c :: rest).length - 1 = 0 := by
        by_contra longer
        exact fine ⟨⟨d, rfl⟩, by omega⟩
      rw [single, Nat.mul_zero, Nat.zero_add] at sum
      obtain ⟨upTo, progress, eax⟩ := ends
      rw [sum] at progress
      exact writeLaw_of_progress progress empty taken eax
    | failed code =>
      have some : 0 < (c :: rest).sum := (transfer.failed_sum (by decide)).resolve_left nofun
      rw [WriteEnds, if_neg (by omega)] at ends
      obtain ⟨upTo, progress, eax⟩ := ends
      exact writeLaw_of_progress progress empty taken eax

theorem not_writeLaw_of_short {t : RmHelper} {cs : List Nat} {d : Nat}
    (transfer : Transfer (writeReply dos) 65535 0 (s.reg .ecx).toNat cs (.short d))
    (ends : WriteEnds s t cs.sum (.short d)) (later : 2 ≤ cs.length) :
    ¬LongWriteLaw dos s t.leave := by
  intro law
  have limit := (s.reg .ecx).isLt
  obtain ⟨_, sum⟩ := transfer.short_sum
  have most := transfer.sum_le
  have atLeast : 65535 * 1 ≤ 65535 * (cs.length - 1) := Nat.mul_le_mul_left _ (by omega)
  obtain ⟨upTo, progress, short⟩ := ends
  rcases transfer.first with ⟨_, _, rfl, _⟩ | ⟨c, rest, answer, _⟩
  · simp at later
  · obtain ⟨taken, first⟩ := first_taken answer
    have total := law.answer
    rw [first] at total
    have length : (moved t.leave.log).length = cs.sum := progress.length
    have eax := short.symm.trans total.2
    rw [length] at eax
    have values := congrArg BitVec.toNat eax
    rw [toNat_ofNat (by omega), toNat_ofNat (by omega)] at values
    omega

theorem lwStart_returns (dos : WriteOracle) {s : RmHelper} (fresh : s.served = 0 ∧ s.log = [])
    (buffer : s.io.size = s.reg .ecx) :
    ∃ cs e fuel t, Transfer (writeReply dos) 65535 0 (s.reg .ecx).toNat cs e ∧
      lwStart dos fuel s = some t.leave ∧ WriteEnds s t cs.sum e ∧
      (s.reg .ecx = 0 → requests t.log = [0]) := by
  obtain ⟨cs, e, transfer⟩ := Transfer.exists (writeReply_bounded dos) (by decide : 0 < 65535) 0
    (s.reg .ecx).toNat
  obtain ⟨fuel, t, loop, ends, asked⟩ := writeLoop_transfer transfer buffer (enter_atHead fresh.1)
    (enter_writeProgress fresh.2) (Nat.zero_add _)
  rw [Nat.zero_add] at ends
  refine ⟨cs, e, fuel, t, transfer, ?_, ends, ?_⟩
  · rw [lwStart, loop, Option.map_some]
  · intro none
    have empty : s.enter.log = [] := fresh.2
    rw [empty] at asked
    apply asked
    rw [none]
    rfl

theorem lwStart_unique {fuel other : Nat} {t u : RmHelper} (first : lwStart dos fuel s = some t)
    (second : lwStart dos other s = some u) : t = u := by
  obtain ⟨v, looped, rfl⟩ := Option.map_eq_some_iff.mp first
  obtain ⟨w, again, rfl⟩ := Option.map_eq_some_iff.mp second
  rw [runLoop_unique looped again]

theorem not_writeMeets_of_shortLater (fresh : s.served = 0 ∧ s.log = [])
    (buffer : s.io.size = s.reg .ecx)
    (short : ShortLater (writeReply dos) (s.reg .ecx).toNat) : ¬LongWriteMeets dos s := by
  obtain ⟨cs, e, fuel, t, transfer, returns, ends, _⟩ := lwStart_returns dos fresh buffer
  obtain ⟨⟨d, rfl⟩, later⟩ := (shortLater_iff transfer).mp short
  rintro ⟨other, u, returned, law⟩
  rw [← lwStart_unique returns returned] at law
  exact not_writeLaw_of_short transfer ends later law

/-- The write does what it should just if DOS takes every chunk after the first in full. -/
theorem long_write_meets_iff (dos : WriteOracle) (s : RmHelper)
    (fresh : s.served = 0 ∧ s.log = []) (buffer : s.io.size = s.reg .ecx) :
    LongWriteMeets dos s ↔ ¬ShortLater (writeReply dos) (s.reg .ecx).toNat := by
  constructor
  · intro meets short
    exact not_writeMeets_of_shortLater fresh buffer short meets
  · intro fine
    obtain ⟨cs, e, fuel, t, transfer, returns, ends, empty⟩ := lwStart_returns dos fresh buffer
    rw [shortLater_iff transfer] at fine
    exact ⟨fuel, t.leave, returns, writeLaw_of_ends transfer ends empty fine⟩

end Loop

def endlessDisk : WriteOracle := fun _ count => .ok ⟨count, BitVec.le_refl _⟩

theorem full_endlessDisk : Full (writeReply endlessDisk) 65535 := by
  intro k n most
  have taken : (BitVec.ofNat 16 n).toNat = n := by rw [BitVec.toNat_ofNat, Nat.mod_eq_of_lt (by omega)]
  exact congrArg Except.ok taken

/-- Two full chunks, and a last one of 2 bytes. -/
theorem long_write_meets_chunks : LongWriteMeets endlessDisk (ioClient 0x20000) := by
  apply (long_write_meets_iff endlessDisk (ioClient 0x20000) ⟨rfl, rfl⟩ rfl).mpr
  exact not_shortLater_of_full full_endlessDisk _

theorem zero_le_word (n : Word) : 0 ≤ n := Nat.zero_le _

def diskOf65535 : WriteOracle := fun k count =>
  if k = 0 then .ok ⟨count, BitVec.le_refl _⟩ else .ok ⟨0, zero_le_word count⟩

/-- With 128 KiB to write, the second request meets the full disk, and EAX is 0. -/
theorem long_write_misses_second_chunk : ¬LongWriteMeets diskOf65535 (ioClient 0x20000) := by
  apply not_writeMeets_of_shortLater ⟨rfl, rfl⟩ rfl
  refine ⟨1, by decide, .inr (by decide), ?_, 0, by decide, rfl⟩
  intro i first
  have zero : 0 + i = 0 := by omega
  rw [zero]
  rfl

end Pmdapi
