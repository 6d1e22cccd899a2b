import Pmdapi.LongIoLog

/-! The long read: what the callbacks get, and what the loop answers. -/

namespace Pmdapi
open Bytes Chunks

/-! ## The law -/

/-- What a long read does between `s` and its return in `t`. -/
structure LongReadLaw (dos : ReadOracle) (s t : RmHelper) : Prop where
  consecutive : Consecutive 0 (calls 0 t.log)
  atMost : amount (calls 0 t.log) ≤ (s.reg .ecx).toNat
  inside : ∀ c ∈ calls 0 t.log, c.1 + c.2 ≤ s.io.size
  stored : s.Apart → ∀ i < (s.reg .ecx).toNat, t.mem (s.io.ptr + BitVec.ofNat 32 i) =
    (moved t.log).getD i (s.mem (s.io.ptr + BitVec.ofNat 32 i))
  answer : match dos 0 (count (s.reg .ecx).toNat) with
    | .error code => errorCodes t.log = [code] ∧ calls 0 t.log = []
    | .ok _ => errorCodes t.log = [] ∧ t.reg .eax = BitVec.ofNat 32 (moved t.log).length

def LongReadMeets (dos : ReadOracle) (s : RmHelper) : Prop :=
  ∃ fuel t, lrStart dos fuel s = some t ∧ LongReadLaw dos s t

def readReply (dos : ReadOracle) (k n : Nat) : Except Word Nat :=
  (dos k (BitVec.ofNat 16 n)).map fun data => data.val.length

/-! ## One pass -/

section Pass

variable {dos : ReadOracle} {u : RmHelper} {k n total : Nat}

theorem readPass_error {code : Word} (head : AtHead u k n total)
    (answer : dos k (count n) = .error code) :
    ∃ v, readPass dos u = .done v.setCf ∧
      RmHelper.Served u v [.dos (count n) (.error code)] u.mem ∧
      v.reg .edi = BitVec.ofNat 32 total ∧ loWord (v.reg .eax) = code := by
  have asking := head.cutCount.movbAh 0x3f
  generalize asked : u.cutCount.movbAh 0x3f = w at asking
  have called := w.int21Read_error asking.next asking.count answer
  refine ⟨w.answered code true (.error code), ?_, ?_, asking.edi, loWord_setLoWord _ _⟩
  · rw [readPass, asked, called]
    rfl
  · have whole := asking.served.trans (w.served_answered code true (.error code))
    rw [asking.served.mem, asking.count] at whole
    exact whole

def delivered (u : RmHelper) (total : Nat) (data : List Byte) : Memory :=
  let stored := store u.mem u.dosPtr data
  if BitVec.ofNat 32 total + BitVec.ofNat 32 data.length ≤ u.io.size then
    copy stored (u.io.ptr + BitVec.ofNat 32 total) u.dosPtr data.length
  else stored

theorem readPass_ok {data : { data : List Byte // data.length ≤ (count n).toNat }}
    (head : AtHead u k n total) (answer : dos k (count n) = .ok data) :
    ∃ v, readPass dos u = v.advance ∧
      RmHelper.Served u v [.dos (count n) (.ok data.val),
        .callback 0 (BitVec.ofNat 32 total) (BitVec.ofNat 32 data.val.length)]
        (delivered u total data.val) ∧
      RmHelper.Counted v (total + data.val.length) n data.val.length ∧ v.served = k + 1 := by
  have asking := head.cutCount.movbAh 0x3f
  generalize asked : u.cutCount.movbAh 0x3f = w at asking
  have small : data.val.length < 65536 := by
    have bound := data.property
    have word := (count n).isLt
    omega
  have called := w.int21Read_ok asking.next asking.count answer
  generalize data.val = bytes at small called ⊢
  generalize came : { w.answered (BitVec.ofNat 16 bytes.length) false (.ok bytes) with
    mem := store w.mem w.dosPtr bytes } = x at called
  have pass : readPass dos u = x.movzwl.deliver.addTotal.advance := by
    rw [readPass, asked, called, ← came]
    rfl
  have eax : x.movzwl.reg .eax = BitVec.ofNat 32 bytes.length := by
    rw [← zext_ofNat small, RmHelper.movzwl, RmHelper.reg_movl, if_pos rfl, RmHelper.lword_eq, ← came]
    exact congrArg zext (loWord_setLoWord _ _)
  have edi : x.movzwl.reg .edi = BitVec.ofNat 32 total := by
    rw [← asking.edi, ← came]
    rfl
  have arrived : RmHelper.Served w x.movzwl [.dos (count n) (.ok bytes)] (store w.mem w.dosPtr bytes) := by
    rw [← asking.count, ← came]
    exact ⟨rfl, rfl, rfl, rfl, rfl⟩
  obtain ⟨passedUp, regs, next⟩ := x.movzwl.deliver_spec
  have before := asking.served.trans arrived
  have whole : RmHelper.Served u x.movzwl.deliver.addTotal _ _ :=
    before.trans (passedUp.movl (by decide))
  have fits : bytes.length < 2 ^ 32 := by omega
  rw [edi, eax, arrived.mem, before.io, before.dosPtr, asking.served.mem, asking.served.dosPtr,
    toNat_ofNat fits] at whole
  refine ⟨_, pass, whole, ⟨?_, ?_, ?_, ?_⟩, ?_⟩
  · rw [RmHelper.addTotal, RmHelper.reg_movl, if_pos rfl, regs, regs, edi, eax, BitVec.ofNat_add]
  · rw [RmHelper.addTotal, RmHelper.reg_movl, if_neg (by decide), regs, ← asking.esi, ← came]
    rfl
  · rw [RmHelper.addTotal, RmHelper.reg_movl, if_neg (by decide), regs, ← asking.ecx, ← came]
    rfl
  · rw [RmHelper.addTotal, RmHelper.reg_movl, if_neg (by decide), regs, eax]
  · change x.movzwl.deliver.served = k + 1
    rw [next, ← asking.next, ← came]
    rfl

end Pass

/-! ## The transfer so far -/

structure Transferred (s u : RmHelper) (total : Nat) : Prop where
  consecutive : Consecutive 0 (calls 0 u.log)
  sum : amount (calls 0 u.log) = total
  inside : ∀ c ∈ calls 0 u.log, c.1 + c.2 ≤ s.io.size
  length : (moved u.log).length = total
  stored : s.Apart → ∀ i < (s.reg .ecx).toNat, u.mem (s.io.ptr + BitVec.ofNat 32 i) =
    (moved u.log).getD i (s.mem (s.io.ptr + BitVec.ofNat 32 i))
  atMost : total ≤ (s.reg .ecx).toNat

structure ReadProgress (s u : RmHelper) (total : Nat) : Prop extends Transferred s u total where
  io : u.io = s.io
  ptr : u.dosPtr = s.dosPtr
  quiet : errorCodes u.log = []

section Progress

variable {s u v : RmHelper} {total : Nat}

theorem ReadProgress.movl {r : Gpr} {d : Dword} (progress : ReadProgress s u total)
    (other : r ≠ .edx) : ReadProgress s (u.movl r d) total := by
  refine ⟨⟨progress.consecutive, progress.sum, progress.inside, progress.length, progress.stored,
    progress.atMost⟩, progress.io, ?_, progress.quiet⟩
  rw [← progress.ptr, RmHelper.dosPtr, RmHelper.dosPtr, RmHelper.lword_eq, RmHelper.lword_eq,
    RmHelper.reg_movl, if_neg (Ne.symm other)]
  rfl

theorem Transferred.idle {events : List IoEvent} (done : Transferred s u total)
    (log : v.log = u.log ++ events) (mem : v.mem = u.mem) (noCall : calls 0 events = [])
    (noData : moved events = []) : Transferred s v total := by
  have same : calls 0 v.log = calls 0 u.log := by rw [log, calls_append, noCall, List.append_nil]
  have bytes : moved v.log = moved u.log := by rw [log, moved_append, noData, List.append_nil]
  constructor
  · rw [same]
    exact done.consecutive
  · rw [same]
    exact done.sum
  · rw [same]
    exact done.inside
  · rw [bytes]
    exact done.length
  · rw [bytes, mem]
    exact done.stored
  · exact done.atMost

theorem ReadProgress.failed {c code : Word} (progress : ReadProgress s u total)
    (served : RmHelper.Served u v [.dos c (.error code)] u.mem) : ReadProgress s v total where
  toTransferred := progress.idle served.log served.mem rfl rfl
  io := served.io.trans progress.io
  ptr := served.dosPtr.trans progress.ptr
  quiet := by
    rw [served.log, errorCodes_append, progress.quiet]
    rfl

theorem delivered_at {data : List Byte} {i : Nat} (apart : s.Apart) (io : u.io = s.io)
    (ptr : u.dosPtr = s.dosPtr) (buffer : s.io.size = s.reg .ecx) (small : data.length < 65536)
    (fits : total + data.length ≤ (s.reg .ecx).toNat) (inside : i < (s.reg .ecx).toNat) :
    delivered u total data (s.io.ptr + BitVec.ofNat 32 i) =
      if total ≤ i then data.getD (i - total) (u.mem (s.io.ptr + BitVec.ofNat 32 i))
      else u.mem (s.io.ptr + BitVec.ofNat 32 i) := by
  have bound := (s.reg .ecx).isLt
  have goes : BitVec.ofNat 32 total + BitVec.ofNat 32 data.length ≤ u.io.size := by
    rw [← BitVec.ofNat_add, io, buffer, BitVec.le_def, toNat_ofNat (by omega)]
    exact fits
  have clear : ∀ j < (s.reg .ecx).toNat, store u.mem s.dosPtr data (s.io.ptr + BitVec.ofNat 32 j) =
      u.mem (s.io.ptr + BitVec.ofNat 32 j) := by
    intro j below
    apply store_outside
    intro k short
    exact apart k (by omega) j below
  rw [delivered, if_pos goes, io, ptr]
  by_cases covered : total ≤ i ∧ i < total + data.length
  · obtain ⟨start, stop⟩ := covered
    have place : s.io.ptr + BitVec.ofNat 32 i =
        s.io.ptr + BitVec.ofNat 32 total + BitVec.ofNat 32 (i - total) := by
      rw [BitVec.add_assoc, ← BitVec.ofNat_add, Nat.add_sub_cancel' start]
    have short : i - total < data.length := by omega
    rw [place, copy_inside _ _ _ (by omega) short, store_inside _ _ _ (by omega), if_pos start,
      List.getD_eq_getElem _ _ short, List.getD_eq_getElem _ _ short]
  · rw [copy_outside, clear i inside]
    · split
      next above =>
        rw [List.getD_eq_default _ _ (by omega)]
      next => rfl
    · intro j short same
      rw [BitVec.add_assoc, ← BitVec.ofNat_add] at same
      have values := congrArg (offset s.io.ptr) same
      rw [offset_add _ (by omega), offset_add _ (by omega)] at values
      omega

theorem ReadProgress.chunk {c : Word} {data : List Byte} (progress : ReadProgress s u total)
    (buffer : s.io.size = s.reg .ecx) (small : data.length < 65536)
    (fits : total + data.length ≤ (s.reg .ecx).toNat)
    (served : RmHelper.Served u v [.dos c (.ok data),
      .callback 0 (BitVec.ofNat 32 total) (BitVec.ofNat 32 data.length)] (delivered u total data)) :
    ReadProgress s v (total + data.length) := by
  have bound := (s.reg .ecx).isLt
  have piece : calls 0 v.log =
      calls 0 u.log ++ [(BitVec.ofNat 32 total, BitVec.ofNat 32 data.length)] := by
    rw [served.log, calls_append]
    rfl
  have bytes : moved v.log = moved u.log ++ data := by
    rw [served.log, moved_append]
    simp [moved]
  have codes : errorCodes v.log = [] := by
    rw [served.log, errorCodes_append, progress.quiet]
    rfl
  refine ⟨⟨?_, ?_, ?_, ?_, ?_, fits⟩, served.io.trans progress.io,
    served.dosPtr.trans progress.ptr, codes⟩
  · rw [piece]
    apply consecutive_append progress.consecutive
    rw [progress.sum, toNat_ofNat (by omega), Nat.zero_add]
  · rw [piece, amount_append, progress.sum]
    simp only [amount, List.map_cons, List.map_nil, List.sum_singleton]
    rw [toNat_ofNat (by omega)]
  · intro c member
    rw [piece, List.mem_append, List.mem_singleton] at member
    rcases member with old | rfl
    · exact progress.inside c old
    · rw [← BitVec.ofNat_add, buffer, BitVec.le_def, toNat_ofNat (by omega)]
      exact fits
  · rw [bytes, List.length_append, progress.length]
  · intro apart i inside
    rw [served.mem, delivered_at apart progress.io progress.ptr buffer small fits inside,
      progress.stored apart i inside, bytes, ← progress.length]
    exact getD_append_eq _ _ _ _

end Progress

/-! ## The whole loop -/

section Loop

variable {dos : ReadOracle} {s : RmHelper}

theorem readReply_ok {k n c : Nat} (answer : readReply dos k n = .ok c) :
    ∃ data, dos k (BitVec.ofNat 16 n) = .ok data ∧ data.val.length = c := by
  rw [readReply] at answer
  cases came : dos k (BitVec.ofNat 16 n) with
  | error code =>
    rw [came] at answer
    cases answer
  | ok data =>
    rw [came] at answer
    exact ⟨data, rfl, Except.ok.inj answer⟩

theorem readReply_error {k n : Nat} {code : Word} (answer : readReply dos k n = .error code) :
    dos k (BitVec.ofNat 16 n) = .error code := by
  rw [readReply] at answer
  cases came : dos k (BitVec.ofNat 16 n) with
  | error e =>
    rw [came] at answer
    cases answer
    rfl
  | ok data =>
    rw [came] at answer
    cases answer

theorem readReply_bounded (dos : ReadOracle) : Bounded (readReply dos) := by
  intro k n c answer
  obtain ⟨data, _, rfl⟩ := readReply_ok answer
  exact Nat.le_trans data.property (Nat.mod_le _ _)

def ReadEnds (s u t : RmHelper) (total more : Nat) : Exit Word → Prop
  | .complete => ReadProgress s t (total + more) ∧ t.reg .eax = BitVec.ofNat 32 (total + more)
  | .short c => ReadProgress s t (total + more) ∧ t.reg .eax = BitVec.ofNat 32 c
  | .failed code =>
    if total + more = 0 then
      Transferred s t 0 ∧ errorCodes t.log = [code] ∧ calls 0 t.log = calls 0 u.log
    else ReadProgress s t (total + more) ∧ t.reg .eax = BitVec.ofNat 32 (total + more)

theorem ReadEnds.after_chunk {u v t : RmHelper} {total chunk more : Nat} {e : Exit Word}
    (ends : ReadEnds s v t (total + chunk) more e) (some : 0 < chunk) :
    ReadEnds s u t total (chunk + more) e := by
  cases e with
  | complete =>
    rw [ReadEnds, ← Nat.add_assoc]
    exact ends
  | short c =>
    rw [ReadEnds, ← Nat.add_assoc]
    exact ends
  | failed code =>
    rw [ReadEnds, if_neg (by omega)] at ends
    rw [ReadEnds, if_neg (by omega), ← Nat.add_assoc]
    exact ends

theorem readPass_failed {k n total : Nat} {code : Word} {u : RmHelper}
    (answer : readReply dos k (min n 65535) = .error code) (head : AtHead u k n total)
    (progress : ReadProgress s u total) :
    ∃ t, readPass dos u = .done t ∧ ReadEnds s u t total 0 (.failed code) := by
  obtain ⟨v, pass, served, edi, eax⟩ := readPass_error head (readReply_error answer)
  have kept := progress.failed served
  refine ⟨v.setCf, pass, ?_⟩
  by_cases first : total = 0
  · subst first
    obtain ⟨log, mem⟩ := v.setCf_first edi
    have done := kept.idle log mem rfl rfl
    refine ⟨done, ?_, ?_⟩
    · rw [log, errorCodes_append, kept.quiet, ← eax]
      rfl
    · rw [log, calls_append, served.log, calls_append, List.append_assoc]
      exact List.append_nil _
  · have bound := (s.reg .ecx).isLt
    have atMost := progress.atMost
    rw [v.setCf_later edi (by omega) (by omega)]
    rw [ReadEnds, Nat.add_zero, if_neg first]
    exact ⟨kept.movl (by decide), rfl⟩

theorem readPass_chunk {k n c total : Nat} {u : RmHelper} (buffer : s.io.size = s.reg .ecx)
    (answer : readReply dos k (min n 65535) = .ok c) (head : AtHead u k n total)
    (progress : ReadProgress s u total) (left : total + n = (s.reg .ecx).toNat) :
    ∃ v, readPass dos u = v.advance ∧ RmHelper.Counted v (total + c) n c ∧
      ReadProgress s v (total + c) ∧ v.served = k + 1 := by
  have most := readReply_bounded dos k _ c answer
  obtain ⟨data, came, rfl⟩ := readReply_ok answer
  obtain ⟨v, pass, served, counted, next⟩ := readPass_ok head came
  exact ⟨v, pass, counted, progress.chunk buffer (by omega) (by omega) served, next⟩

/-- A transfer from the head of the loop: the loop ends, and how decides over EAX. -/
theorem readLoop_transfer {k n : Nat} {cs : List Nat} {e : Exit Word}
    (transfer : Transfer (readReply dos) 65535 k n cs e) (buffer : s.io.size = s.reg .ecx)
    {u : RmHelper} {total : Nat} (head : AtHead u k n total) (progress : ReadProgress s u total)
    (left : total + n = (s.reg .ecx).toNat) :
    ∃ fuel t, runLoop (readPass dos) fuel u = some t ∧
      ReadEnds s u t total cs.sum e := by
  induction transfer generalizing u total with
  | @failed k n code answer =>
    obtain ⟨t, pass, ends⟩ := readPass_failed answer head progress
    refine ⟨1, t, ?_, ends⟩
    rw [runLoop, pass]
  | @short k n c answer less =>
    obtain ⟨v, pass, counted, after, _⟩ := readPass_chunk buffer answer head progress left
    refine ⟨1, v, ?_, ?_, ?_⟩
    · rw [runLoop, pass, RmHelper.advance_short counted less]
    · exact after
    · exact counted.eax
  | @complete k n answer last =>
    rw [← Nat.min_eq_left last] at answer
    obtain ⟨v, pass, counted, after, _⟩ := readPass_chunk buffer answer head progress left
    rw [Nat.min_eq_left last] at counted after
    refine ⟨1, (v.movl .ecx 0).movl .eax (BitVec.ofNat 32 (total + n)), ?_, ?_, rfl⟩
    · rw [runLoop, pass, RmHelper.advance_complete counted last]
    · exact (after.movl (by decide)).movl (by decide)
  | @more k n cs e answer more rest ih =>
    rw [← Nat.min_eq_right (Nat.le_of_lt more)] at answer
    obtain ⟨v, pass, counted, after, next⟩ := readPass_chunk buffer answer head progress left
    rw [Nat.min_eq_right (Nat.le_of_lt more)] at counted after
    have newHead : AtHead (v.movl .ecx (BitVec.ofNat 32 (n - 65535))) (k + 1) (n - 65535)
        (total + 65535) := by
      have fits := head.fits
      exact ⟨counted.edi, rfl, next, by omega⟩
    obtain ⟨fuel, t, loop, ends⟩ := ih newHead (after.movl (by decide)) (by omega)
    refine ⟨fuel + 1, t, ?_, ?_⟩
    · rw [runLoop, pass, RmHelper.advance_more counted head.fits more]
      exact loop
    · exact ends.after_chunk (by decide)

/-! ## The claim of the read -/

theorem enter_progress (fresh : s.log = []) : ReadProgress s s.enter 0 := by
  have empty : s.enter.log = [] := fresh
  refine ⟨⟨?_, ?_, ?_, ?_, ?_, Nat.zero_le _⟩, rfl, rfl, ?_⟩
  all_goals rw [empty]
  · trivial
  · rfl
  · exact fun c member => absurd member List.not_mem_nil
  · rfl
  · exact fun _ _ _ => rfl
  · rfl

theorem law_of_answer {t : RmHelper} {total : Nat} (done : Transferred s t total)
    (answer : match dos 0 (count (s.reg .ecx).toNat) with
      | .error code => errorCodes t.log = [code] ∧ calls 0 t.log = []
      | .ok _ => errorCodes t.log = [] ∧ t.reg .eax = BitVec.ofNat 32 (moved t.log).length) :
    LongReadLaw dos s t.leave where
  consecutive := done.consecutive
  atMost := by
    change amount (calls 0 t.log) ≤ _
    rw [done.sum]
    exact done.atMost
  inside := done.inside
  stored := done.stored
  answer := answer

theorem law_of_progress {t : RmHelper} {total : Nat} (progress : ReadProgress s t total)
    (data : ∃ data, dos 0 (count (s.reg .ecx).toNat) = .ok data) (eax : t.reg .eax = BitVec.ofNat 32 total) :
    LongReadLaw dos s t.leave := by
  obtain ⟨data, first⟩ := data
  apply law_of_answer progress.toTransferred
  rw [first, progress.length]
  exact ⟨progress.quiet, eax⟩

theorem first_ok {c : Nat} (answer : readReply dos 0 (min (s.reg .ecx).toNat 65535) = .ok c) :
    ∃ data, dos 0 (count (s.reg .ecx).toNat) = .ok data := by
  obtain ⟨data, came, _⟩ := readReply_ok answer
  exact ⟨data, came⟩

/-- A transfer that does not end short after a full chunk is answered rightly. -/
theorem law_of_ends {t : RmHelper} {cs : List Nat} {e : Exit Word}
    (transfer : Transfer (readReply dos) 65535 0 (s.reg .ecx).toNat cs e)
    (ends : ReadEnds s s.enter t 0 cs.sum e) (fresh : s.log = [])
    (fine : ¬((∃ c, e = .short c) ∧ 2 ≤ cs.length)) : LongReadLaw dos s t.leave := by
  rcases transfer.first with ⟨code, answer, rfl, rfl⟩ | ⟨c, rest, answer, rfl⟩
  · have ended : Transferred s t 0 ∧ errorCodes t.log = [code] ∧ calls 0 t.log = calls 0 s.enter.log :=
      ends
    obtain ⟨done, codes, calls_eq⟩ := ended
    apply law_of_answer done
    have came : dos 0 (count (s.reg .ecx).toNat) = .error code := readReply_error answer
    rw [came]
    refine ⟨codes, calls_eq.trans ?_⟩
    change calls 0 s.log = []
    rw [fresh]
    rfl
  · have data := first_ok answer
    cases e with
    | complete => exact law_of_progress ends.1 data ends.2
    | short d =>
      obtain ⟨nonempty, sum⟩ := transfer.short_sum
      have single : (c :: rest).length - 1 = 0 := by
        by_contra longer
        exact fine ⟨⟨d, rfl⟩, by omega⟩
      rw [single, Nat.mul_zero, Nat.zero_add] at sum
      rw [ReadEnds, sum, Nat.zero_add] at ends
      exact law_of_progress ends.1 data ends.2
    | failed code =>
      have some : 0 < (c :: rest).sum := (transfer.failed_sum (by decide)).resolve_left nofun
      rw [ReadEnds, if_neg (by omega)] at ends
      exact law_of_progress ends.1 data ends.2

theorem not_law_of_short {t : RmHelper} {cs : List Nat} {d : Nat}
    (transfer : Transfer (readReply dos) 65535 0 (s.reg .ecx).toNat cs (.short d))
    (ends : ReadEnds s s.enter t 0 cs.sum (.short d)) (later : 2 ≤ cs.length) :
    ¬LongReadLaw dos s t.leave := by
  intro law
  have limit := (s.reg .ecx).isLt
  obtain ⟨_, sum⟩ := transfer.short_sum
  have most := transfer.sum_le
  have atLeast : 65535 * 1 ≤ 65535 * (cs.length - 1) := Nat.mul_le_mul_left _ (by omega)
  rcases transfer.first with ⟨_, _, rfl, _⟩ | ⟨c, rest, answer, _⟩
  · simp at later
  · obtain ⟨data, first⟩ := first_ok answer
    have total := law.answer
    rw [first] at total
    have length : (moved t.leave.log).length = 0 + cs.sum := ends.1.length
    have eax := ends.2.symm.trans total.2
    rw [length, Nat.zero_add] at eax
    have values := congrArg BitVec.toNat eax
    rw [toNat_ofNat (by omega), toNat_ofNat (by omega)] at values
    omega

theorem lrStart_returns (dos : ReadOracle) {s : RmHelper} (fresh : s.served = 0 ∧ s.log = [])
    (buffer : s.io.size = s.reg .ecx) :
    ∃ cs e fuel t, Transfer (readReply dos) 65535 0 (s.reg .ecx).toNat cs e ∧
      lrStart dos fuel s = some t.leave ∧ ReadEnds s s.enter t 0 cs.sum e := by
  obtain ⟨cs, e, transfer⟩ := Transfer.exists (readReply_bounded dos) (by decide : 0 < 65535) 0
    (s.reg .ecx).toNat
  obtain ⟨fuel, t, loop, ends⟩ := readLoop_transfer transfer buffer (enter_atHead fresh.1)
    (enter_progress fresh.2) (Nat.zero_add _)
  refine ⟨cs, e, fuel, t, transfer, ?_, ends⟩
  rw [lrStart, loop, Option.map_some]

theorem lrStart_unique {fuel other : Nat} {t u : RmHelper} (first : lrStart dos fuel s = some t)
    (second : lrStart dos other s = some u) : t = u := by
  obtain ⟨v, looped, rfl⟩ := Option.map_eq_some_iff.mp first
  obtain ⟨w, again, rfl⟩ := Option.map_eq_some_iff.mp second
  rw [runLoop_unique looped again]

theorem not_meets_of_shortLater (fresh : s.served = 0 ∧ s.log = [])
    (buffer : s.io.size = s.reg .ecx)
    (short : ShortLater (readReply dos) (s.reg .ecx).toNat) : ¬LongReadMeets dos s := by
  obtain ⟨cs, e, fuel, t, transfer, returns, ends⟩ := lrStart_returns dos fresh buffer
  obtain ⟨⟨d, rfl⟩, later⟩ := (shortLater_iff transfer).mp short
  rintro ⟨other, u, returned, law⟩
  rw [← lrStart_unique returns returned] at law
  exact not_law_of_short transfer ends later law

/-- The read does what it should just if no chunk after the first comes short. -/
theorem long_read_meets_iff (dos : ReadOracle) (s : RmHelper) (fresh : s.served = 0 ∧ s.log = [])
    (buffer : s.io.size = s.reg .ecx) :
    LongReadMeets dos s ↔ ¬ShortLater (readReply dos) (s.reg .ecx).toNat := by
  constructor
  · intro meets short
    exact not_meets_of_shortLater fresh buffer short meets
  · intro fine
    obtain ⟨cs, e, fuel, t, transfer, returns, ends⟩ := lrStart_returns dos fresh buffer
    rw [shortLater_iff transfer] at fine
    exact ⟨fuel, t.leave, returns, law_of_ends transfer ends fresh.2 fine⟩

end Loop

def endlessFile : ReadOracle := fun _ count =>
  .ok ⟨List.replicate count.toNat 0, Nat.le_of_eq List.length_replicate⟩

theorem full_endlessFile : Full (readReply endlessFile) 65535 := by
  intro k n most
  have length : (List.replicate (BitVec.ofNat 16 n).toNat (0 : Byte)).length = n := by
    rw [List.length_replicate, BitVec.toNat_ofNat, Nat.mod_eq_of_lt (by omega)]
  exact congrArg Except.ok length

/-- Two full chunks, and a last one of 2 bytes. -/
theorem long_read_meets_chunks : LongReadMeets endlessFile (ioClient 0x20000) := by
  apply (long_read_meets_iff endlessFile (ioClient 0x20000) ⟨rfl, rfl⟩ rfl).mpr
  exact not_shortLater_of_full full_endlessFile _

def fileOf65535 : ReadOracle := fun k count =>
  if k = 0 then .ok ⟨List.replicate count.toNat 0, Nat.le_of_eq List.length_replicate⟩
  else .ok ⟨[], Nat.zero_le _⟩

/-- With 128 KiB asked for, the second request meets the end of the file, and EAX is 0. -/
theorem long_read_misses_second_chunk : ¬LongReadMeets fileOf65535 (ioClient 0x20000) := by
  apply not_meets_of_shortLater ⟨rfl, rfl⟩ rfl
  refine ⟨1, by decide, .inr (by decide), ?_, 0, by decide, ?_⟩
  · intro i first
    have zero : 0 + i = 0 := by omega
    rw [zero]
    exact congrArg Except.ok List.length_replicate
  · rfl

end Pmdapi
