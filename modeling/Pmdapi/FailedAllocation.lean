import Pmdapi.AllocatorSteps
import Pmdapi.SegregLaw
import Pmdapi.SelectorMap

/-! A host that has no descriptor left. It answers -1, 16 bits of that are FFFFh, and every caller takes
them for a selector. -/

namespace Pmdapi
open Bytes Effect Slots

def Event.allocated : Event → Option Dword
  | .dpmi (.allocateLdtDescriptors _) reply => some reply
  | .dpmi (.segmentToDescriptor _) reply => some reply
  | .dpmi (.createAliasDescriptor _) reply => some reply
  | _ => none

abbrev Event.AllocationFailed (e : Event) : Prop := e.allocated = some (-1)

/-- The descriptor whose base, limit or rights an event sets, or which it frees. -/
def Event.descriptor : Event → Option Word
  | .dpmi (.setSegmentBaseAddress sel _) _ => some sel
  | .dpmi (.setSegmentLimit sel _) _ => some sel
  | .dpmi (.setDescriptorAccessRights sel _) _ => some sel
  | .dpmi (.freeLdtDescriptor sel) _ => some sel
  | _ => none

variable {σ : Type} (h : DpmiHost σ)

def AllocationFails {α : Type} (m : M σ α) (s : State σ) : Prop :=
  ∃ e ∈ eventsOf m s, e.AllocationFailed

/-- After an allocation failed, a descriptor function is called with what was left of the answer. -/
def FailedValueUsed {α : Type} (m : M σ α) (s : State σ) : Prop :=
  ∃ before after, eventsOf m s = before ++ after ∧ (∃ e ∈ before, e.AllocationFailed) ∧
    ∃ e ∈ after, e.descriptor = some 0xffff

theorem not_refused {e : Event} (other : e.allocated = none) : ¬e.AllocationFailed := by
  intro failed
  exact Option.some_ne_none _ (failed.symm.trans other)

theorem loWord_failed {reply : Dword} (failed : reply = -1) : loWord reply = 0xffff := by
  rw [failed]
  decide

section Events

variable {h} {α : Type} {m : M σ α} {s : State σ} {events : List Event}

theorem eventsOf_eq (trace : (final m s).trace = s.trace ++ events) : eventsOf m s = events := by
  rw [eventsOf, trace, List.drop_left]

/-- If only one event is an allocation, then it is the one that failed. -/
theorem reply_refused (before : List Event) {rest : List Event} {first e : Event} {reply : Dword}
    (answer : first.allocated = some reply) (quiet : ∀ e ∈ before ++ rest, e.allocated = none)
    (made : e ∈ before ++ first :: rest) (failed : e.AllocationFailed) : reply = -1 := by
  rcases List.mem_append.mp made with earlier | made
  · exact absurd failed (not_refused (quiet e (List.mem_append_left _ earlier)))
  · rcases List.mem_cons.mp made with rfl | later
    · exact Option.some.inj (answer.symm.trans failed)
    · exact absurd failed (not_refused (quiet e (List.mem_append_right _ later)))

theorem refused_used (before : List Event) {after : List Event} {first next : Event} {reply : Dword}
    (events : eventsOf m s = before ++ first :: next :: after) (answer : first.allocated = some reply)
    (refused : reply = -1) (used : next.descriptor = some (loWord reply)) : FailedValueUsed m s := by
  have failed : first.AllocationFailed := answer.trans (congrArg some refused)
  have sel : next.descriptor = some 0xffff := used.trans (congrArg some (loWord_failed refused))
  refine ⟨before ++ [first], next :: after, ?_, ⟨first, ?_, failed⟩, next, List.mem_cons_self, sel⟩
  · rw [events, List.append_assoc]
    rfl
  · exact List.mem_append_right _ List.mem_cons_self

theorem trace_eventsOf (appends : Moves Appends m) (s : State σ) :
    (final m s).trace = s.trace ++ eventsOf m s := by
  obtain ⟨added, whole⟩ := appends s
  rw [eventsOf, ← whole, List.drop_left]

theorem FailedValueUsed.later {β : Type} {n : M σ β} {t : State σ} {later : List Event}
    (used : FailedValueUsed m s) (events : eventsOf n t = eventsOf m s ++ later) : FailedValueUsed n t := by
  obtain ⟨before, after, split, failed, e, member, descriptor⟩ := used
  refine ⟨before, after ++ later, ?_, failed, e, List.mem_append_left _ member, descriptor⟩
  rw [events, split, List.append_assoc]

end Events

/-! ## Segments -/

section Convert

variable {h} {segment : Word} {limit : Dword} {s : State σ}

theorem convertLim_fails (fails : AllocationFails (convertSegmentToDescriptorLim h segment limit) s) :
    ∃ i, segSelSlot s.client.segSelMap segment limit = some i ∧ (s.client.segSelMap i).sel = 0 ∧
      (newDescriptor h s.host).1 = -1 := by
  obtain ⟨e, made, failed⟩ := fails
  have quiet (same : final (convertSegmentToDescriptorLim h segment limit) s = s) : False := by
    rw [events_quiet same] at made
    exact List.not_mem_nil made
  cases slot : segSelSlot s.client.segSelMap segment limit with
  | none => exact (quiet (congrArg Prod.snd (convertLim_full slot))).elim
  | some i =>
    by_cases free : (s.client.segSelMap i).sel = 0
    · refine ⟨i, rfl, free, ?_⟩
      by_cases zero : loWord (newDescriptor h s.host).1 = 0
      · rw [events_zero slot free zero, List.mem_singleton] at made
        rw [made] at failed
        exact Option.some.inj failed
      · rw [events_new slot free zero, conversionEvents] at made
        exact reply_refused [] rfl (by simp [Event.allocated]) made failed
    · exact (quiet (congrArg Prod.snd (convertLim_known slot free))).elim

/-- FFFFh is entered into the map and returned. -/
theorem convertLim_unnoticed (fails : AllocationFails (convertSegmentToDescriptorLim h segment limit) s) :
    result (convertSegmentToDescriptorLim h segment limit) s = 0xffff ∧
      (final (convertSegmentToDescriptorLim h segment limit) s).client.segSelMap ≠ s.client.segSelMap ∧
      FailedValueUsed (convertSegmentToDescriptorLim h segment limit) s := by
  obtain ⟨i, slot, free, failed⟩ := convertLim_fails fails
  have stored := loWord_failed failed
  have given : loWord (newDescriptor h s.host).1 ≠ 0 := by rw [stored]; decide
  obtain ⟨answer, entered⟩ := convertLim_new slot free given
  refine ⟨answer.trans stored, ?_, ?_⟩
  · intro same
    have here := congrArg (fun map => (map i).sel) same
    rw [entered.client] at here
    simp only [Function.update_self, free, stored] at here
    exact absurd here (by decide)
  · have events := events_new slot free given
    exact refused_used [] events rfl failed rfl

end Convert

/-! ## int 21h/48h -/

section Allocate

variable {h} {s : State σ}

theorem preExtender_allocate (ah : hiByte (s.scp.lword .eax) = 0x48) :
    final (msdosPreExtender h 0x21) s = final (dosAllocate h) s.entered :=
  preExtender_dos h (by simp [needXbuf, needCopyDseg, needCopyEseg, needXbufDos, ah])
    (by simp [usesDta, ah]) (by simp [dosFn, preDos, ah])

theorem msdosMalloc_calls (size : Dword) (s : State σ) :
    (final (msdosMalloc h size) s).trace =
        s.trace ++ [.dpmi (.allocateMemory size) (h.perform (.allocateMemory size) s.host).1] ∧
      (final (msdosMalloc h size) s).scp = s.scp := by
  let asked := final (hostCall h (.allocateMemory size)) s
  have whole : final (msdosMalloc h size) s = final (if (grant h size s).size = 0 then pure 0 else do
      setMemMap fun map => recordBlock map (grant h size s)
      pure (grant h size s).base) asked := rfl
  rw [whole, final_ite]
  split <;> exact ⟨rfl, rfl⟩

inductive AllocateCalls (s t : State σ) (events : List Event) : Prop where
  | refused (zero : result (msdosMalloc h s.askedSize) s = 0)
      (calls : events =
        [.dpmi (.allocateMemory s.askedSize) (h.perform (.allocateMemory s.askedSize) s.host).1])
  | granted (reply : Dword) (given : result (msdosMalloc h s.askedSize) s ≠ 0)
      (calls : events =
        [.dpmi (.allocateMemory s.askedSize) (h.perform (.allocateMemory s.askedSize) s.host).1,
          .dpmi (.allocateLdtDescriptors 1) reply,
          .dpmi (.setSegmentBaseAddress (loWord reply) (result (msdosMalloc h s.askedSize) s)) (),
          .dpmi (.setSegmentLimit (loWord reply) (s.askedSize - 1)) ()])
      (eflags : t.scp.eflags = s.scp.eflags &&& ~~~CF)

theorem dosAllocate_calls (s : State σ) :
    AllocateCalls (h := h) s (final (dosAllocate h) s) (eventsOf (dosAllocate h) s) := by
  obtain ⟨trace, scp⟩ := msdosMalloc_calls (h := h) s.askedSize s
  generalize called : final (msdosMalloc h s.askedSize) s = u at trace scp
  have whole : final (dosAllocate h) s =
      final (if result (msdosMalloc h s.askedSize) s = 0 then outOfMemory h else do
        let sel ← allocateDescriptors h 1
        setSegmentBaseAddress h sel (result (msdosMalloc h s.askedSize) s)
        setSegmentLimit h sel (s.askedSize - 1)
        setLword .eax sel
        clearCF) u := by
    rw [← called]
    rfl
  by_cases none : result (msdosMalloc h s.askedSize) s = 0
  · rw [if_pos none] at whole
    refine .refused none (eventsOf_eq ?_)
    rw [whole]
    exact trace
  · rw [if_neg none] at whole
    refine .granted (newDescriptor h u.host).1 none (eventsOf_eq ?_) ?_
    · rw [whole]
      show u.trace ++ [_] ++ [_] ++ [_] = _
      rw [trace, List.append_assoc, List.append_assoc, List.append_assoc]
      rfl
    · rw [whole, ← scp]
      rfl

/-- A failed descriptor: the client is told that it has its memory, and the block stays allocated. -/
theorem allocate_unnoticed (ah : hiByte (s.scp.lword .eax) = 0x48)
    (fails : AllocationFails (msdosPreExtender h 0x21) s) :
    (final (msdosPreExtender h 0x21) s).scp.eflags &&& CF = 0 ∧
      (∃ block, block.size ≠ 0 ∧
        memoryLog (final (msdosPreExtender h 0x21) s).trace = memoryLog s.trace ++ [.malloc block]) ∧
      FailedValueUsed (msdosPreExtender h 0x21) s := by
  have after := preExtender_allocate (h := h) ah
  have same : eventsOf (msdosPreExtender h 0x21) s = eventsOf (dosAllocate h) s.entered := by
    rw [eventsOf, after]
    rfl
  obtain ⟨e, made, failed⟩ := fails
  rw [same] at made
  cases dosAllocate_calls (h := h) s.entered with
  | refused zero calls =>
    rw [calls, List.mem_singleton] at made
    rw [made] at failed
    exact absurd failed (not_refused rfl)
  | granted reply given calls eflags =>
    rw [calls] at made
    have refused : reply = -1 := reply_refused [_] rfl (by simp [Event.allocated]) made failed
    refine ⟨?_, ⟨grant h s.askedSize s, ?_, ?_⟩, ?_⟩
    · rw [after, eflags, BitVec.and_assoc]
      exact BitVec.and_zero
    · intro size
      have zero : result (msdosMalloc h s.askedSize) s.entered = 0 := by
        rw [msdosMalloc, result_bind]
        show result (if (grant h s.askedSize s).size = 0 then _ else _) _ = 0
        rw [if_pos size]
        rfl
      exact given zero
    · cases allocator_step h (s := s) (.inl ah) with
      | allocated _ map log => exact log
      | freed other => exact absurd (other.symm.trans ah) (by decide)
      | resized other => exact absurd (other.symm.trans ah) (by decide)
      | notFreed other => exact absurd (other.symm.trans ah) (by decide)
      | notResized other => exact absurd (other.symm.trans ah) (by decide)
    · exact refused_used [_] (same.trans calls) rfl refused rfl

end Allocate

/-! ## The LDT aliases and the callbacks -/

section Init

variable {h} {s : State σ}

inductive LdtInitCalls (sel : Word) (events : List Event) : Prop where
  | shared (calls : events = [])
  | refused (reply : Dword) (zero : loWord reply = 0)
      (calls : events = [.dpmi (.allocateLdtDescriptors 1) reply])
  | granted (reply limit base : Dword) (own : sel = loWord reply)
      (calls : events =
        [.dpmi (.allocateLdtDescriptors 1) reply, .dpmi (.setSegmentLimit (loWord reply) limit) (),
          .dpmi (.setSegmentBaseAddress (loWord reply) base) ()])

theorem msdosLdtInit_calls (num : Nat) (s : State σ) :
    LdtInitCalls (result (msdosLdtInit h num) s) (eventsOf (msdosLdtInit h num) s) := by
  by_cases later : num > 1
  · have quiet : final (msdosLdtInit h num) s = s := by
      rw [msdosLdtInit, if_pos later]
      rfl
    refine .shared (eventsOf_eq ?_)
    rw [quiet, List.append_nil]
  · by_cases zero : result (allocateDescriptors h 1) s = 0
    · refine .refused (newDescriptor h s.host).1 zero (eventsOf_eq ?_)
      rw [msdosLdtInit, if_neg later, final_bind, final_bind, if_pos zero]
      rfl
    · let sel := loWord (newDescriptor h s.host).1
      refine .granted (newDescriptor h s.host).1 (pageAlign (((zext sel >>> 3) + 1) * 8) + 4096 * 4 - 1)
        s.ldtAliasPtr ?_ (eventsOf_eq ?_)
      · rw [msdosLdtInit, if_neg later, result_bind, result_bind, if_neg zero]
        rfl
      · rw [msdosLdtInit, if_neg later, final_bind, final_bind, if_neg zero]
        show s.trace ++ [_] ++ [_] ++ [_] = _
        rw [List.append_assoc, List.append_assoc]
        rfl

/-- The alias of the LDT: FFFFh, with a limit set for it. -/
theorem ldtInit_unnoticed {num : Nat} (fails : AllocationFails (msdosLdtInit h num) s) :
    result (msdosLdtInit h num) s = 0xffff ∧ FailedValueUsed (msdosLdtInit h num) s := by
  obtain ⟨e, made, failed⟩ := fails
  cases msdosLdtInit_calls (h := h) num s with
  | shared calls =>
    rw [calls] at made
    exact absurd made List.not_mem_nil
  | refused reply zero calls =>
    rw [calls, List.mem_singleton] at made
    rw [made] at failed
    exact absurd (zero.symm.trans (loWord_failed (Option.some.inj failed))) (by decide)
  | granted reply limit base own calls =>
    rw [calls] at made
    have refused : reply = -1 := reply_refused [] rfl (by simp [Event.allocated]) made failed
    exact ⟨own.trans (loWord_failed refused), refused_used [] calls rfl refused rfl⟩

theorem initAliases_calls (s : State σ) :
    ∃ reply, eventsOf (initAliases h) s = eventsOf (msdosLdtInit h s.clientNum) s ++
      [.dpmi (.createAliasDescriptor (result (msdosLdtInit h s.clientNum) s)) reply,
        .dpmi (.setDescriptorAccessRights (loWord reply) 0xf0) (),
        .dpmi (.setSegmentLimit (loWord reply) (8192 * 8 - 1)) ()] := by
  have first := trace_eventsOf ((bookkeeping_appends h).msdosLdtInit s.clientNum) s
  generalize eventsOf (msdosLdtInit h s.clientNum) s = earlier at first
  generalize owned : result (msdosLdtInit h s.clientNum) s = sel
  generalize begun : final (msdosLdtInit h s.clientNum) s = u at first
  refine ⟨(h.perform (.createAliasDescriptor sel) u.host).1, eventsOf_eq ?_⟩
  rw [initAliases, final_reads_bind, final_bind, owned, begun]
  show u.trace ++ [_] ++ [_] ++ [_] = _
  rw [first, List.append_assoc, List.append_assoc, List.append_assoc]
  rfl

theorem initAliases_unnoticed (fails : AllocationFails (initAliases h) s) :
    FailedValueUsed (initAliases h) s := by
  obtain ⟨reply, calls⟩ := initAliases_calls (h := h) s
  obtain ⟨e, made, failed⟩ := fails
  rw [calls] at made
  rcases List.mem_append.mp made with first | last
  · exact (ldtInit_unnoticed ⟨e, first, failed⟩).2.later calls
  · have refused : reply = -1 := reply_refused [] rfl (by simp [Event.allocated]) last failed
    exact refused_used _ calls rfl refused rfl

def NoAllocation (s t : State σ) : Prop :=
  ∃ added, t.trace = s.trace ++ added ∧ ∀ e ∈ added, e.allocated = none

instance : IsPreorder (State σ) NoAllocation where
  refl s := ⟨[], (List.append_nil _).symm, fun _ inside => absurd inside List.not_mem_nil⟩
  trans s t u := by
    rintro ⟨first, earlier, good⟩ ⟨second, later, better⟩
    refine ⟨first ++ second, ?_, ?_⟩
    · rw [later, earlier, List.append_assoc]
    · intro e inside
      exact (List.mem_append.mp inside).elim (good e) (better e)

theorem setupRmcbs_rest (sel : Word) : Moves NoAllocation (do
    setSegmentLimit h sel (rmcsSize - 1)
    callbacksInit h sel
    setClient fun c => { c with rmcbAlloced := true } : M σ Unit) := by
  have quiet {s t : State σ} (same : t.trace = s.trace) : NoAllocation s t :=
    ⟨[], same.trans (List.append_nil _).symm, fun _ inside => absurd inside List.not_mem_nil⟩
  have one {s t : State σ} {e : Event} (added : t.trace = s.trace ++ [e])
      (good : e.allocated = none) : NoAllocation s t :=
    ⟨[e], added, fun e' inside => List.mem_singleton.mp inside ▸ good⟩
  refine Moves.bind (fun s => one rfl rfl) fun _ => ?_
  refine Moves.bind (Moves.forM fun i _ => ?_) fun _ => fun s => quiet rfl
  refine Moves.bind (moves_reads _) fun arg => Moves.bind (fun s => quiet rfl) fun entry => ?_
  refine Moves.bind (moves_reads _) fun regs => Moves.bind (fun s => one rfl rfl) fun cbk => ?_
  exact fun s => quiet rfl

theorem setupRmcbs_calls (rmcbMem : Dword) (s : State σ) :
    ∃ reply rest, eventsOf (setupRmcbs h rmcbMem) s =
        .dpmi (.allocateLdtDescriptors 1) reply ::
          .dpmi (.setSegmentBaseAddress (loWord reply) rmcbMem) () :: rest ∧
      ∀ e ∈ rest, e.allocated = none := by
  let reply := (newDescriptor h s.host).1
  let sel := loWord reply
  have begun : (final (setSegmentBaseAddress h sel rmcbMem)
      (final (setClient fun c => { c with rmcbSel := sel }) (final (allocateDescriptors h 1) s))).trace =
        s.trace ++ [.dpmi (.allocateLdtDescriptors 1) reply] ++
          [.dpmi (.setSegmentBaseAddress sel rmcbMem) ()] := rfl
  have whole : final (setupRmcbs h rmcbMem) s = final (do
      setSegmentLimit h sel (rmcsSize - 1)
      callbacksInit h sel
      setClient fun c => { c with rmcbAlloced := true })
        (final (setSegmentBaseAddress h sel rmcbMem)
          (final (setClient fun c => { c with rmcbSel := sel }) (final (allocateDescriptors h 1) s))) := by
    rw [setupRmcbs, final_bind, final_bind, final_bind]
    rfl
  obtain ⟨rest, added, good⟩ := setupRmcbs_rest (h := h) sel (final (setSegmentBaseAddress h sel rmcbMem)
    (final (setClient fun c => { c with rmcbSel := sel }) (final (allocateDescriptors h 1) s)))
  refine ⟨reply, rest, eventsOf_eq ?_, good⟩
  rw [whole, added, begun, List.append_assoc, List.append_assoc]
  rfl

theorem setupRmcbs_unnoticed {rmcbMem : Dword} (fails : AllocationFails (setupRmcbs h rmcbMem) s) :
    FailedValueUsed (setupRmcbs h rmcbMem) s := by
  obtain ⟨reply, rest, calls, good⟩ := setupRmcbs_calls (h := h) rmcbMem s
  obtain ⟨e, made, failed⟩ := fails
  rw [calls] at made
  have refused : reply = -1 :=
    reply_refused [] rfl (List.forall_mem_cons.mpr ⟨rfl, good⟩) made failed
  exact refused_used [] calls rfl refused rfl

end Init

/-! ## Faults -/

section Faults

variable {h} {s : State σ}

theorem replacement_fails {segment : Word} (fails : AllocationFails (replacement h segment) s) :
    result (replacement h segment) s = 0xffff := by
  unfold replacement at fails ⊢
  by_cases flat : segment = 0x38
  · rw [if_pos flat] at fails ⊢
    exact (convertLim_unnoticed fails).1
  · rw [if_neg flat] at fails ⊢
    obtain ⟨e, made, failed⟩ := fails
    have calls : eventsOf (loWord <$> convertSegmentToDescriptor h segment) s =
        [.dpmi (.segmentToDescriptor segment) (h.perform (.segmentToDescriptor segment) s.host).1] :=
      eventsOf_eq rfl
    rw [calls, List.mem_singleton] at made
    rw [made] at failed
    exact loWord_failed (Option.some.inj failed)

/-- The fault counts as handled, and FFFFh stands in the segment register. -/
theorem fault_unnoticed {err : Dword} (fails : AllocationFails (msdosFault h err) s) :
    result (msdosFault h err) s = true ∧
      ∃ reg newSct, decodeSegreg s.mem (getSegmentBase h s) (dpmiMhpGetSelectorSize h s) s.scp =
          (some reg, newSct) ∧
        (final (msdosFault h err) s).scp = newSct.setSeg reg 0xffff := by
  rcases msdosFault_replaces h err s with ⟨-, same⟩ | ⟨reg, newSct, decoded, answer, after⟩
  · obtain ⟨e, made, -⟩ := fails
    rw [eventsOf, same, List.drop_length] at made
    exact absurd made List.not_mem_nil
  · have asked : AllocationFails (replacement h (loWord err &&& 0xfff8)) s := by
      obtain ⟨e, made, failed⟩ := fails
      rw [eventsOf, after, apply_ite State.trace, ite_self] at made
      exact ⟨e, made, failed⟩
    have got := replacement_fails asked
    have given : result (replacement h (loWord err &&& 0xfff8)) s ≠ 0 := by rw [got]; decide
    rw [if_neg given, got] at after
    exact ⟨answer.trans (decide_eq_true given), reg, newSct, decoded, congrArg State.scp after⟩

end Faults

/-! ## All of them -/

/-- Whenever an allocation fails, nobody notices: FFFFh is entered, set up or handed out as a selector. -/
theorem failed_allocation_unnoticed (s : State σ) :
    (∀ segment limit, AllocationFails (convertSegmentToDescriptorLim h segment limit) s →
      result (convertSegmentToDescriptorLim h segment limit) s = 0xffff ∧
      (final (convertSegmentToDescriptorLim h segment limit) s).client.segSelMap ≠ s.client.segSelMap ∧
      FailedValueUsed (convertSegmentToDescriptorLim h segment limit) s) ∧
    (hiByte (s.scp.lword .eax) = 0x48 → AllocationFails (msdosPreExtender h 0x21) s →
      (final (msdosPreExtender h 0x21) s).scp.eflags &&& CF = 0 ∧
      (∃ block, block.size ≠ 0 ∧
        memoryLog (final (msdosPreExtender h 0x21) s).trace = memoryLog s.trace ++ [.malloc block]) ∧
      FailedValueUsed (msdosPreExtender h 0x21) s) ∧
    (∀ num, AllocationFails (msdosLdtInit h num) s →
      result (msdosLdtInit h num) s = 0xffff ∧ FailedValueUsed (msdosLdtInit h num) s) ∧
    (∀ err, AllocationFails (msdosFault h err) s →
      result (msdosFault h err) s = true ∧
      ∃ reg newSct, decodeSegreg s.mem (getSegmentBase h s) (dpmiMhpGetSelectorSize h s) s.scp =
          (some reg, newSct) ∧
        (final (msdosFault h err) s).scp = newSct.setSeg reg 0xffff) ∧
    (∀ rmcbMem, AllocationFails (setupRmcbs h rmcbMem) s → FailedValueUsed (setupRmcbs h rmcbMem) s) ∧
    (AllocationFails (initAliases h) s → FailedValueUsed (initAliases h) s) :=
  ⟨fun _ _ => convertLim_unnoticed, allocate_unnoticed, fun _ => ldtInit_unnoticed,
    fun _ => fault_unnoticed, fun _ => setupRmcbs_unnoticed, initAliases_unnoticed⟩

def exhaustedHost : DpmiHost Bump :=
  { bumpHost with
    perform := fun c b =>
      match c with
      | .allocateLdtDescriptors _ => (-1, b)
      | .segmentToDescriptor _ => (-1, b)
      | .createAliasDescriptor _ => (-1, b)
      | other => bumpHost.perform other b }

/-- The BIOS data area at an exhausted host. -/
theorem failed_allocation_misses_conversion :
    AllocationFails (convertSegmentToDescriptorLim exhaustedHost 0x40 0xffff) bumpStart ∧
    result (convertSegmentToDescriptorLim exhaustedHost 0x40 0xffff) bumpStart ≠ 0 ∧
    AllocationFails (msdosFault exhaustedHost 0x40) (faultingClient [0x8e, 0xd8] 0) ∧
    result (msdosFault exhaustedHost 0x40) (faultingClient [0x8e, 0xd8] 0) ≠ false := by
  refine ⟨?_, by decide +kernel, ?_, by decide +kernel⟩
  · unfold AllocationFails
    decide +kernel
  · unfold AllocationFails
    decide +kernel

end Pmdapi
