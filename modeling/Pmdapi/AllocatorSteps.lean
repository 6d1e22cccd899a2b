import Mathlib.Data.List.FinRange
import Pmdapi.Library.Ledger
import Pmdapi.BumpHost
import Pmdapi.ClientEffects
import Pmdapi.PreEffects

/-! What int 21h/48h, 49h and 4Ah, and the start and the end of a client, do to its map of memory
blocks and to the blocks of the host. -/

namespace Pmdapi
open Bytes Effect Slots Ledger

/-! ## The blocks of the host -/

/-- The calls of the host that have to do with memory blocks. Size 0 is a refusal. -/
inductive MemoryEvent where
  | malloc (block : DpmiPmBlock)
  | free (handle : Dword)
  | realloc (handle size : Dword) (block : DpmiPmBlock)
  deriving DecidableEq, Repr

def Event.memory : Event → Option MemoryEvent
  | .dpmi (.allocateMemory size) reply => some (.malloc (reply.block size))
  | .dpmi (.freeMemory handle) _ => some (.free handle)
  | .dpmi (.resizeMemory handle size) reply => some (.realloc handle size (reply.block size))
  | _ => none

def memoryLog (trace : List Event) : List MemoryEvent := trace.filterMap Event.memory

def MemoryEvent.entry : MemoryEvent → Option (Entry Dword DpmiPmBlock)
  | .malloc block => if block.size = 0 then none else some (.acquire block)
  | .free handle => some (.release handle)
  | .realloc handle _ block => if block.size = 0 then none else some (.exchange handle block)

def blockLedger (log : List MemoryEvent) : List (Entry Dword DpmiPmBlock) :=
  log.filterMap MemoryEvent.entry

def liveBlocks (log : List MemoryEvent) : List DpmiPmBlock :=
  held DpmiPmBlock.handle (blockLedger log)

theorem blockLedger_append (first second : List MemoryEvent) :
    blockLedger (first ++ second) = blockLedger first ++ blockLedger second := List.filterMap_append

theorem blockLedger_malloc (log : List MemoryEvent) {b : DpmiPmBlock} (granted : b.size ≠ 0) :
    blockLedger (log ++ [.malloc b]) = blockLedger log ++ [.acquire b] := by
  have entry : (MemoryEvent.malloc b).entry = some (.acquire b) := if_neg granted
  rw [blockLedger_append, blockLedger, blockLedger, List.filterMap_cons_some entry]
  rfl

theorem blockLedger_free (log : List MemoryEvent) (handle : Dword) :
    blockLedger (log ++ [.free handle]) = blockLedger log ++ [.release handle] := by
  rw [blockLedger_append]
  rfl

theorem blockLedger_realloc (log : List MemoryEvent) (handle size : Dword) {b : DpmiPmBlock}
    (granted : b.size ≠ 0) :
    blockLedger (log ++ [.realloc handle size b]) = blockLedger log ++ [.exchange handle b] := by
  have entry : (MemoryEvent.realloc handle size b).entry = some (.exchange handle b) := if_neg granted
  rw [blockLedger_append, blockLedger, blockLedger, List.filterMap_cons_some entry]
  rfl

theorem blockLedger_refused (log : List MemoryEvent) {e : MemoryEvent} (refused : e.entry = none) :
    blockLedger (log ++ [e]) = blockLedger log := by
  rw [blockLedger_append]
  simp [blockLedger, refused]

/-! ## The map -/

def mapBlocks (map : MemMap) : List DpmiPmBlock := used (·.size ≠ 0) map

theorem mem_mapBlocks {map : MemMap} {b : DpmiPmBlock} :
    b ∈ mapBlocks map ↔ (∃ i, map i = b) ∧ b.size ≠ 0 := by
  rw [mapBlocks, mem_used, decide_eq_true_eq]

def emptyMap : MemMap := fun _ => ⟨0, 0, 0⟩

theorem mapBlocks_emptyMap : mapBlocks emptyMap = [] := used_of_forall fun _ => rfl

theorem mapBlocks_recordBlock {map : MemMap} {b : DpmiPmBlock} (room : freeSlot map ≠ none)
    (granted : b.size ≠ 0) : (mapBlocks (recordBlock map b)).Perm (b :: mapBlocks map) := by
  cases found : freeSlot map with
  | none => exact absurd found room
  | some i =>
    have free : (map i).size = 0 := by simpa using firstWhere_holds found
    rw [recordBlock_some b found]
    exact used_fill (decide_eq_false (not_not.mpr free)) (decide_eq_true granted)

theorem freeSlot_of_length {map : MemMap} (few : (mapBlocks map).length < MSDOS_MAX_MEM_ALLOCS) :
    freeSlot map ≠ none := by
  intro full
  have taken := firstWhere_eq_none.mp full
  have length : (mapBlocks map).length = MSDOS_MAX_MEM_ALLOCS :=
    length_used fun i => by simpa using taken i
  omega

theorem mapBlocks_markFree {map : MemMap} {i : Fin MSDOS_MAX_MEM_ALLOCS} (live : (map i).size ≠ 0) :
    (mapBlocks map).Perm (map i :: mapBlocks (markFree map i)) :=
  used_clear (by simpa using live) rfl

theorem slotOf_base {map : MemMap} {addr : Dword} {i : Fin MSDOS_MAX_MEM_ALLOCS}
    (found : slotOf map addr = some i) : (map i).base = addr := by
  simpa using firstWhere_holds found

theorem slotOf_of_mem {map : MemMap} {b : DpmiPmBlock} (member : b ∈ mapBlocks map) :
    ∃ i, slotOf map b.base = some i := by
  obtain ⟨⟨j, rfl⟩, _⟩ := mem_mapBlocks.mp member
  exact firstWhere_isSome (decide_eq_true rfl : decide ((map j).base = (map j).base) = true)

/-! ## Code without memory blocks -/

variable {σ : Type} (h : DpmiHost σ)

def blocksOf (s : State σ) : MemMap × List MemoryEvent := (s.client.memMap, memoryLog s.trace)

theorem of_blocksOf {s : State σ} {map : MemMap} {log : List MemoryEvent}
    (blocks : blocksOf s = (map, log)) : s.client.memMap = map ∧ memoryLog s.trace = log :=
  Prod.ext_iff.mp blocks

theorem blocksOf_call (c : DpmiCall) (other : c.isMemory = false) :
    @Moves (State σ) (no_index c.Reply) (Keeps blocksOf) (hostCall h c) := by
  have silent : ∀ reply, (Event.dpmi c reply).memory = none := by
    intro reply
    cases c with
    | allocateMemory | freeMemory | resizeMemory => cases other
    | _ => rfl
  intro s
  simp [Keeps, blocksOf, hostCall, memoryLog, silent, State.client]

theorem aside : Bookkeeping h (Keeps blocksOf) where
  call := blocksOf_call h
  memory := fun _ _ => rfl
  client := by
    intro f own s
    have keeps : ∀ c, (f c).memMap = c.memMap := fun c => (congrArg MsdosStruct.memMap (own c)).trans rfl
    simp [Keeps, blocksOf, setClient, keeps, State.withClient, State.client]
  ldt := fun _ _ => rfl

theorem aside_setScp (f : Sigcontext → Sigcontext) :
    Moves (Keeps blocksOf) (setScp f : M σ Unit) := fun _ => rfl

theorem aside_outOfMemory : Moves (Keeps blocksOf) (outOfMemory h) := by
  refine Moves.bind (aside_setScp _) fun _ => Moves.bind (moves_reads _) fun _ => ?_
  exact Moves.bind (aside_setScp _) fun _ => aside_setScp _

theorem aside_getPmcbHandler (handler : OpsHandler) (arg : Option ClientRef) (ret : OpsHandler)
    (num : Rmcb) : Moves (Keeps blocksOf) (getPmcbHandler handler arg ret num : M σ Rmcb) :=
  fun _ => rfl

/-! ## The three functions -/

def grant (size : Dword) (s : State σ) : DpmiPmBlock :=
  (h.perform (.allocateMemory size) s.host).1.block size

def regrant (handle size : Dword) (s : State σ) : DpmiPmBlock :=
  (h.perform (.resizeMemory handle size) s.host).1.block size

def recordGrant (map : MemMap) (b : DpmiPmBlock) : MemMap :=
  if b.size = 0 then map else recordBlock map b

theorem blocksOf_hostCall {c : DpmiCall} {s : State σ} {e : MemoryEvent}
    (memory : (Event.dpmi c (h.perform c s.host).1).memory = some e) :
    blocksOf (final (hostCall h c) s) = (s.client.memMap, memoryLog s.trace ++ [e]) := by
  rw [blocksOf, memoryLog, hostCall, final_answers, List.filterMap_append,
    List.filterMap_cons_some memory]
  rfl

theorem blocksOf_setMemMap (f : MemMap → MemMap) (s : State σ) :
    blocksOf (final (setMemMap f) s) = (f s.client.memMap, memoryLog s.trace) := by
  simp [blocksOf, setMemMap, setClient, State.withClient, State.client]

theorem blocksOf_msdosMalloc (size : Dword) (s : State σ) :
    blocksOf (final (msdosMalloc h size) s) =
      (recordGrant s.client.memMap (grant h size s),
        memoryLog s.trace ++ [.malloc (grant h size s)]) := by
  have called : blocksOf (final (hostCall h (.allocateMemory size)) s) =
      (s.client.memMap, memoryLog s.trace ++ [.malloc (grant h size s)]) := blocksOf_hostCall h rfl
  generalize asked : final (hostCall h (.allocateMemory size)) s = u at called
  have whole : final (msdosMalloc h size) s = final (if (grant h size s).size = 0 then pure 0 else do
      setMemMap fun map => recordBlock map (grant h size s)
      pure (grant h size s).base) u := by
    rw [← asked]
    rfl
  obtain ⟨map, log⟩ := of_blocksOf called
  rw [whole, final_ite, recordGrant]
  split
  · exact called
  · rw [final_bind, final_pure, blocksOf_setMemMap, map, log]

/-- A block with this base is freed, in use or not. -/
theorem msdosFree_some {addr : Dword} {s : State σ} {i : Fin MSDOS_MAX_MEM_ALLOCS}
    (found : slotOf s.client.memMap addr = some i) :
    result (msdosFree h addr) s = 0 ∧ blocksOf (final (msdosFree h addr) s) =
      (markFree s.client.memMap i, memoryLog s.trace ++ [.free (s.client.memMap i).handle]) := by
  have called : blocksOf (final (hostCall h (.freeMemory (s.client.memMap i).handle)) s) =
      (s.client.memMap, memoryLog s.trace ++ [.free (s.client.memMap i).handle]) :=
    blocksOf_hostCall h rfl
  generalize asked : final (hostCall h (.freeMemory (s.client.memMap i).handle)) s = u at called
  obtain ⟨map, log⟩ := of_blocksOf called
  have whole : final (msdosFree h addr) s = final (setMemMap fun map => markFree map i) u := by
    rw [← asked, msdosFree, final_bind, result_reads, final_reads, found]
    rfl
  constructor
  · rw [msdosFree, result_bind, result_reads, final_reads, found]
    rfl
  · rw [whole, blocksOf_setMemMap, map, log]

theorem msdosFree_none {addr : Dword} {s : State σ} (absent : slotOf s.client.memMap addr = none) :
    result (msdosFree h addr) s = -1 ∧ final (msdosFree h addr) s = s := by
  rw [msdosFree, final_bind, result_bind, result_reads, final_reads, absent]
  exact ⟨rfl, rfl⟩

theorem msdosRealloc_some {addr : Dword} (size : Dword) {s : State σ} {i : Fin MSDOS_MAX_MEM_ALLOCS}
    {b : DpmiPmBlock} (found : slotOf s.client.memMap addr = some i)
    (live : (s.client.memMap i).size ≠ 0) (came : regrant h (s.client.memMap i).handle size s = b) :
    blocksOf (final (msdosRealloc h addr size) s) =
      (if b.size = 0 then s.client.memMap else Function.update s.client.memMap i b,
        memoryLog s.trace ++ [.realloc (s.client.memMap i).handle size b]) := by
  have called : blocksOf (final (hostCall h (.resizeMemory (s.client.memMap i).handle size)) s) =
      (s.client.memMap, memoryLog s.trace ++ [.realloc (s.client.memMap i).handle size b]) :=
    blocksOf_hostCall h (by rw [← came]; rfl)
  generalize asked : final (hostCall h (.resizeMemory (s.client.memMap i).handle size)) s = u at called
  obtain ⟨map, log⟩ := of_blocksOf called
  have whole : final (msdosRealloc h addr size) s = final (if b.size = 0 then pure 0 else do
      setMemMap fun map => Function.update map i b
      pure b.base) u := by
    rw [← asked, ← came, msdosRealloc, final_bind, result_reads, final_reads, found]
    simp only [if_neg live]
    rfl
  rw [whole, final_ite]
  split
  · rw [final_pure, blocksOf, map, log]
  · rw [final_bind, final_pure, blocksOf_setMemMap, map, log]

theorem msdosRealloc_none {addr size : Dword} {s : State σ}
    (absent : ∀ i, slotOf s.client.memMap addr = some i → (s.client.memMap i).size = 0) :
    result (msdosRealloc h addr size) s = 0 ∧ final (msdosRealloc h addr size) s = s := by
  rw [msdosRealloc, final_bind, result_bind, result_reads, final_reads]
  cases found : slotOf s.client.memMap addr with
  | none => exact ⟨rfl, rfl⟩
  | some i =>
    simp only [if_pos (absent i found)]
    exact ⟨rfl, rfl⟩

def State.allocating (s : State σ) : Prop :=
  hiByte (s.scp.lword .eax) = 0x48 ∨ hiByte (s.scp.lword .eax) = 0x49 ∨
    hiByte (s.scp.lword .eax) = 0x4a

def passedBase (s : State σ) : Dword := getSegmentBase h s s.scp.es

def State.askedSize (s : State σ) : Dword := zext (s.scp.lword .ebx) <<< 4

/-- A request turned down: CF, and neither the host nor the map has changed. -/
structure Rejected (s t : State σ) : Prop where
  carry : t.scp.eflags &&& CF ≠ 0
  trace : t.trace = s.trace
  host : t.host = s.host
  map : t.client.memMap = s.client.memMap

inductive AllocatorStep (s t : State σ) : Prop where
  | allocated (ah : hiByte (s.scp.lword .eax) = 0x48)
      (map : t.client.memMap = recordGrant s.client.memMap (grant h s.askedSize s))
      (log : memoryLog t.trace = memoryLog s.trace ++ [.malloc (grant h s.askedSize s)])
  | freed (ah : hiByte (s.scp.lword .eax) = 0x49) (i : Fin MSDOS_MAX_MEM_ALLOCS)
      (found : slotOf s.client.memMap (passedBase h s) = some i)
      (map : t.client.memMap = markFree s.client.memMap i)
      (log : memoryLog t.trace = memoryLog s.trace ++ [.free (s.client.memMap i).handle])
  | resized (ah : hiByte (s.scp.lword .eax) = 0x4a) (i : Fin MSDOS_MAX_MEM_ALLOCS) (b : DpmiPmBlock)
      (found : slotOf s.client.memMap (passedBase h s) = some i)
      (live : (s.client.memMap i).size ≠ 0)
      (map : t.client.memMap =
        if b.size = 0 then s.client.memMap else Function.update s.client.memMap i b)
      (log : memoryLog t.trace =
        memoryLog s.trace ++ [.realloc (s.client.memMap i).handle s.askedSize b])
  | notFreed (ah : hiByte (s.scp.lword .eax) = 0x49)
      (absent : slotOf s.client.memMap (passedBase h s) = none) (rejected : Rejected s t)
  | notResized (ah : hiByte (s.scp.lword .eax) = 0x4a)
      (absent : ∀ i, slotOf s.client.memMap (passedBase h s) = some i →
        (s.client.memMap i).size = 0) (rejected : Rejected s t)

theorem blocksOf_dosAllocate (s : State σ) :
    blocksOf (final (dosAllocate h) s) = blocksOf (final (msdosMalloc h s.askedSize) s) := by
  generalize called : final (msdosMalloc h s.askedSize) s = u
  generalize came : result (msdosMalloc h s.askedSize) s = addr
  have whole : final (dosAllocate h) s = final (if addr = 0 then outOfMemory h else do
      let sel ← allocateDescriptors h 1
      setSegmentBaseAddress h sel addr
      setSegmentLimit h sel (s.askedSize - 1)
      setLword .eax sel
      clearCF) u := by
    rw [← called, ← came]
    rfl
  rw [whole]
  refine Moves.ite (R := Keeps blocksOf) (fun _ => aside_outOfMemory h) (fun _ => ?_) u
  refine Moves.bind ((aside h).allocateDescriptors 1) fun sel => ?_
  refine Moves.bind ((aside h).setSegmentBaseAddress _ _) fun _ => ?_
  refine Moves.bind ((aside h).setSegmentLimit _ _) fun _ => ?_
  exact Moves.bind (aside_setScp _) fun _ => aside_setScp _

theorem dosFree_eq (s : State σ) :
    final (dosFree h) s =
      final (if result (msdosFree h (passedBase h s)) s = -1 then setCF else do
        clearCF
        freeDescriptor h s.scp.es
        freeSegRegs s.scp.es) (final (msdosFree h (passedBase h s)) s) := by
  rw [dosFree, final_bind, final_bind, final_bind, result_reads, final_reads, result_reads,
    final_reads, passedBase]

theorem dosFree_some {s : State σ} {i : Fin MSDOS_MAX_MEM_ALLOCS}
    (found : slotOf s.client.memMap (passedBase h s) = some i) :
    blocksOf (final (dosFree h) s) =
      (markFree s.client.memMap i, memoryLog s.trace ++ [.free (s.client.memMap i).handle]) := by
  obtain ⟨ok, after⟩ := msdosFree_some h found
  rw [dosFree_eq, ok, if_neg (by decide), ← after]
  have rest : Moves (Keeps blocksOf) (do
      clearCF
      freeDescriptor h s.scp.es
      freeSegRegs s.scp.es) := by
    refine Moves.bind (aside_setScp _) fun _ => ?_
    exact Moves.bind ((aside h).freeDescriptor _) fun _ => aside_setScp _
  exact rest _

theorem carry_set (flags : Dword) : (flags ||| CF) &&& CF ≠ 0 := by
  intro clear
  have bit := congrArg (fun f : Dword => f.getLsbD 0) clear
  simp [CF] at bit

theorem dosFree_none {s : State σ} (absent : slotOf s.client.memMap (passedBase h s) = none) :
    Rejected s (final (dosFree h) s) := by
  obtain ⟨failed, same⟩ := msdosFree_none h absent
  rw [dosFree_eq, failed, same, if_pos rfl]
  exact ⟨carry_set _, rfl, rfl, rfl⟩

theorem dosResize_eq (s : State σ) :
    final (dosResize h) s =
      final (if result (msdosRealloc h (passedBase h s) s.askedSize) s = 0 then outOfMemory h else do
        setSegmentBaseAddress h s.scp.es (result (msdosRealloc h (passedBase h s) s.askedSize) s)
        setSegmentLimit h s.scp.es (s.askedSize - 1)
        clearCF) (final (msdosRealloc h (passedBase h s) s.askedSize) s) := by
  rw [dosResize, final_bind, final_bind, final_bind, final_bind, result_reads, final_reads,
    result_reads, final_reads, result_reads, final_reads, passedBase, State.askedSize]

theorem blocksOf_dosResize (s : State σ) : blocksOf (final (dosResize h) s) =
    blocksOf (final (msdosRealloc h (passedBase h s) s.askedSize) s) := by
  rw [dosResize_eq]
  refine Moves.ite (R := Keeps blocksOf) (fun _ => aside_outOfMemory h) (fun _ => ?_) _
  refine Moves.bind ((aside h).setSegmentBaseAddress _ _) fun _ => ?_
  exact Moves.bind ((aside h).setSegmentLimit _ _) fun _ => aside_setScp _

theorem dosResize_none {s : State σ}
    (absent : ∀ i, slotOf s.client.memMap (passedBase h s) = some i → (s.client.memMap i).size = 0) :
    Rejected s (final (dosResize h) s) := by
  obtain ⟨failed, same⟩ := msdosRealloc_none h absent
  rw [dosResize_eq, failed, same, if_pos rfl]
  exact ⟨carry_set _, rfl, rfl, rfl⟩

theorem preExtender_dos {s : State σ} {m : M σ Unit}
    (unlisted : needXbuf 0x21 (s.scp.lword .eax) = false)
    (dta : usesDta (hiByte (s.scp.lword .eax)) = false)
    (branch : preDos h (dosFn (hiByte (s.scp.lword .eax))) (loByte (s.scp.lword .eax)) = done m) :
    final (msdosPreExtender h 0x21) s = final m s.entered := by
  have switch : preSwitch h 0x21 (s.scp.lword .eax) false = done m := branch
  rw [preExtender_eq h unlisted (by rw [dta, Bool.and_false]), switch]
  rfl

theorem allocator_step {s : State σ} (service : s.allocating) :
    AllocatorStep h s (final (msdosPreExtender h 0x21) s) := by
  rcases service with ah | ah | ah
  · have called : final (msdosPreExtender h 0x21) s = final (dosAllocate h) s.entered :=
      preExtender_dos h (by simp [needXbuf, needCopyDseg, needCopyEseg, needXbufDos, ah])
        (by simp [usesDta, ah]) (by simp [dosFn, preDos, ah])
    rw [called]
    have after := (blocksOf_dosAllocate h s.entered).trans (blocksOf_msdosMalloc h s.askedSize _)
    obtain ⟨map, log⟩ := of_blocksOf after
    exact .allocated ah map log
  · have called : final (msdosPreExtender h 0x21) s = final (dosFree h) s.entered :=
      preExtender_dos h (by simp [needXbuf, needCopyDseg, needCopyEseg, needXbufDos, ah])
        (by simp [usesDta, ah]) (by simp [dosFn, preDos, ah])
    rw [called]
    cases found : slotOf s.client.memMap (passedBase h s) with
    | none =>
      obtain ⟨carry, trace, host, map⟩ := dosFree_none h (s := s.entered) found
      exact .notFreed ah found ⟨carry, trace, host, map⟩
    | some i =>
      obtain ⟨map, log⟩ := of_blocksOf (dosFree_some h (s := s.entered) found)
      exact .freed ah i found map log
  · have called : final (msdosPreExtender h 0x21) s = final (dosResize h) s.entered :=
      preExtender_dos h (by simp [needXbuf, needCopyDseg, needCopyEseg, needXbufDos, ah])
        (by simp [usesDta, ah]) (by simp [dosFn, preDos, ah])
    rw [called]
    by_cases live : ∃ i, slotOf s.client.memMap (passedBase h s) = some i ∧ (s.client.memMap i).size ≠ 0
    · obtain ⟨i, found, size⟩ := live
      have resized := msdosRealloc_some h s.askedSize (s := s.entered) found size rfl
      obtain ⟨map, log⟩ := of_blocksOf ((blocksOf_dosResize h s.entered).trans resized)
      exact .resized ah i _ found size map log
    · have absent : ∀ i, slotOf s.client.memMap (passedBase h s) = some i → (s.client.memMap i).size = 0 := by
        intro i found
        by_contra size
        exact live ⟨i, found, size⟩
      obtain ⟨carry, trace, host, map⟩ := dosResize_none h (s := s.entered) absent
      exact .notResized ah absent ⟨carry, trace, host, map⟩

def State.blocks (s : State σ) : List (Entry Dword DpmiPmBlock) := blockLedger (memoryLog s.trace)

theorem blocks_step {s t : State σ} (step : AllocatorStep h s t) :
    ∃ later, t.blocks = s.blocks ++ later := by
  have appended {e : MemoryEvent} (log : memoryLog t.trace = memoryLog s.trace ++ [e]) :
      ∃ later, t.blocks = s.blocks ++ later := by
    refine ⟨blockLedger [e], ?_⟩
    rw [State.blocks, log, blockLedger_append]
    rfl
  have unchanged (rejected : Rejected s t) : ∃ later, t.blocks = s.blocks ++ later := by
    refine ⟨[], ?_⟩
    rw [State.blocks, rejected.trace, List.append_nil]
    rfl
  cases step with
  | allocated ah map log => exact appended log
  | freed ah i found map log => exact appended log
  | resized ah i b found live map log => exact appended log
  | notFreed ah absent rejected => exact unchanged rejected
  | notResized ah absent rejected => exact unchanged rejected

/-! ## Start and end of a client -/

/-- A new client has at most the block of its callbacks. -/
theorem blocksOf_msdosInit (is32 : Bool) (mseg : Word) (s : State σ) :
    blocksOf (final (msdosInit h is32 mseg) s) = (emptyMap, memoryLog s.trace) ∨
      ∃ b, blocksOf (final (msdosInit h is32 mseg) s) =
        (recordGrant emptyMap b, memoryLog s.trace ++ [.malloc b]) := by
  rw [msdosInit, final_bind, final_bind, final_bind, final_bind, (aside h).initAliases _]
  generalize entered : final (convertEnv h) _ = u
  have blocks : blocksOf u = (emptyMap, memoryLog s.trace) := by
    rw [← entered, (aside h).convertEnv _]
    simp [blocksOf, setClient, State.withClient, State.client]
    rfl
  obtain ⟨map, log⟩ := of_blocksOf blocks
  rw [initRmcbs, final_bind, final_reads, result_reads, final_ite]
  split
  · right
    refine ⟨grant h rmcsSize u, ?_⟩
    have after := blocksOf_msdosMalloc h rmcsSize u
    rw [map, log] at after
    rw [← after, final_bind]
    generalize result (msdosMalloc h rmcsSize) u = base
    generalize final (msdosMalloc h rmcsSize) u = v
    exact (aside h).setupRmcbs base aside_getPmcbHandler v
  · left
    have kept := (aside h).client (fun c => { c with rmcbs := (u.clients (u.clientNum - 2)).rmcbs })
      fun _ => rfl
    exact (kept u).trans blocks

theorem blocksOf_freeSlotMem (i : Fin MSDOS_MAX_MEM_ALLOCS) (s : State σ) :
    blocksOf (final (freeSlotMem h i) s) =
      if (s.client.memMap i).size ≠ 0 then
        (markFree s.client.memMap i, memoryLog s.trace ++ [.free (s.client.memMap i).handle])
      else blocksOf s := by
  rw [freeSlotMem, final_bind, result_reads, final_reads, final_onlyIf]
  by_cases live : (s.client.memMap i).size ≠ 0
  · rw [if_pos live, if_pos (decide_eq_true live), final_bind, blocksOf_setMemMap]
    have called : blocksOf (final (dpmiFree h (s.client.memMap i).handle) s) =
        (s.client.memMap, memoryLog s.trace ++ [.free (s.client.memMap i).handle]) :=
      blocksOf_hostCall h rfl
    obtain ⟨map, log⟩ := of_blocksOf called
    rw [map, log]
  · rw [if_neg live, if_neg (by rwa [decide_eq_true_eq])]

theorem memoryLog_freeSlots {slots : List (Fin MSDOS_MAX_MEM_ALLOCS)} (nodup : slots.Nodup)
    (s : State σ) :
    memoryLog (final (slots.forM (freeSlotMem h)) s).trace =
      memoryLog s.trace ++ ((slots.map s.client.memMap).filter (·.size ≠ 0)).map fun b =>
        .free b.handle := by
  induction slots generalizing s with
  | nil => exact (List.append_nil _).symm
  | cons i rest ih =>
    obtain ⟨apart, nodup⟩ := List.nodup_cons.mp nodup
    have step := blocksOf_freeSlotMem h i s
    change memoryLog (final (rest.forM (freeSlotMem h)) (final (freeSlotMem h i) s)).trace = _
    rw [ih nodup]
    generalize final (freeSlotMem h i) s = u at step
    by_cases live : (s.client.memMap i).size ≠ 0
    · rw [if_pos live] at step
      obtain ⟨map, log⟩ := of_blocksOf step
      have same : rest.map u.client.memMap = rest.map s.client.memMap := by
        apply List.map_congr_left
        intro j member
        have other : j ≠ i := fun same => apart (same ▸ member)
        rw [map, markFree, Function.update_of_ne other]
      rw [log, same, List.map_cons, List.filter_cons, if_pos (decide_eq_true live), List.map_cons,
        List.append_assoc]
      rfl
    · rw [if_neg live] at step
      obtain ⟨map, log⟩ := of_blocksOf step
      rw [map, log, List.map_cons, List.filter_cons, if_neg (by rwa [decide_eq_true_eq])]

theorem memoryLog_msdosFreeMem (s : State σ) :
    memoryLog (final (msdosFreeMem h) s).trace =
      memoryLog s.trace ++ (mapBlocks s.client.memMap).map fun b => .free b.handle := by
  rw [msdosFreeMem, memoryLog_freeSlots h (List.nodup_finRange _), mapBlocks, used, List.ofFn_eq_map]

theorem memoryLog_msdosDone (s : State σ) :
    memoryLog (final (msdosDone h) s).trace =
      memoryLog s.trace ++ (mapBlocks s.client.memMap).map fun b => .free b.handle := by
  have same := (aside h).doneDescriptors s
  rw [msdosDone, final_bind, final_bind, final_updates]
  generalize final (doneDescriptors h) s = u at same
  obtain ⟨map, log⟩ := of_blocksOf same
  have swept := memoryLog_msdosFreeMem h u
  rw [map, log] at swept
  generalize final (msdosFreeMem h) u = v at swept
  exact swept

/-! ## Runs -/

/-- A client from its start on, through calls of the three services that meet `ok`. In between the
world may do what leaves its blocks alone. -/
inductive AllocatorRun (ok : State σ → Prop) : State σ → Prop where
  | start (s : State σ) (fresh : memoryLog s.trace = []) (is32 : Bool) (mseg : Word) :
      AllocatorRun ok (final (msdosInit h is32 mseg) s)
  | world {s t : State σ} (run : AllocatorRun ok s) (same : blocksOf t = blocksOf s) :
      AllocatorRun ok t
  | call {s : State σ} (run : AllocatorRun ok s) (service : s.allocating) (meets : ok s) :
      AllocatorRun ok (final (msdosPreExtender h 0x21) s)

/-! ## A client of the simple host -/

@[irreducible] def startedClient : State Bump := final (msdosInit bumpHost true 0) bumpStart

theorem startedClient_log : memoryLog startedClient.trace = [.malloc ⟨0, 50, 0x100000⟩] := by
  decide +kernel

def freeClient (sel : Word) : State Bump :=
  { startedClient with scp := { startedClient.scp with
      gpr := fun | .eax => 0x4900 | _ => 0
      es := sel } }

theorem freeClient_run {ok : State Bump → Prop} (sel : Word) :
    AllocatorRun bumpHost ok (freeClient sel) := by
  have start : AllocatorRun bumpHost ok startedClient := by
    unfold startedClient
    exact .start bumpStart rfl true 0
  exact start.world (s := startedClient) rfl

theorem freeClient_allocating (sel : Word) : (freeClient sel).allocating := by
  right
  left
  change hiByte (loWord 0x4900) = 0x49
  decide

end Pmdapi
