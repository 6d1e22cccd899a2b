import Pmdapi.AllocatorSteps

/-! Every memory block of a client is freed once by the time the client is done. -/

namespace Pmdapi
open Bytes Effect Slots Ledger

variable {σ : Type} (h : DpmiHost σ)

/-! ## The law -/

/-- Every block that was handed out is freed once, and nothing else is. -/
structure FreedOnce (log : List (Entry Dword DpmiPmBlock)) : Prop where
  once : ∀ k ∈ owed DpmiPmBlock.handle log, (released log).count k = 1
  only : ∀ k ∈ released log, k ∈ owed DpmiPmBlock.handle log

/-- A call that loses no block and frees none twice: 48h has a free slot or gets no block, 49h finds
no slot or one in use. -/
structure KeepsAccount (s : State σ) : Prop where
  room : hiByte (s.scp.lword .eax) = 0x48 →
    freeSlot s.client.memMap ≠ none ∨ (grant h s.askedSize s).size = 0
  live : hiByte (s.scp.lword .eax) = 0x49 → ∀ i,
    slotOf s.client.memMap (passedBase h s) = some i → (s.client.memMap i).size ≠ 0

/-! ## Runs -/

def MapAccounts (map : MemMap) (log : List (Entry Dword DpmiPmBlock)) : Prop :=
  Accounts DpmiPmBlock.handle log ((mapBlocks map).map DpmiPmBlock.handle)

section Step

variable {map : MemMap} {log : List MemoryEvent}

theorem MapAccounts.malloc {b : DpmiPmBlock} (accounts : MapAccounts map (blockLedger log))
    (room : freeSlot map ≠ none ∨ b.size = 0)
    (never : NeverReuses DpmiPmBlock.handle (blockLedger (log ++ [.malloc b]))) :
    MapAccounts (recordGrant map b) (blockLedger (log ++ [.malloc b])) := by
  by_cases granted : b.size = 0
  · rw [blockLedger_refused _ (e := .malloc b) (if_pos granted), recordGrant, if_pos granted]
    exact accounts
  · rw [blockLedger_malloc _ granted] at never ⊢
    rw [recordGrant, if_neg granted]
    have recorded := mapBlocks_recordBlock (room.resolve_right granted) granted
    exact (accounts.acquire never.fresh).perm (recorded.symm.map _)

theorem MapAccounts.free {i : Fin MSDOS_MAX_MEM_ALLOCS} (accounts : MapAccounts map (blockLedger log))
    (live : (map i).size ≠ 0) :
    MapAccounts (markFree map i) (blockLedger (log ++ [.free (map i).handle])) := by
  rw [blockLedger_free]
  exact accounts.release ((mapBlocks_markFree live).map _)

theorem MapAccounts.realloc {i : Fin MSDOS_MAX_MEM_ALLOCS} {b : DpmiPmBlock} {size : Dword}
    (accounts : MapAccounts map (blockLedger log)) (live : (map i).size ≠ 0)
    (never : NeverReuses DpmiPmBlock.handle
      (blockLedger (log ++ [.realloc (map i).handle size b]))) :
    MapAccounts (if b.size = 0 then map else Function.update map i b)
      (blockLedger (log ++ [.realloc (map i).handle size b])) := by
  by_cases granted : b.size = 0
  · rw [blockLedger_refused _ (e := .realloc _ size b) (if_pos granted), if_pos granted]
    exact accounts
  · rw [blockLedger_realloc _ _ _ granted] at never ⊢
    rw [if_neg granted]
    obtain ⟨rest, before, after⟩ := used_replace (p := fun c : DpmiPmBlock => decide (c.size ≠ 0))
      (decide_eq_true live) (decide_eq_true granted)
    exact (accounts.exchange (before.map _) never.fresh).perm (after.symm.map _)

theorem mapAccounts_step {s t : State σ} (accounts : MapAccounts s.client.memMap s.blocks)
    (keeps : KeepsAccount h s) (step : AllocatorStep h s t)
    (never : NeverReuses DpmiPmBlock.handle t.blocks) : MapAccounts t.client.memMap t.blocks := by
  cases step with
  | allocated ah map log =>
    rw [State.blocks, log] at never ⊢
    rw [map]
    exact accounts.malloc (keeps.room ah) never
  | freed ah i found map log =>
    rw [State.blocks, map, log]
    exact accounts.free (keeps.live ah i found)
  | resized ah i b found live map log =>
    rw [State.blocks, log] at never ⊢
    rw [map]
    exact accounts.realloc live never
  | notFreed ah absent rejected =>
    rw [State.blocks, rejected.map, rejected.trace]
    exact accounts
  | notResized ah absent rejected =>
    rw [State.blocks, rejected.map, rejected.trace]
    exact accounts

end Step

theorem mapAccounts_empty : MapAccounts emptyMap (blockLedger []) := by
  rw [MapAccounts, mapBlocks_emptyMap]
  exact Accounts.nil

theorem freeSlot_emptyMap : freeSlot emptyMap ≠ none := by
  apply freeSlot_of_length
  rw [mapBlocks_emptyMap]
  decide

theorem mapAccounts_of_run {s : State σ} (run : AllocatorRun h (KeepsAccount h) s)
    (never : NeverReuses DpmiPmBlock.handle s.blocks) : MapAccounts s.client.memMap s.blocks := by
  induction run with
  | start s fresh is32 mseg =>
    rcases blocksOf_msdosInit h is32 mseg s with blocks | ⟨b, blocks⟩
    · obtain ⟨map, log⟩ := of_blocksOf blocks
      rw [State.blocks, map, log, fresh]
      exact mapAccounts_empty
    · obtain ⟨map, log⟩ := of_blocksOf blocks
      rw [fresh] at log
      rw [State.blocks, log] at never ⊢
      rw [map]
      exact mapAccounts_empty.malloc (.inl freeSlot_emptyMap) never
  | @world s t run same ih =>
    obtain ⟨map, log⟩ := of_blocksOf same
    rw [State.blocks, log] at never ⊢
    rw [map]
    exact ih never
  | @call s run service keeps ih =>
    have step := allocator_step h service
    obtain ⟨later, blocks⟩ := blocks_step h step
    have before : NeverReuses DpmiPmBlock.handle s.blocks := by
      rw [blocks] at never
      exact never.of_append
    exact mapAccounts_step h (ih before) keeps step never

/-! ## The end of the client -/

theorem blocks_msdosDone (s : State σ) :
    (final (msdosDone h) s).blocks =
      s.blocks ++ ((mapBlocks s.client.memMap).map DpmiPmBlock.handle).map .release := by
  have freed (bs : List DpmiPmBlock) : blockLedger (bs.map fun b => .free b.handle) =
      (bs.map DpmiPmBlock.handle).map .release := by
    rw [blockLedger, List.filterMap_map, List.map_map]
    exact congrFun List.filterMap_eq_map bs
  unfold State.blocks
  rw [memoryLog_msdosDone h s, blockLedger_append, freed]

/-- In a run whose calls keep the account, every block is freed once. -/
theorem blocks_freed_once {s : State σ} (run : AllocatorRun h (KeepsAccount h) s)
    (never : NeverReuses DpmiPmBlock.handle (final (msdosDone h) s).blocks) :
    FreedOnce (final (msdosDone h) s).blocks := by
  rw [blocks_msdosDone] at never ⊢
  have accounts := (mapAccounts_of_run h run never.of_append).releases
  exact ⟨accounts.released_once, accounts.owed_of_released⟩

def allocateClient : State Bump :=
  { startedClient with scp := { startedClient.scp with
      gpr := fun | .eax => 0x4800 | .ebx => 1 | _ => 0 } }

@[irreducible] def allocatedClient : State Bump :=
  final (msdosPreExtender bumpHost 0x21) allocateClient

theorem allocatedClient_log : memoryLog allocatedClient.trace =
    [.malloc ⟨0, 50, 0x100000⟩, .malloc ⟨7, 16, 0x800000⟩] := by decide +kernel

theorem blocks_freed_once_two : FreedOnce (final (msdosDone bumpHost) allocatedClient).blocks := by
  have start : AllocatorRun bumpHost (KeepsAccount bumpHost) startedClient := by
    unfold startedClient
    exact .start bumpStart rfl true 0
  have run : AllocatorRun bumpHost (KeepsAccount bumpHost) allocatedClient := by
    unfold allocatedClient
    refine .call (start.world (s := startedClient) rfl) (.inl (by decide +kernel)) ⟨?_, ?_⟩
    · exact fun _ => .inl (by decide +kernel)
    · exact fun other => absurd other (by decide +kernel)
  apply blocks_freed_once bumpHost run
  rw [blocks_msdosDone, State.blocks, allocatedClient_log]
  apply NeverReuses.releases
  have first : NeverReuses DpmiPmBlock.handle [Entry.acquire (⟨0, 50, 0x100000⟩ : DpmiPmBlock)] :=
    neverReuses_nil.concat List.not_mem_nil
  have other : Fresh DpmiPmBlock.handle [Entry.acquire (⟨0, 50, 0x100000⟩ : DpmiPmBlock)]
      (.acquire ⟨7, 16, 0x800000⟩) := by
    change (7 : Dword) ∉ [(0 : Dword)]
    decide
  exact first.concat other

@[irreducible] def freedClient : State Bump :=
  let first := final (msdosPreExtender bumpHost 0x21) (freeClient 15)
  final (msdosPreExtender bumpHost 0x21) { first with scp := (freeClient 15).scp }

theorem freedClient_log : memoryLog freedClient.trace =
    [.malloc ⟨0, 50, 0x100000⟩, .free 0, .free 0] := by decide +kernel

/-- The slot found is no longer in use, and its handle is freed once more. -/
theorem blocks_freed_once_misses_second_free :
    AllocatorRun bumpHost (fun _ => True) freedClient ∧
      NeverReuses DpmiPmBlock.handle (final (msdosDone bumpHost) freedClient).blocks ∧
      ¬FreedOnce (final (msdosDone bumpHost) freedClient).blocks := by
  have ledger : freedClient.blocks = [.acquire ⟨0, 50, 0x100000⟩, .release 0, .release 0] := by
    rw [State.blocks, freedClient_log]
    rfl
  rw [blocks_msdosDone, ledger]
  refine ⟨?_, ?_, ?_⟩
  · unfold freedClient
    refine .call (.world (.call (freeClient_run 15) (freeClient_allocating 15) trivial) rfl) ?_ trivial
    exact freeClient_allocating 15
  · apply NeverReuses.releases
    have first : NeverReuses DpmiPmBlock.handle [Entry.acquire (⟨0, 50, 0x100000⟩ : DpmiPmBlock)] :=
      neverReuses_nil.concat List.not_mem_nil
    exact first.releases [0, 0]
  · intro law
    have once := law.once 0 (by rw [owed_releases]; decide)
    rw [released_append, List.count_append] at once
    have twice : (released [Entry.acquire (⟨0, 50, 0x100000⟩ : DpmiPmBlock), .release (0 : Dword),
        .release 0]).count 0 = 2 := rfl
    omega

end Pmdapi
