import Pmdapi.AllocatorSteps

/-! 49h and 4Ah act on the block whose base the selector has, and on no other. -/

namespace Pmdapi
open Bytes Effect Slots Ledger

/-! ## The host -/

def DpmiPmBlock.Apart (b c : DpmiPmBlock) : Prop :=
  b.base.toNat + b.size.toNat ≤ c.base.toNat ∨ c.base.toNat + c.size.toNat ≤ b.base.toNat

/-- A new block is not at 0, and neither its addresses nor its handle are those of a live one. -/
def Honest (live : List DpmiPmBlock) : Entry Dword DpmiPmBlock → Prop
  | .acquire b => b.base ≠ 0 ∧ ∀ c ∈ live, b.Apart c ∧ b.handle ≠ c.handle
  | .exchange k b => b.base ≠ 0 ∧ ∀ c ∈ live, c.handle ≠ k → b.Apart c ∧ b.handle ≠ c.handle
  | .release _ => True

/-- A host that was honest so far, and asked for no more blocks than the map has slots. -/
structure HonestHost (log : List (Entry Dword DpmiPmBlock)) : Prop where
  honest : ∀ before e, before ++ [e] <+: log → Honest (held DpmiPmBlock.handle before) e
  few : ∀ before, before <+: log → (held DpmiPmBlock.handle before).length ≤ MSDOS_MAX_MEM_ALLOCS

theorem HonestHost.of_append {log later : List (Entry Dword DpmiPmBlock)}
    (host : HonestHost (log ++ later)) : HonestHost log where
  honest := fun before e early => host.honest before e (early.trans (List.prefix_append _ _))
  few := fun before early => host.few before (early.trans (List.prefix_append _ _))

theorem honestHost_nil : HonestHost [] where
  honest := by
    intro before e early
    simp at early
  few := by
    intro before early
    rw [List.prefix_nil.mp early]
    exact Nat.zero_le _

theorem HonestHost.concat {log : List (Entry Dword DpmiPmBlock)} {e : Entry Dword DpmiPmBlock}
    (host : HonestHost log) (honest : Honest (held DpmiPmBlock.handle log) e)
    (few : (held DpmiPmBlock.handle (log ++ [e])).length ≤ MSDOS_MAX_MEM_ALLOCS) :
    HonestHost (log ++ [e]) where
  honest := by
    intro before f early
    rcases List.prefix_concat_iff.mp early with whole | early
    · obtain ⟨rfl, last⟩ := List.append_inj' whole rfl
      obtain rfl := List.singleton_inj.mp last
      exact honest
    · exact host.honest before f early
  few := by
    intro before early
    rcases List.prefix_concat_iff.mp early with rfl | early
    · exact few
    · exact host.few before early

theorem Apart.base_ne {b c : DpmiPmBlock} (apart : b.Apart c) (size : b.size ≠ 0)
    (other : c.size ≠ 0) : b.base ≠ c.base := by
  intro same
  have positive : b.size.toNat ≠ 0 := fun zero => size (BitVec.eq_of_toNat_eq zero)
  have positive' : c.size.toNat ≠ 0 := fun zero => other (BitVec.eq_of_toNat_eq zero)
  rw [DpmiPmBlock.Apart, same] at apart
  omega

/-! ## The map against the blocks -/

/-- The map holds the live blocks; no two of them have a base or a handle in common. -/
structure SoundMap (map : MemMap) (live : List DpmiPmBlock) : Prop where
  same : (mapBlocks map).Perm live
  handles : (live.map DpmiPmBlock.handle).Nodup
  bases : (live.map DpmiPmBlock.base).Nodup

namespace SoundMap

variable {map : MemMap} {log : List MemoryEvent} {live : List DpmiPmBlock}

theorem size_ne (sound : SoundMap map live) {b : DpmiPmBlock} (member : b ∈ live) : b.size ≠ 0 :=
  (mem_mapBlocks.mp (sound.same.mem_iff.mpr member)).2

theorem mem (sound : SoundMap map live) {i : Fin MSDOS_MAX_MEM_ALLOCS} (size : (map i).size ≠ 0) :
    map i ∈ live := sound.same.mem_iff.mp (mem_mapBlocks.mpr ⟨⟨i, rfl⟩, size⟩)

/-- A live block whose base is looked up is in the slot found, if that slot is in use. -/
theorem slot_eq (sound : SoundMap map live) {b : DpmiPmBlock} {i : Fin MSDOS_MAX_MEM_ALLOCS}
    (member : b ∈ live) (found : slotOf map b.base = some i) (size : (map i).size ≠ 0) :
    map i = b :=
  List.inj_on_of_nodup_map sound.bases (sound.mem size) member (slotOf_base found)

theorem acquire {b : DpmiPmBlock} (sound : SoundMap map (liveBlocks log)) (granted : b.size ≠ 0)
    (host : HonestHost (blockLedger log ++ [.acquire b])) :
    SoundMap (recordBlock map b) (b :: liveBlocks log) := by
  obtain ⟨_, apart⟩ := host.honest _ _ (List.prefix_refl _)
  have few := host.few _ (List.prefix_refl _)
  rw [held_concat] at few
  have length : (mapBlocks map).length < MSDOS_MAX_MEM_ALLOCS := by
    rw [sound.same.length_eq]
    exact few
  refine ⟨?_, ?_, ?_⟩
  · exact (mapBlocks_recordBlock (freeSlot_of_length length) granted).trans (sound.same.cons b)
  · refine List.nodup_cons.mpr ⟨?_, sound.handles⟩
    intro taken
    obtain ⟨c, member, same⟩ := List.mem_map.mp taken
    exact (apart c member).2 same.symm
  · refine List.nodup_cons.mpr ⟨?_, sound.bases⟩
    intro taken
    obtain ⟨c, member, same⟩ := List.mem_map.mp taken
    exact Apart.base_ne (apart c member).1 granted (sound.size_ne member) same.symm

theorem malloc {b : DpmiPmBlock} (sound : SoundMap map (liveBlocks log))
    (host : HonestHost (blockLedger (log ++ [.malloc b]))) :
    SoundMap (recordGrant map b) (liveBlocks (log ++ [.malloc b])) := by
  by_cases granted : b.size = 0
  · rw [liveBlocks, blockLedger_refused _ (e := .malloc b) (if_pos granted), recordGrant, if_pos granted]
    exact sound
  · rw [blockLedger_malloc _ granted] at host
    rw [liveBlocks, blockLedger_malloc _ granted, held_concat, recordGrant, if_neg granted]
    exact sound.acquire granted host

theorem free {i : Fin MSDOS_MAX_MEM_ALLOCS} (sound : SoundMap map (liveBlocks log))
    (size : (map i).size ≠ 0) :
    SoundMap (markFree map i) (liveBlocks (log ++ [.free (map i).handle])) := by
  have split := sound.same.symm.trans (mapBlocks_markFree size)
  have rest := settle_release split sound.handles
  rw [liveBlocks, blockLedger_free, held_concat]
  refine ⟨rest.symm, ?_, ?_⟩
  · exact List.Nodup.sublist (List.filter_sublist.map _) sound.handles
  · exact List.Nodup.sublist (List.filter_sublist.map _) sound.bases

theorem exchange {b : DpmiPmBlock} {i : Fin MSDOS_MAX_MEM_ALLOCS}
    (sound : SoundMap map (liveBlocks log)) (size : (map i).size ≠ 0) (granted : b.size ≠ 0)
    (honest : Honest (liveBlocks log) (.exchange (map i).handle b)) :
    SoundMap (Function.update map i b)
      (settle DpmiPmBlock.handle (liveBlocks log) (.exchange (map i).handle b)) := by
  obtain ⟨rest, before, after⟩ := used_replace (p := fun c : DpmiPmBlock => decide (c.size ≠ 0))
    (decide_eq_true size) (decide_eq_true granted)
  have split := sound.same.symm.trans before
  have replaced := settle_exchange (c := b) split sound.handles
  obtain ⟨_, apart⟩ := honest
  have handles := (split.map DpmiPmBlock.handle).nodup_iff.mp sound.handles
  have bases := (split.map DpmiPmBlock.base).nodup_iff.mp sound.bases
  rw [List.map_cons, List.nodup_cons] at handles bases
  have others : ∀ c ∈ rest, b.Apart c ∧ b.handle ≠ c.handle := by
    intro c member
    apply apart c (split.mem_iff.mpr (List.mem_cons_of_mem _ member))
    intro same
    exact handles.1 (same ▸ List.mem_map_of_mem member)
  refine ⟨after.trans replaced.symm, ?_, ?_⟩
  · apply (replaced.map _).nodup_iff.mpr
    refine List.nodup_cons.mpr ⟨?_, handles.2⟩
    intro taken
    obtain ⟨c, member, same⟩ := List.mem_map.mp taken
    exact (others c member).2 same.symm
  · apply (replaced.map _).nodup_iff.mpr
    refine List.nodup_cons.mpr ⟨?_, bases.2⟩
    intro taken
    obtain ⟨c, member, same⟩ := List.mem_map.mp taken
    have live := sound.size_ne (split.mem_iff.mpr (List.mem_cons_of_mem _ member))
    exact Apart.base_ne (others c member).1 granted live same.symm

theorem realloc {b : DpmiPmBlock} {size : Dword} {i : Fin MSDOS_MAX_MEM_ALLOCS}
    (sound : SoundMap map (liveBlocks log)) (live : (map i).size ≠ 0)
    (host : HonestHost (blockLedger (log ++ [.realloc (map i).handle size b]))) :
    SoundMap (if b.size = 0 then map else Function.update map i b)
      (liveBlocks (log ++ [.realloc (map i).handle size b])) := by
  by_cases granted : b.size = 0
  · rw [liveBlocks, blockLedger_refused _ (e := .realloc _ size b) (if_pos granted), if_pos granted]
    exact sound
  · rw [blockLedger_realloc _ _ _ granted] at host
    rw [liveBlocks, blockLedger_realloc _ _ _ granted, held_concat, if_neg granted]
    exact sound.exchange live granted (host.honest _ _ (List.prefix_refl _))

end SoundMap

/-! ## Runs -/

variable {σ : Type} (h : DpmiHost σ)

/-- What is looked up is in use, if anything of that base is: 49h finds no slot or one in use, 4Ah
does not find a free slot before one in use. -/
structure FindsLive (s : State σ) : Prop where
  free : hiByte (s.scp.lword .eax) = 0x49 → ∀ i,
    slotOf s.client.memMap (passedBase h s) = some i → (s.client.memMap i).size ≠ 0
  resize : hiByte (s.scp.lword .eax) = 0x4a → ∀ i j,
    slotOf s.client.memMap (passedBase h s) = some i → (s.client.memMap j).base = passedBase h s →
    (s.client.memMap j).size ≠ 0 → (s.client.memMap i).size ≠ 0

def State.live (s : State σ) : List DpmiPmBlock := liveBlocks (memoryLog s.trace)

theorem soundMap_step {s t : State σ} (sound : SoundMap s.client.memMap s.live)
    (finds : FindsLive h s) (step : AllocatorStep h s t) (host : HonestHost t.blocks) :
    SoundMap t.client.memMap t.live := by
  cases step with
  | allocated ah map log =>
    rw [State.blocks, log] at host
    rw [State.live, map, log]
    exact sound.malloc host
  | freed ah i found map log =>
    rw [State.live, map, log]
    exact sound.free (finds.free ah i found)
  | resized ah i b found live map log =>
    rw [State.blocks, log] at host
    rw [State.live, map, log]
    exact sound.realloc live host
  | notFreed ah absent rejected =>
    rw [State.live, rejected.map, rejected.trace]
    exact sound
  | notResized ah absent rejected =>
    rw [State.live, rejected.map, rejected.trace]
    exact sound

theorem soundMap_empty : SoundMap emptyMap (liveBlocks []) := by
  refine ⟨?_, List.nodup_nil, List.nodup_nil⟩
  rw [mapBlocks_emptyMap]
  rfl

/-- In every run the map holds just the live blocks. -/
theorem soundMap_of_run {s : State σ} (run : AllocatorRun h (FindsLive h) s)
    (host : HonestHost s.blocks) : SoundMap s.client.memMap s.live := by
  induction run with
  | start s fresh is32 mseg =>
    rcases blocksOf_msdosInit h is32 mseg s with blocks | ⟨b, blocks⟩
    · obtain ⟨map, log⟩ := of_blocksOf blocks
      rw [State.live, map, log, fresh]
      exact soundMap_empty
    · obtain ⟨map, log⟩ := of_blocksOf blocks
      rw [fresh] at log
      rw [State.blocks, log] at host
      rw [State.live, map, log]
      exact soundMap_empty.malloc host
  | @world s t run same ih =>
    obtain ⟨map, log⟩ := of_blocksOf same
    rw [State.blocks, log] at host
    rw [State.live, map, log]
    exact ih host
  | @call s run service finds ih =>
    have step := allocator_step h service
    obtain ⟨later, blocks⟩ := blocks_step h step
    have before : HonestHost s.blocks := by
      rw [blocks] at host
      exact host.of_append
    exact soundMap_step h (ih before) finds step host

/-! ## The law -/

/-- What 49h and 4Ah do to the block with the base they are passed, and without one. -/
structure AllocatorLaw (s t : State σ) : Prop where
  frees : hiByte (s.scp.lword .eax) = 0x49 → ∀ b ∈ s.live, b.base = passedBase h s →
    memoryLog t.trace = memoryLog s.trace ++ [.free b.handle]
  freesNone : hiByte (s.scp.lword .eax) = 0x49 → (∀ b ∈ s.live, b.base ≠ passedBase h s) →
    Rejected s t
  resizes : hiByte (s.scp.lword .eax) = 0x4a → ∀ b ∈ s.live, b.base = passedBase h s →
    ∃ c, memoryLog t.trace = memoryLog s.trace ++ [.realloc b.handle s.askedSize c]
  resizesNone : hiByte (s.scp.lword .eax) = 0x4a → (∀ b ∈ s.live, b.base ≠ passedBase h s) →
    Rejected s t

theorem ah_ne {ah a b : Byte} (one : ah = a) (different : a ≠ b) :
    ah ≠ b := one ▸ different

theorem allocatorLaw_step {s t : State σ} (sound : SoundMap s.client.memMap s.live)
    (finds : FindsLive h s) (step : AllocatorStep h s t) : AllocatorLaw h s t := by
  cases step with
  | allocated ah =>
    have notFree := ah_ne ah (b := 0x49) (by decide)
    have notResize := ah_ne ah (b := 0x4a) (by decide)
    exact ⟨fun other => absurd other notFree, fun other => absurd other notFree,
      fun other => absurd other notResize, fun other => absurd other notResize⟩
  | freed ah i found map log =>
    have notResize := ah_ne ah (b := 0x4a) (by decide)
    have size := finds.free ah i found
    refine ⟨?_, ?_, fun other => absurd other notResize, fun other => absurd other notResize⟩
    · intro _ b member base
      rw [← base] at found
      rw [log, sound.slot_eq member found size]
    · intro _ none
      exact absurd (slotOf_base found) (none _ (sound.mem size))
  | resized ah i b found live map log =>
    have notFree := ah_ne ah (b := 0x49) (by decide)
    refine ⟨fun other => absurd other notFree, fun other => absurd other notFree, ?_, ?_⟩
    · intro _ c member base
      rw [← base] at found
      rw [log, sound.slot_eq member found live]
      exact ⟨b, rfl⟩
    · intro _ none
      exact absurd (slotOf_base found) (none _ (sound.mem live))
  | notFreed ah absent rejected =>
    have notResize := ah_ne ah (b := 0x4a) (by decide)
    refine ⟨?_, fun _ _ => rejected, fun other => absurd other notResize, fun _ _ => rejected⟩
    intro _ b member base
    obtain ⟨i, found⟩ := slotOf_of_mem (sound.same.mem_iff.mpr member)
    rw [base, absent] at found
    cases found
  | notResized ah absent rejected =>
    have notFree := ah_ne ah (b := 0x49) (by decide)
    refine ⟨fun other => absurd other notFree, fun _ _ => rejected, ?_, fun _ _ => rejected⟩
    intro _ b member base
    obtain ⟨i, found⟩ := slotOf_of_mem (sound.same.mem_iff.mpr member)
    obtain ⟨⟨j, same⟩, size⟩ := mem_mapBlocks.mp (sound.same.mem_iff.mpr member)
    rw [base] at found
    rw [← same] at base size
    exact absurd (absent i found) (finds.resize ah i j found base size)

/-- Along a run whose calls find what is live, 49h and 4Ah keep the law. -/
theorem allocator_law {s : State σ} (run : AllocatorRun h (FindsLive h) s)
    (host : HonestHost s.blocks) (service : s.allocating) (finds : FindsLive h s) :
    AllocatorLaw h s (final (msdosPreExtender h 0x21) s) :=
  allocatorLaw_step h (soundMap_of_run h run host) finds (allocator_step h service)

theorem startedClient_live : startedClient.live = [⟨0, 50, 0x100000⟩] := by
  rw [State.live, startedClient_log]
  rfl

theorem startedClient_honest : HonestHost startedClient.blocks := by
  rw [State.blocks, startedClient_log]
  exact honestHost_nil.concat ⟨by decide, List.forall_mem_nil _⟩ (by decide)

/-- Selector 15 is the one of the callbacks' block. -/
theorem allocator_law_first_block :
    AllocatorLaw bumpHost (freeClient 15) (final (msdosPreExtender bumpHost 0x21) (freeClient 15)) := by
  have first : slotOf (freeClient 15).client.memMap (passedBase bumpHost (freeClient 15)) =
      some ⟨0, by decide⟩ := by decide +kernel
  apply allocator_law bumpHost (freeClient_run 15) startedClient_honest (freeClient_allocating 15)
  constructor
  · intro _ i found
    rw [first] at found
    obtain rfl := Option.some.inj found
    decide +kernel
  · intro other
    exact absurd other (by decide +kernel)

/-- With selector 0, whose base is 0, a slot is found that was never used, and the host is asked to
free handle 0. -/
theorem allocator_law_misses_base_zero :
    AllocatorRun bumpHost (fun _ => True) (freeClient 0) ∧ HonestHost (freeClient 0).blocks ∧
      (freeClient 0).allocating ∧
      ¬AllocatorLaw bumpHost (freeClient 0) (final (msdosPreExtender bumpHost 0x21) (freeClient 0)) := by
  refine ⟨freeClient_run 0, startedClient_honest, freeClient_allocating 0, ?_⟩
  intro law
  have base : passedBase bumpHost (freeClient 0) = 0 := by decide +kernel
  have live : (freeClient 0).live = [⟨0, 50, 0x100000⟩] := startedClient_live
  have rejected := law.freesNone (by decide +kernel) (by rw [live, base]; decide)
  have before : memoryLog (freeClient 0).trace = [.malloc ⟨0, 50, 0x100000⟩] := startedClient_log
  have after : memoryLog (final (msdosPreExtender bumpHost 0x21) (freeClient 0)).trace =
      [.malloc ⟨0, 50, 0x100000⟩, .free 0] := by decide +kernel
  rw [rejected.trace, before] at after
  cases after

end Pmdapi
