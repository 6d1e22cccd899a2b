import Pmdapi.LdtShadow

/-! `direct_ldt_write` with any offset and length: what it writes behind its array, and to the shadow. -/

namespace Pmdapi
open Bytes Effect

variable {σ : Type}

def LdtState.Holds (s : LdtState σ) (offset : Nat) (buffer : List Byte) : Prop :=
  ∃ b, s.backbuf = some b ∧ ∀ i (inside : i < buffer.length), b (offset + i) = buffer[i]

variable (h : LdtHost σ)

/-- A write that leaves whatever stands behind `lp`, and that is in the shadow LDT afterwards. -/
structure Exact (offset : Nat) (buffer : List Byte) (s : LdtState σ) : Prop where
  inBuffer : ∀ behindLp, (final (directLdtWrite h offset buffer) { s with behindLp := behindLp }).behindLp =
    behindLp
  shadow : (final (directLdtWrite h offset buffer) s).Holds offset buffer

/-- The descriptor of an entry can be read, if need be after it was allocated. -/
def LdtHost.fetches (host : σ) (entry : Nat) : Bool :=
  (h.getDescriptor host (selectorOf entry)).isSome ||
    !(h.allocateSpecific host (selectorOf entry)).1 &&
      (h.getDescriptor (h.allocateSpecific host (selectorOf entry)).2.host (selectorOf entry)).isSome

def LdtHost.Accepts : Prop := ∀ host entry, entry < LDT_ENTRIES → h.fetches host entry = true

variable {h}

/-! ## What the host reports -/

theorem msdosLdtUpdate_run (entry : Nat) (buf : List Byte) (s : LdtState σ) :
    ∃ f : (Nat → Byte) → Nat → Byte, final (msdosLdtUpdate entry buf) s =
      { s with backbuf := s.backbuf.map f } := by
  rw [msdosLdtUpdate, final_updates]
  split
  next => exact ⟨_, rfl⟩
  next => exact ⟨id, by rw [Option.map_id]; rfl⟩

theorem report_run (reports : List LdtReport) (s : LdtState σ) :
    ∃ f : (Nat → Byte) → Nat → Byte, final (report reports) s =
      { s with backbuf := s.backbuf.map f } := by
  induction reports generalizing s with
  | nil => exact ⟨id, by rw [Option.map_id]; rfl⟩
  | cons r rest ih =>
    obtain ⟨first, one⟩ := msdosLdtUpdate_run r.entry r.bytes s
    obtain ⟨later, more⟩ := ih (final (msdosLdtUpdate r.entry r.bytes) s)
    refine ⟨later ∘ first, ?_⟩
    have steps : final (report (r :: rest)) s =
        final (report rest) (final (msdosLdtUpdate r.entry r.bytes) s) := rfl
    rw [steps, more, one, Option.map_map]

theorem setDescriptor_run (selector : Word) (lp : Descriptor) (s : LdtState σ) :
    ∃ host f, final (setDescriptor h selector lp) s =
      { s with host := host, backbuf := s.backbuf.map f } := by
  obtain ⟨f, reported⟩ := report_run (h.setDescriptor s.host selector lp).reports
    { s with host := (h.setDescriptor s.host selector lp).host }
  exact ⟨_, f, reported⟩

theorem installDescriptor_run (selector : Word) (lp : Descriptor) (s : LdtState σ) :
    ∃ host f scp, final (installDescriptor h selector lp) s =
      ⟨host, s.backbuf.map f, s.entryUpd, scp, s.behindLp⟩ := by
  unfold installDescriptor
  split
  next =>
    obtain ⟨host, f, set⟩ := setDescriptor_run (h := h) selector lp s
    exact ⟨host, f, s.scp, set⟩
  next =>
    obtain ⟨host, f, set⟩ := setDescriptor_run (h := h) selector .dummy s
    refine ⟨host, f, s.scp.freeSegRegs selector, ?_⟩
    rw [final_bind, set]
    rfl

theorem allocateSpecific_run (selector : Word) (s : LdtState σ) :
    result (allocateSpecificLdtDescriptor h selector) s = (h.allocateSpecific s.host selector).1 ∧
      final (allocateSpecificLdtDescriptor h selector) s =
        final (report (h.allocateSpecific s.host selector).2.reports)
          { s with host := (h.allocateSpecific s.host selector).2.host } := ⟨rfl, rfl⟩

/-- The descriptor is found exactly where the host lets it be read. -/
theorem fetchDescriptor_found (s : LdtState σ) (entry : Nat) :
    (result (fetchDescriptor h (selectorOf entry)) s).isSome = h.fetches s.host entry ∧
      ∃ host f, final (fetchDescriptor h (selectorOf entry)) s =
        { s with host := host, backbuf := s.backbuf.map f } := by
  cases found : h.getDescriptor s.host (selectorOf entry) with
  | some lp =>
    have run : fetchDescriptor h (selectorOf entry) s = (some lp, s) := by
      rw [run_eq (fetchDescriptor h (selectorOf entry))]
      simp [fetchDescriptor, found]
    rw [result, final, run, LdtHost.fetches, found]
    exact ⟨rfl, s.host, id, by rw [Option.map_id]; rfl⟩
  | none =>
    obtain ⟨answer, after⟩ := allocateSpecific_run (h := h) (selectorOf entry) s
    obtain ⟨f, reported⟩ := report_run (h.allocateSpecific s.host (selectorOf entry)).2.reports
      { s with host := (h.allocateSpecific s.host (selectorOf entry)).2.host }
    rw [reported] at after
    simp only [fetchDescriptor, final_bind, final_reads, result_bind, result_reads, found, answer, after,
      LdtHost.fetches]
    cases (h.allocateSpecific s.host (selectorOf entry)).1 <;> exact ⟨by simp, _, f, rfl⟩

/-! ## One write -/

theorem mergeDescriptor_holds {s : LdtState σ} (ready : s.backbuf.isSome) {entry offs : Nat}
    {buffer : List Byte} (lp : Descriptor) (fits : offs + buffer.length ≤ 8) :
    (final (mergeDescriptor h entry offs buffer lp) s).Holds (entry * 8 + offs) buffer := by
  obtain ⟨b, some⟩ := Option.isSome_iff_exists.mp ready
  rw [final_mergeDescriptor]
  generalize s.held entry lp = old
  obtain ⟨host, f, scp, installed⟩ := installDescriptor_run (h := h) (selectorOf entry)
    (old.patch offs buffer) (s.copied entry offs buffer lp)
  rw [installed]
  refine ⟨_, congrArg (Option.map _) (congrArg (Option.map f) some), fun i inside => ?_⟩
  have entryOf : shadowOf (overlay (f b) (entry * 8) (List.ofFn (old.patch offs buffer))) entry
      ⟨offs + i, by omega⟩ = (old.patch offs buffer) ⟨offs + i, by omega⟩ := by
    rw [shadowOf_overlay]
  rw [Nat.add_assoc]
  refine Eq.trans entryOf ?_
  rw [Descriptor.patch, if_pos (Nat.le_add_right _ _), Nat.add_sub_cancel_left,
    List.getD_eq_getElem _ _ inside]

/-- Only the `memcpy` changes what stands behind `lp`. -/
theorem mergeDescriptor_behind (s : LdtState σ) (entry offs : Nat) (buffer : List Byte) (lp : Descriptor) :
    (final (mergeDescriptor h entry offs buffer lp) s).behindLp =
      fun i => overlay (lpFrame (s.held entry lp) s.behindLp) offs buffer (8 + i) := by
  obtain ⟨host, f, scp, installed⟩ := installDescriptor_run (h := h) (selectorOf entry)
    ((s.held entry lp).patch offs buffer) (s.copied entry offs buffer lp)
  rw [final_mergeDescriptor, installed]
  rfl

theorem mod_entry (offset : Nat) : offset / 8 * 8 + offset % 8 = offset := by omega

def LdtState.updating (s : LdtState σ) (entry : Nat) : LdtState σ := { s with entryUpd := entry }

theorem final_directLdtWrite {s : LdtState σ} (ready : s.backbuf.isSome) (offset : Nat) (buffer : List Byte) :
    final (directLdtWrite h offset buffer) s =
      let t := final (fetchDescriptor h (selectorOf (offset / 8))) (s.updating (offset / 8))
      match result (fetchDescriptor h (selectorOf (offset / 8))) (s.updating (offset / 8)) with
      | some lp => { final (mergeDescriptor h (offset / 8) (offset % 8) buffer lp) t with entryUpd := -1 }
      | none => { t with entryUpd := -1 } := by
  rw [directLdtWrite, final_reads_bind, final_onlyIf, if_pos ready, final_bind, final_bind, final_bind]
  have start : final (updates fun s : LdtState σ => { s with entryUpd := (offset / 8 : Nat) }) s =
      s.updating (offset / 8) := rfl
  rw [start]
  cases result (fetchDescriptor h (selectorOf (offset / 8))) (s.updating (offset / 8)) <;> rfl

theorem directLdtWrite_merges {s : LdtState σ} (ready : s.backbuf.isSome) (offset : Nat) (buffer : List Byte)
    (found : h.fetches s.host (offset / 8) = true) :
    ∃ (host : σ) (f : (Nat → Byte) → Nat → Byte) (lp : Descriptor),
      final (directLdtWrite h offset buffer) s =
        { final (mergeDescriptor h (offset / 8) (offset % 8) buffer lp)
            { s with host := host, backbuf := s.backbuf.map f, entryUpd := (offset / 8 : Nat) } with
          entryUpd := -1 } := by
  obtain ⟨some, host, f, kept⟩ := fetchDescriptor_found (h := h) (s.updating (offset / 8)) (offset / 8)
  have found' : h.fetches (s.updating (offset / 8)).host (offset / 8) = true := found
  rw [found'] at some
  obtain ⟨lp, fetched⟩ := Option.isSome_iff_exists.mp some
  refine ⟨host, f, lp, ?_⟩
  rw [final_directLdtWrite ready, fetched, kept]
  rfl

/-- A write is exact if and only if it does not cross the end of its descriptor. -/
theorem ldt_write_exact_iff (accepts : h.Accepts) {s : LdtState σ} (ready : s.backbuf.isSome) {offset : Nat}
    {buffer : List Byte} (size : buffer.length = 1 ∨ buffer.length = 2 ∨ buffer.length = 4)
    (inside : offset + buffer.length ≤ LDT_ENTRIES * 8) :
    Exact h offset buffer s ↔ offset % 8 + buffer.length ≤ 8 := by
  have found := accepts s.host (offset / 8) (by omega)
  have behind (behindLp : Nat → Byte) : ∃ old,
      (final (directLdtWrite h offset buffer) { s with behindLp := behindLp }).behindLp =
        fun i => overlay (lpFrame old behindLp) (offset % 8) buffer (8 + i) := by
    obtain ⟨host, f, lp, after⟩ :=
      directLdtWrite_merges (s := { s with behindLp := behindLp }) ready offset buffer found
    rw [after]
    exact ⟨_, mergeDescriptor_behind _ _ _ _ _⟩
  constructor
  · intro exact
    by_contra crosses
    -- a byte behind `lp` that is not the one copied there
    have last : 8 - offset % 8 < buffer.length := by omega
    obtain ⟨other, differs⟩ := exists_byte_notMem (l := [buffer[8 - offset % 8]]) (by simp)
    obtain ⟨old, after⟩ := behind fun _ => other
    have copied : overlay (lpFrame old fun _ => other) (offset % 8) buffer (8 + 0) =
        buffer[8 - offset % 8] := by
      rw [overlay, if_pos (by omega), List.getD_eq_getElem _ _ last]
    have same := congrFun (after.symm.trans (exact.inBuffer fun _ => other)) 0
    exact differs (List.mem_singleton.mpr (same.symm.trans copied))
  · intro fits
    refine ⟨fun behindLp => ?_, ?_⟩
    · obtain ⟨old, after⟩ := behind behindLp
      rw [after, overlay_lpFrame_behind old behindLp fits]
    · obtain ⟨host, f, lp, after⟩ := directLdtWrite_merges ready offset buffer found
      have backed : (s.backbuf.map f).isSome := by rwa [Option.isSome_map]
      have merged : (final (mergeDescriptor h (offset / 8) (offset % 8) buffer lp) { s with
          host := host, backbuf := s.backbuf.map f, entryUpd := (offset / 8 : Nat) }).Holds
          (offset / 8 * 8 + offset % 8) buffer := mergeDescriptor_holds backed lp fits
      rw [mod_entry] at merged
      rw [after]
      exact merged

theorem tableHost_accepts : tableHost.Accepts := by
  intro table entry _
  simp [LdtHost.fetches, tableHost]

theorem ldt_write_exact_word : Exact tableHost 44 [0x9b, 0xd0] ldtStart :=
  (ldt_write_exact_iff tableHost_accepts rfl (.inr (.inl rfl)) (by decide)).mpr (by decide)

/-- Four bytes at the last word of an entry: two go past `lp`, and are not in the next entry. -/
theorem ldt_write_straddles : tableHost.Accepts ∧ ldtStart.backbuf.isSome ∧
    46 + [0x11, 0x22, 0x33, (0x44 : Byte)].length ≤ LDT_ENTRIES * 8 ∧
      ldtStart.behindLp 0 = 0 ∧
      (final (directLdtWrite tableHost 46 [0x11, 0x22, 0x33, 0x44]) ldtStart).behindLp 0 = 0x33 ∧
      (final (directLdtWrite tableHost 46 [0x11, 0x22, 0x33, 0x44]) ldtStart).behindLp 1 = 0x44 ∧
      (final (directLdtWrite tableHost 46 [0x11, 0x22, 0x33, 0x44]) ldtStart).backbuf.map (· 48) = some 0 ∧
      ¬ Exact tableHost 46 [0x11, 0x22, 0x33, 0x44] ldtStart := by
  have spilt : (final (directLdtWrite tableHost 46 [0x11, 0x22, 0x33, 0x44]) ldtStart).behindLp 0 = 0x33 := by
    decide +kernel
  refine ⟨tableHost_accepts, rfl, by decide, rfl, spilt, by decide +kernel, by decide +kernel, fun exact => ?_⟩
  have kept := congrFun (exact.inBuffer ldtStart.behindLp) 0
  exact absurd (spilt.symm.trans kept) (by decide)

end Pmdapi
