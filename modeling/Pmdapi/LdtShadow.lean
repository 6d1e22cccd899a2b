import Mathlib.Logic.Function.Basic
import Pmdapi.Ldt

/-! The shadow LDT under direct writes: it collects the client's bytes, and the real LDT follows it. -/

namespace Pmdapi
open Bytes Effect

variable {σ : Type}

/-- What a host reports of a change is about the descriptor that the change names. -/
structure LdtHost.ReportsOwn (h : LdtHost σ) : Prop where
  set_reports : ∀ b entry d, entry < LDT_ENTRIES →
    ∀ r ∈ (h.setDescriptor b (selectorOf entry) d).reports, r.entry = entry
  allocate_reports : ∀ b entry, entry < LDT_ENTRIES →
    ∀ r ∈ (h.allocateSpecific b (selectorOf entry)).2.reports, r.entry = entry

/-- What the writes rely on: a change concerns the descriptor it names, and is reported as such. -/
structure LdtHost.Lawful (h : LdtHost σ) : Prop extends h.ReportsOwn where
  set_stores : ∀ b entry d, entry < LDT_ENTRIES → (h.getDescriptor b (selectorOf entry)).isSome →
    h.getDescriptor (h.setDescriptor b (selectorOf entry) d).host (selectorOf entry) = some d
  set_apart : ∀ b entry d other, entry < LDT_ENTRIES → other < LDT_ENTRIES → other ≠ entry →
    h.getDescriptor (h.setDescriptor b (selectorOf entry) d).host (selectorOf other) =
      h.getDescriptor b (selectorOf other)
  allocate_succeeds : ∀ b entry, entry < LDT_ENTRIES → h.getDescriptor b (selectorOf entry) = none →
    (h.allocateSpecific b (selectorOf entry)).1 = false ∧
      (h.getDescriptor (h.allocateSpecific b (selectorOf entry)).2.host (selectorOf entry)).isSome
  allocate_apart : ∀ b entry other, entry < LDT_ENTRIES → other < LDT_ENTRIES → other ≠ entry →
    h.getDescriptor (h.allocateSpecific b (selectorOf entry)).2.host (selectorOf other) =
      h.getDescriptor b (selectorOf other)

/-! ## Arrays and selectors -/

theorem overlay_outside {dst : Nat → Byte} {start a : Nat} {src : List Byte}
    (outside : a < start ∨ start + src.length ≤ a) : overlay dst start src a = dst a := by
  unfold overlay
  split
  · apply List.getD_eq_default
    omega
  · rfl

def Descriptor.patch (d : Descriptor) (offs : Nat) (buffer : List Byte) : Descriptor :=
  fun i => if offs ≤ i then buffer.getD (i - offs) (d i) else d i

theorem shadowOf_lpFrame (d : Descriptor) (behindLp : Nat → Byte) (offs : Nat) (buffer : List Byte) :
    shadowOf (overlay (lpFrame d behindLp) offs buffer) 0 = d.patch offs buffer := by
  funext i
  have within : lpFrame d behindLp i = d i := dif_pos i.isLt
  rw [shadowOf, Nat.zero_mul, Nat.zero_add, overlay, Descriptor.patch, within]

theorem overlay_lpFrame_behind (d : Descriptor) (behindLp : Nat → Byte) {offs : Nat} {buffer : List Byte}
    (fits : offs + buffer.length ≤ 8) :
    (fun i => overlay (lpFrame d behindLp) offs buffer (8 + i)) = behindLp := by
  funext i
  rw [overlay_outside (by omega), lpFrame, dif_neg (by omega), Nat.add_sub_cancel_left]

theorem shadowOf_overlay (dst : Nat → Byte) (entry : Nat) (d : Descriptor) :
    shadowOf (overlay dst (entry * 8) (List.ofFn d)) entry = d := by
  funext i
  have small := i.isLt
  rw [shadowOf, overlay, if_pos (Nat.le_add_right _ _), Nat.add_sub_cancel_left,
    List.getD_eq_getElem?_getD, List.getElem?_ofFn, dif_pos small, Option.getD_some]

theorem shadowOf_overlay_apart {dst : Nat → Byte} {entry other : Nat} {src : List Byte}
    (apart : other ≠ entry) (fits : src.length ≤ 8) :
    shadowOf (overlay dst (entry * 8) src) other = shadowOf dst other := by
  funext i
  have small := i.isLt
  refine overlay_outside ?_
  omega

theorem selectorOf_eq {entry : Nat} : selectorOf entry = BitVec.ofNat 16 (8 * entry + 7) := by
  rw [selectorOf, ← Nat.shiftLeft_add_eq_or_of_lt (by decide), Nat.shiftLeft_eq, Nat.mul_comm]

theorem selectorOf_injective {entry other : Nat} (here : entry < LDT_ENTRIES) (there : other < LDT_ENTRIES)
    (same : selectorOf entry = selectorOf other) : entry = other := by
  rw [selectorOf_eq, selectorOf_eq] at same
  have values := congrArg BitVec.toNat same
  simp only [BitVec.toNat_ofNat, LDT_ENTRIES] at values here there
  omega

/-! ## One write -/

variable {h : LdtHost σ}

/-- While an entry is being written, the host's reports of it change nothing. -/
theorem report_own {s : LdtState σ} {entry : Nat} {reports : List LdtReport}
    (busy : s.entryUpd = entry) (own : ∀ r ∈ reports, r.entry = entry) :
    final (report reports) s = s := by
  induction reports with
  | nil => rfl
  | cons r rest ih =>
    have skipped : final (msdosLdtUpdate r.entry r.bytes) s = s := by
      simp [msdosLdtUpdate, busy, own r]
    have later := ih fun q later => own q (List.mem_cons_of_mem _ later)
    change final (report rest) (final (msdosLdtUpdate r.entry r.bytes) s) = s
    rw [skipped, later]

theorem final_setDescriptor {s : LdtState σ} {entry : Nat} (own : h.ReportsOwn)
    (bound : entry < LDT_ENTRIES) (busy : s.entryUpd = entry) (d : Descriptor) :
    final (setDescriptor h (selectorOf entry) d) s =
      { s with host := (h.setDescriptor s.host (selectorOf entry) d).host } := by
  simp only [setDescriptor, final_bind, final_reads, result_reads, final_updates]
  exact report_own busy (own.set_reports _ _ _ bound)

theorem fetchDescriptor_run {s : LdtState σ} {entry : Nat} (lawful : h.Lawful)
    (bound : entry < LDT_ENTRIES) (busy : s.entryUpd = entry) :
    ∃ host lp, fetchDescriptor h (selectorOf entry) s = (some lp, { s with host := host }) ∧
      h.getDescriptor host (selectorOf entry) = some lp ∧
      (∀ d, h.getDescriptor s.host (selectorOf entry) = some d → lp = d) ∧
      ∀ other < LDT_ENTRIES, other ≠ entry →
        h.getDescriptor host (selectorOf other) = h.getDescriptor s.host (selectorOf other) := by
  cases found : h.getDescriptor s.host (selectorOf entry) with
  | some lp =>
    refine ⟨s.host, lp, ?_, found, ?_, fun _ _ _ => rfl⟩
    · rw [run_eq (fetchDescriptor h (selectorOf entry))]
      simp [fetchDescriptor, found]
    · intro d same
      exact Option.some.inj same
  | none =>
    obtain ⟨succeeds, allocated⟩ := lawful.allocate_succeeds _ _ bound found
    obtain ⟨lp, filled⟩ := Option.isSome_iff_exists.mp allocated
    refine ⟨_, lp, ?_, filled, nofun, fun other there apart => lawful.allocate_apart _ _ _ bound there apart⟩
    have quiet : ∀ host : σ, final (report (h.allocateSpecific s.host (selectorOf entry)).2.reports)
        { s with host := host } = { s with host := host } := fun host =>
      report_own busy (lawful.allocate_reports s.host entry bound)
    rw [run_eq (fetchDescriptor h (selectorOf entry))]
    simp [fetchDescriptor, found, allocateSpecificLdtDescriptor, succeeds, quiet, filled]

theorem final_installDescriptor {s : LdtState σ} {entry : Nat} (lawful : h.Lawful)
    (bound : entry < LDT_ENTRIES) (busy : s.entryUpd = entry)
    (used : (h.getDescriptor s.host (selectorOf entry)).isSome)
    (lp : Descriptor) :
    ∃ host scp, final (installDescriptor h (selectorOf entry) lp) s =
        { s with host := host, scp := scp } ∧
      h.getDescriptor host (selectorOf entry) = some (if lp.codeOrData then lp else .dummy) ∧
      ∀ other < LDT_ENTRIES, other ≠ entry →
        h.getDescriptor host (selectorOf other) = h.getDescriptor s.host (selectorOf other) := by
  unfold installDescriptor
  split
  · refine ⟨_, s.scp, final_setDescriptor lawful.toReportsOwn bound busy lp, lawful.set_stores _ _ _ bound used, ?_⟩
    exact fun other there apart => lawful.set_apart _ _ _ _ bound there apart
  · refine ⟨_, s.scp.freeSegRegs (selectorOf entry), ?_, lawful.set_stores _ _ .dummy bound used, ?_⟩
    · rw [final_bind, final_setDescriptor lawful.toReportsOwn bound busy]
      rfl
    · exact fun other there apart => lawful.set_apart _ _ _ _ bound there apart

structure Wrote (h : LdtHost σ) (s t : LdtState σ) (b : Nat → Byte) (entry : Nat)
    (new : Descriptor) : Prop where
  idle : t.entryUpd = -1
  backbuf : t.backbuf = some (overlay b (entry * 8) (List.ofFn new))
  real : h.getDescriptor t.host (selectorOf entry) = some (if new.codeOrData then new else .dummy)
  apart : ∀ other < LDT_ENTRIES, other ≠ entry →
    h.getDescriptor t.host (selectorOf other) = h.getDescriptor s.host (selectorOf other)

/-- What the entry held, to the code: the real descriptor if it is present, else the shadow. -/
def LdtState.held (s : LdtState σ) (entry : Nat) (lp : Descriptor) : Descriptor :=
  s.backbuf.elim lp fun b => if lp.present then lp else shadowOf b entry

def LdtState.copied (s : LdtState σ) (entry offs : Nat) (buffer : List Byte) (lp : Descriptor) :
    LdtState σ :=
  { s with behindLp := fun i => overlay (lpFrame (s.held entry lp) s.behindLp) offs buffer (8 + i) }

def LdtState.shadowing (s : LdtState σ) (entry : Nat) (d : Descriptor) : LdtState σ :=
  { s with backbuf := s.backbuf.map fun b => overlay b (entry * 8) (List.ofFn d) }

theorem final_mergeDescriptor (entry offs : Nat) (buffer : List Byte) (lp : Descriptor) (s : LdtState σ) :
    final (mergeDescriptor h entry offs buffer lp) s =
      (final (installDescriptor h (selectorOf entry) ((s.held entry lp).patch offs buffer))
        (s.copied entry offs buffer lp)).shadowing entry ((s.held entry lp).patch offs buffer) := by
  simp only [mergeDescriptor, final_bind, final_reads, result_reads, final_updates, shadowOf_lpFrame]
  rfl

theorem mergeDescriptor_wrote {s : LdtState σ} {b : Nat → Byte} {entry offs : Nat}
    {buffer : List Byte} {lp : Descriptor} (lawful : h.Lawful) (bound : entry < LDT_ENTRIES)
    (busy : s.entryUpd = entry) (ready : s.backbuf = some b)
    (real : h.getDescriptor s.host (selectorOf entry) = some lp) :
    Wrote h s { final (mergeDescriptor h entry offs buffer lp) s with entryUpd := -1 } b entry
      ((if lp.present then lp else shadowOf b entry).patch offs buffer) := by
  have held : s.held entry lp = if lp.present then lp else shadowOf b entry := by
    rw [LdtState.held, ready, Option.elim_some]
  have used : (h.getDescriptor (s.copied entry offs buffer lp).host (selectorOf entry)).isSome :=
    Option.isSome_of_eq_some real
  obtain ⟨host, scp, installed, stored, apart⟩ :=
    final_installDescriptor (s := s.copied entry offs buffer lp) lawful bound busy used
      ((s.held entry lp).patch offs buffer)
  rw [final_mergeDescriptor, installed, ← held]
  exact ⟨rfl, congrArg (Option.map _) ready, stored, apart⟩

/-- A direct write patches the real descriptor if that is present, else the shadow. -/
theorem directLdtWrite_wrote {s : LdtState σ} {b : Nat → Byte} (lawful : h.Lawful)
    (ready : s.backbuf = some b) (offset : Nat) (buffer : List Byte)
    (bound : offset / 8 < LDT_ENTRIES) :
    ∃ lp : Descriptor,
      (∀ d, h.getDescriptor s.host (selectorOf (offset / 8)) = some d → lp = d) ∧
      Wrote h s (final (directLdtWrite h offset buffer) s) b (offset / 8)
        ((if lp.present then lp else shadowOf b (offset / 8)).patch (offset % 8) buffer) := by
  generalize entry_eq : offset / 8 = entry at bound ⊢
  obtain ⟨host, lp, fetched, real, same, apart⟩ :=
    fetchDescriptor_run (s := { s with entryUpd := entry }) lawful bound rfl
  refine ⟨lp, same, ?_⟩
  have wrote : Wrote h _ _ b entry (Descriptor.patch _ (offset % 8) buffer) :=
    mergeDescriptor_wrote (s := ⟨host, s.backbuf, entry, s.scp, s.behindLp⟩) lawful bound rfl ready real
  have after : final (directLdtWrite h offset buffer) s =
      { final (mergeDescriptor h entry (offset % 8) buffer lp) ⟨host, s.backbuf, entry, s.scp, s.behindLp⟩
        with entryUpd := -1 } := by
    have stored : final (fetchDescriptor h (selectorOf entry)) { s with entryUpd := entry } =
      ⟨host, s.backbuf, entry, s.scp, s.behindLp⟩ := congrArg Prod.snd fetched
    have answered : result (fetchDescriptor h (selectorOf entry)) { s with entryUpd := entry } =
      some lp := congrArg Prod.fst fetched
    have some : s.backbuf.isSome = true := by rw [ready]; rfl
    simp only [directLdtWrite, final_bind, final_reads, result_reads, final_onlyIf, some, if_true,
      final_updates, entry_eq, stored, answered]
    rfl
  rw [after]
  exact ⟨wrote.idle, wrote.backbuf, wrote.real, fun other there differs =>
    (wrote.apart other there differs).trans (apart other there differs)⟩

/-! ## Runs -/

structure ClientWrite where
  offs : Nat
  buffer : List Byte

def ClientWrite.Inside (w : ClientWrite) : Prop :=
  (w.buffer.length = 1 ∨ w.buffer.length = 2 ∨ w.buffer.length = 4) ∧ w.offs + w.buffer.length ≤ 8

/-- Direct writes to any entry, and updates by the host of entries other than `entry`. The list holds
the writes to `entry`, the last one first. -/
inductive LdtRun (h : LdtHost σ) (entry : Nat) (s : LdtState σ) : List ClientWrite → LdtState σ → Prop where
  | nil : LdtRun h entry s [] s
  | write {ws : List ClientWrite} {t : LdtState σ} (w : ClientWrite) (before : LdtRun h entry s ws t)
      (inside : w.Inside) :
      LdtRun h entry s (w :: ws) (final (directLdtWrite h (entry * 8 + w.offs) w.buffer) t)
  | writeOther {ws : List ClientWrite} {t : LdtState σ} (w : ClientWrite) (other : Nat)
      (before : LdtRun h entry s ws t) (inside : w.Inside) (bound : other < LDT_ENTRIES)
      (apart : other ≠ entry) :
      LdtRun h entry s ws (final (directLdtWrite h (other * 8 + w.offs) w.buffer) t)
  | update {ws : List ClientWrite} {t : LdtState σ} (host : σ) (other : Nat) (d : Descriptor)
      (before : LdtRun h entry s ws t) (apart : other ≠ entry)
      (kept : h.getDescriptor host (selectorOf entry) = h.getDescriptor t.host (selectorOf entry)) :
      LdtRun h entry s ws (final (msdosLdtUpdate other (List.ofFn d)) { t with host := host })

def LdtState.shadow (s : LdtState σ) (entry : Nat) : Option Descriptor :=
  s.backbuf.map fun b => shadowOf b entry

/-- Shadow and real descriptor of an entry belong together. -/
def Coherent (h : LdtHost σ) (entry : Nat) (s : LdtState σ) : Prop :=
  ∃ shadow real, s.shadow entry = some shadow ∧
    h.getDescriptor s.host (selectorOf entry) = some real ∧
    if shadow.codeOrData then real = shadow else real.present = false

def lastWritten : List ClientWrite → Fin 8 → Option Byte
  | [], _ => none
  | w :: ws, i =>
    if w.offs ≤ i ∧ i < w.offs + w.buffer.length then w.buffer[i - w.offs]? else lastWritten ws i

/-! ### One step -/

theorem Wrote.shadow {s t : LdtState σ} {b : Nat → Byte} {entry : Nat} {new : Descriptor}
    (wrote : Wrote h s t b entry new) : t.shadow entry = some new := by
  rw [LdtState.shadow, wrote.backbuf, Option.map_some, shadowOf_overlay]

theorem Wrote.coherent {s t : LdtState σ} {b : Nat → Byte} {entry : Nat} {new : Descriptor}
    (wrote : Wrote h s t b entry new) : Coherent h entry t := by
  refine ⟨new, _, wrote.shadow, wrote.real, ?_⟩
  split
  · rfl
  · rfl

theorem ClientWrite.Inside.position {w : ClientWrite} (inside : w.Inside) (entry : Nat) :
    (entry * 8 + w.offs) / 8 = entry ∧ (entry * 8 + w.offs) % 8 = w.offs := by
  have fits := inside.2
  have nonempty : 0 < w.buffer.length := by rcases inside.1 with one | two | four <;> omega
  omega

theorem wrote_entry {s : LdtState σ} {b : Nat → Byte} {w : ClientWrite} (lawful : h.Lawful)
    (ready : s.backbuf = some b) (inside : w.Inside) {entry : Nat}
    (bound : entry < LDT_ENTRIES) :
    ∃ lp : Descriptor, (∀ d, h.getDescriptor s.host (selectorOf entry) = some d → lp = d) ∧
      Wrote h s (final (directLdtWrite h (entry * 8 + w.offs) w.buffer) s) b entry
        ((if lp.present then lp else shadowOf b entry).patch w.offs w.buffer) := by
  obtain ⟨quotient, remainder⟩ := inside.position entry
  have wrote := directLdtWrite_wrote lawful ready (entry * 8 + w.offs) w.buffer (by omega)
  rw [quotient, remainder] at wrote
  exact wrote

theorem Coherent.write {s : LdtState σ} {entry : Nat} (coherent : Coherent h entry s)
    (lawful : h.Lawful) (bound : entry < LDT_ENTRIES) {w : ClientWrite} (inside : w.Inside) :
    (final (directLdtWrite h (entry * 8 + w.offs) w.buffer) s).shadow entry =
      (s.shadow entry).map fun d => d.patch w.offs w.buffer := by
  obtain ⟨shadow, real, shadowed, stored, related⟩ := coherent
  obtain ⟨b, ready, rfl⟩ := Option.map_eq_some_iff.mp shadowed
  obtain ⟨lp, same, wrote⟩ := wrote_entry lawful ready inside bound
  have source : (if lp.present then lp else shadowOf b entry) = shadowOf b entry := by
    rw [same real stored]
    split at related
    · rw [related, ite_self]
    · rw [related]
      rfl
  rw [wrote.shadow, shadowed, source, Option.map_some]

theorem Wrote.keeps {s t : LdtState σ} {b : Nat → Byte} {entry other : Nat} {new : Descriptor}
    (wrote : Wrote h s t b other new) (ready : s.backbuf = some b) (here : entry < LDT_ENTRIES)
    (apart : other ≠ entry) :
    t.shadow entry = s.shadow entry ∧
      h.getDescriptor t.host (selectorOf entry) = h.getDescriptor s.host (selectorOf entry) := by
  constructor
  · rw [LdtState.shadow, LdtState.shadow, wrote.backbuf, ready, Option.map_some, Option.map_some,
      shadowOf_overlay_apart (Ne.symm apart) (by simp)]
  · exact wrote.apart _ here (Ne.symm apart)

theorem msdosLdtUpdate_keeps (s : LdtState σ) {entry other : Nat} (d : Descriptor)
    (apart : other ≠ entry) :
    (final (msdosLdtUpdate other (List.ofFn d)) s).shadow entry = s.shadow entry ∧
      (final (msdosLdtUpdate other (List.ofFn d)) s).host = s.host := by
  simp only [msdosLdtUpdate, final_updates]
  split
  · refine ⟨?_, rfl⟩
    simp only [LdtState.shadow, Option.map_map]
    congr 1
    funext b
    exact shadowOf_overlay_apart (Ne.symm apart) (by simp)
  · exact ⟨rfl, rfl⟩

theorem Coherent.transfer {s t : LdtState σ} {entry : Nat} (coherent : Coherent h entry s)
    (shadow : t.shadow entry = s.shadow entry)
    (real : h.getDescriptor t.host (selectorOf entry) = h.getDescriptor s.host (selectorOf entry)) :
    Coherent h entry t := by
  rw [Coherent, shadow, real]
  exact coherent

/-! ### The whole run -/

theorem Descriptor.patch_inside {d : Descriptor} {w : ClientWrite} {i : Fin 8} {v : Byte}
    (covered : w.offs ≤ i) (byte : w.buffer[i - w.offs]? = some v) :
    d.patch w.offs w.buffer i = v := by
  rw [Descriptor.patch, if_pos covered, List.getD_eq_getElem?_getD, byte, Option.getD_some]

theorem Descriptor.patch_outside {d : Descriptor} {w : ClientWrite} {i : Fin 8}
    (missed : ¬(w.offs ≤ i ∧ i < w.offs + w.buffer.length)) :
    d.patch w.offs w.buffer i = d i := by
  unfold Descriptor.patch
  split
  next above =>
    have past : w.buffer.length ≤ i - w.offs := by omega
    exact List.getD_eq_default _ _ past
  next => rfl

structure Shadowed (h : LdtHost σ) (entry : Nat) (ws : List ClientWrite) (t : LdtState σ) : Prop where
  ready : ∃ b, t.backbuf = some b
  coherent : ws ≠ [] → Coherent h entry t
  written : ∀ i v, lastWritten ws i = some v → ∀ d, t.shadow entry = some d → d i = v

namespace Shadowed

theorem write {entry : Nat} {ws : List ClientWrite} {t : LdtState σ} (inv : Shadowed h entry ws t)
    (lawful : h.Lawful) (bound : entry < LDT_ENTRIES) (w : ClientWrite) (inside : w.Inside) :
    Shadowed h entry (w :: ws) (final (directLdtWrite h (entry * 8 + w.offs) w.buffer) t) := by
  obtain ⟨b, ready⟩ := inv.ready
  obtain ⟨lp, same, wrote⟩ := wrote_entry lawful ready inside bound
  refine ⟨⟨_, wrote.backbuf⟩, fun _ => wrote.coherent, ?_⟩
  intro i v last d shadow
  rw [lastWritten] at last
  split at last
  next covered =>
    rw [wrote.shadow] at shadow
    rw [← Option.some.inj shadow]
    exact Descriptor.patch_inside covered.1 last
  next missed =>
    have begun : ws ≠ [] := by
      rintro rfl
      cases last
    rw [(inv.coherent begun).write lawful bound inside] at shadow
    obtain ⟨old, before, rfl⟩ := Option.map_eq_some_iff.mp shadow
    rw [Descriptor.patch_outside missed]
    exact inv.written i v last old before

theorem transfer {entry : Nat} {ws : List ClientWrite} {s t : LdtState σ}
    (inv : Shadowed h entry ws s) (ready : ∃ b, t.backbuf = some b)
    (shadow : t.shadow entry = s.shadow entry)
    (real : h.getDescriptor t.host (selectorOf entry) = h.getDescriptor s.host (selectorOf entry)) :
    Shadowed h entry ws t := by
  refine ⟨ready, fun begun => (inv.coherent begun).transfer shadow real, ?_⟩
  intro i v last d after
  exact inv.written i v last d (shadow ▸ after)

theorem of_run {entry : Nat} {ws : List ClientWrite} {s t : LdtState σ} (lawful : h.Lawful)
    (here : entry < LDT_ENTRIES) (ready : ∃ b, s.backbuf = some b) (run : LdtRun h entry s ws t) :
    Shadowed h entry ws t := by
  induction run with
  | nil => exact ⟨ready, fun begun => absurd rfl begun, nofun⟩
  | write w before inside ih => exact ih.write lawful here w inside
  | writeOther w other before inside there apart ih =>
    obtain ⟨b, ready⟩ := ih.ready
    obtain ⟨lp, same, wrote⟩ := wrote_entry lawful ready inside there
    obtain ⟨shadow, real⟩ := wrote.keeps ready here apart
    exact ih.transfer ⟨_, wrote.backbuf⟩ shadow real
  | @update _ u host other d before apart kept ih =>
    obtain ⟨b, ready⟩ := ih.ready
    obtain ⟨shadow, same⟩ := msdosLdtUpdate_keeps { u with host := host } d apart
    refine ih.transfer ?_ shadow (by rw [same, kept])
    simp only [msdosLdtUpdate, final_updates]
    split
    · exact ⟨_, congrArg (Option.map _) ready⟩
    · exact ⟨b, ready⟩

end Shadowed

/-- What holds of an entry once a client has written to it. -/
structure ShadowLaw (h : LdtHost σ) (entry : Nat) (ws : List ClientWrite) (t : LdtState σ) : Prop where
  coherent : Coherent h entry t
  patched : ∀ w : ClientWrite, w.Inside →
    (final (directLdtWrite h (entry * 8 + w.offs) w.buffer) t).shadow entry =
      (t.shadow entry).map fun d => d.patch w.offs w.buffer
  complete : ∀ d : Descriptor, (∀ i, lastWritten ws i = some (d i)) →
    t.shadow entry = some d ∧
      (d.codeOrData = true → h.getDescriptor t.host (selectorOf entry) = some d)

/-- From the first direct write on the shadow holds the client's bytes and the real LDT follows it. -/
theorem ldt_shadow_coherence {entry : Nat} {ws : List ClientWrite} {s t : LdtState σ}
    (lawful : h.Lawful) (bound : entry < LDT_ENTRIES) (ready : ∃ b, s.backbuf = some b)
    (run : LdtRun h entry s ws t) (begun : ws ≠ []) : ShadowLaw h entry ws t := by
  have inv := Shadowed.of_run lawful bound ready run
  have coherent := inv.coherent begun
  refine ⟨coherent, fun w inside => coherent.write lawful bound inside, ?_⟩
  intro d all
  obtain ⟨shadow, real, shadowed, stored, related⟩ := coherent
  have same : shadow = d := funext fun i => inv.written i (d i) (all i) shadow shadowed
  subst same
  refine ⟨shadowed, fun used => ?_⟩
  rw [if_pos used] at related
  rw [stored, related]

def tableHost : LdtHost (Word → Option Descriptor) where
  getDescriptor table sel := table sel
  setDescriptor table sel d :=
    ⟨Function.update table sel (some d), [⟨sel.toNat / 8, List.ofFn d⟩]⟩
  allocateSpecific table sel :=
    (false, ⟨Function.update table sel (some fun _ => 0xff),
      [⟨sel.toNat / 8, List.ofFn fun _ : Fin 8 => 0xff⟩]⟩)

theorem selectorOf_entry {entry : Nat} (bound : entry < LDT_ENTRIES) :
    (selectorOf entry).toNat / 8 = entry := by
  rw [selectorOf_eq, BitVec.toNat_ofNat]
  simp only [LDT_ENTRIES] at bound
  omega

theorem tableHost_lawful : tableHost.Lawful where
  set_stores table entry d _ _ := Function.update_self ..
  set_apart table entry d other here there apart :=
    Function.update_of_ne (fun same => apart (selectorOf_injective there here same)) ..
  set_reports table entry d bound r reported := by
    rw [List.mem_singleton.mp reported]
    exact selectorOf_entry bound
  allocate_succeeds table entry _ _ := ⟨rfl, by simp [tableHost]⟩
  allocate_apart table entry other here there apart :=
    Function.update_of_ne (fun same => apart (selectorOf_injective there here same)) ..
  allocate_reports table entry bound r reported := by
    rw [List.mem_singleton.mp reported]
    exact selectorOf_entry bound

def ldtStart : LdtState (Word → Option Descriptor) :=
  ⟨fun _ => none, some fun _ => 0, -1, ⟨fun _ => 0, 0, 0, 0, 0, 0, 0, 0, 0, 0, 0⟩, fun _ => 0⟩

theorem ldt_shadow_coherence_two_halves :
    ShadowLaw tableHost 5 [⟨0, [0x34, 0x12, 0, 0]⟩, ⟨4, [0, 0xf2, 0, 0]⟩]
      (final (directLdtWrite tableHost 40 [0x34, 0x12, 0, 0])
        (final (directLdtWrite tableHost 44 [0, 0xf2, 0, 0]) ldtStart)) := by
  refine ldt_shadow_coherence (s := ldtStart) tableHost_lawful (by decide) ⟨_, rfl⟩ ?_ (by simp)
  have upper : LdtRun tableHost 5 ldtStart [⟨4, [0, 0xf2, 0, 0]⟩] _ :=
    .write ⟨4, [0, 0xf2, 0, 0]⟩ .nil ⟨.inr (.inr rfl), by decide⟩
  exact upper.write ⟨0, [0x34, 0x12, 0, 0]⟩ ⟨.inr (.inr rfl), by decide⟩

end Pmdapi
