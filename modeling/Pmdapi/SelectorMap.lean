import Pmdapi.Library.Memo
import Pmdapi.ResourceSteps
import Pmdapi.BumpHost

/-! The map from segments to selectors over a client's life: a table that remembers its answers. -/

namespace Pmdapi
open Bytes Effect Slots Memo

variable {σ : Type} (h : DpmiHost σ)

/-! ## One conversion -/

def newDescriptor (b : σ) : Dword × σ := h.perform (.allocateLdtDescriptors 1) b

def describedHost (base limit : Dword) (b : σ) : σ :=
  let sel := loWord (newDescriptor h b).1
  let based := (h.perform (.setSegmentBaseAddress sel base) (newDescriptor h b).2).2
  let limited := (h.perform (.setSegmentLimit sel limit) based).2
  (h.perform (.setDescriptorAccessRights sel 0xf2) limited).2

def conversionEvents (segment : Word) (limit : Dword) (reply : Dword) : List Event :=
  [.dpmi (.allocateLdtDescriptors 1) reply,
    .dpmi (.setSegmentBaseAddress (loWord reply) (zext segment <<< 4)) (),
    .dpmi (.setSegmentLimit (loWord reply) limit) (),
    .dpmi (.setDescriptorAccessRights (loWord reply) 0xf2) ()]

section Conversion

variable {h} {segment : Word} {limit : Dword} {s : State σ} {i : Fin MAX_CNVS}

theorem convertLim_full (slot : segSelSlot s.client.segSelMap segment limit = none) :
    convertSegmentToDescriptorLim h segment limit s = (0, s) := by
  rw [run_eq (convertSegmentToDescriptorLim h segment limit), convertSegmentToDescriptorLim, final_reads_bind,
    result_bind, result_reads, final_reads, slot]
  rfl

theorem convertLim_known (slot : segSelSlot s.client.segSelMap segment limit = some i)
    (used : (s.client.segSelMap i).sel ≠ 0) :
    convertSegmentToDescriptorLim h segment limit s = ((s.client.segSelMap i).sel, s) := by
  rw [run_eq (convertSegmentToDescriptorLim h segment limit), convertSegmentToDescriptorLim, final_reads_bind,
    result_bind, result_reads, final_reads, slot]
  dsimp only
  rw [if_pos used]
  rfl

theorem convertLim_zero (slot : segSelSlot s.client.segSelMap segment limit = some i)
    (free : (s.client.segSelMap i).sel = 0) (zero : loWord (newDescriptor h s.host).1 = 0) :
    convertSegmentToDescriptorLim h segment limit s = (0, final (allocateDescriptors h 1) s) := by
  have none : result (allocateDescriptors h 1) s = 0 := zero
  rw [run_eq (convertSegmentToDescriptorLim h segment limit), convertSegmentToDescriptorLim, final_reads_bind,
    result_bind, result_reads, final_reads, slot]
  dsimp only
  rw [if_neg (not_not.mpr free), final_bind, result_bind, if_pos none]
  rfl

structure Entered (segment : Word) (limit : Dword) (i : Fin MAX_CNVS) (s t : State σ) : Prop where
  client : t.client = { s.client with
    segSelMap := Function.update s.client.segSelMap i ⟨segment, loWord (newDescriptor h s.host).1, limit⟩ }
  host : t.host = describedHost h (zext segment <<< 4) limit s.host
  events : t.trace = s.trace ++ conversionEvents segment limit (newDescriptor h s.host).1

theorem convertLim_new (slot : segSelSlot s.client.segSelMap segment limit = some i)
    (free : (s.client.segSelMap i).sel = 0) (given : loWord (newDescriptor h s.host).1 ≠ 0) :
    result (convertSegmentToDescriptorLim h segment limit) s = loWord (newDescriptor h s.host).1 ∧
      Entered (h := h) segment limit i s (final (convertSegmentToDescriptorLim h segment limit) s) := by
  have new : result (allocateDescriptors h 1) s ≠ 0 := given
  rw [convertSegmentToDescriptorLim, final_reads_bind, result_bind, result_reads, final_reads, slot]
  dsimp only
  rw [if_neg (not_not.mpr free), final_bind, result_bind, if_neg new]
  let sel := loWord (newDescriptor h s.host).1
  let described : State σ := { s with
    host := describedHost h (zext segment <<< 4) limit s.host
    trace := s.trace ++ [.dpmi (.allocateLdtDescriptors 1) (newDescriptor h s.host).1] ++
      [.dpmi (.setSegmentBaseAddress sel (zext segment <<< 4)) ()] ++
      [.dpmi (.setSegmentLimit sel limit) ()] ++ [.dpmi (.setDescriptorAccessRights sel 0xf2) ()] }
  let fill (c : MsdosStruct) : MsdosStruct :=
    { c with segSelMap := Function.update c.segSelMap i ⟨segment, sel, limit⟩ }
  refine ⟨rfl, ⟨State.client_withClient fill described, rfl, ?_⟩⟩
  show described.trace = s.trace ++ conversionEvents segment limit (newDescriptor h s.host).1
  simp only [described, List.append_assoc]
  rfl

theorem events_zero (slot : segSelSlot s.client.segSelMap segment limit = some i)
    (free : (s.client.segSelMap i).sel = 0) (zero : loWord (newDescriptor h s.host).1 = 0) :
    eventsOf (convertSegmentToDescriptorLim h segment limit) s =
      [.dpmi (.allocateLdtDescriptors 1) (newDescriptor h s.host).1] := by
  have trace : (final (allocateDescriptors h 1) s).trace =
      s.trace ++ [.dpmi (.allocateLdtDescriptors 1) (newDescriptor h s.host).1] := rfl
  rw [eventsOf, final, convertLim_zero slot free zero, trace, List.drop_left]

theorem events_new (slot : segSelSlot s.client.segSelMap segment limit = some i)
    (free : (s.client.segSelMap i).sel = 0) (given : loWord (newDescriptor h s.host).1 ≠ 0) :
    eventsOf (convertSegmentToDescriptorLim h segment limit) s =
      conversionEvents segment limit (newDescriptor h s.host).1 := by
  rw [eventsOf, (convertLim_new slot free given).2.events, List.drop_left]

theorem events_quiet (same : final (convertSegmentToDescriptorLim h segment limit) s = s) :
    eventsOf (convertSegmentToDescriptorLim h segment limit) s = [] := by
  rw [eventsOf, same, List.drop_length]

end Conversion

/-! ## Runs -/

abbrev Conversion := Word × Dword

def convert (p : Conversion) : M σ Word := convertSegmentToDescriptorLim h p.1 p.2

/-- The state after the conversions, latest first. -/
def converted (s : State σ) : List Conversion → State σ
  | [] => s
  | p :: past => final (convert h p) (converted s past)

def answers (s : State σ) : List Conversion → List (Conversion × Word)
  | [] => []
  | p :: past => (p, result (convert h p) (converted h s past)) :: answers s past

def convertedPairs (s : State σ) (past : List Conversion) : List Conversion :=
  (((answers h s past).filter fun c => c.2 ≠ 0).map Prod.fst).dedup

/-- A new selector: not 0, and none that the client has already. -/
def IsFresh (s : State σ) (reply : Dword) : Prop :=
  reply ≠ -1 ∧ loWord reply ≠ 0 ∧ loWord reply ≠ s.client.ldtAliasWinos2 ∧
    ∀ i, (s.client.segSelMap i).sel ≠ loWord reply

instance (s : State σ) (reply : Dword) : Decidable (IsFresh s reply) :=
  inferInstanceAs (Decidable (reply ≠ -1 ∧ loWord reply ≠ 0 ∧ loWord reply ≠ s.client.ldtAliasWinos2 ∧
    ∀ i, (s.client.segSelMap i).sel ≠ loWord reply))

def FreshSelectors (s : State σ) (calls : List Conversion) : Prop :=
  ∀ p past reply, p :: past <:+ calls →
    Event.dpmi (.allocateLdtDescriptors 1) reply ∈ eventsOf (convert h p) (converted h s past) →
    IsFresh (converted h s past) reply

/-- A new descriptor is as it was set, and the others stay as they are. Which limits can be set is up to
the host. -/
structure SetsDescriptors (settable : Dword → Prop) : Prop where
  own : ∀ base limit b, (newDescriptor h b).1 ≠ -1 →
    h.getSegmentBaseAddress (describedHost h base limit b) (loWord (newDescriptor h b).1) = base ∧
      (settable limit →
        h.getSegmentLimit (describedHost h base limit b) (loWord (newDescriptor h b).1) = limit)
  others : ∀ base limit b sel, sel ≠ loWord (newDescriptor h b).1 →
    h.getSegmentBaseAddress (describedHost h base limit b) sel = h.getSegmentBaseAddress b sel ∧
      h.getSegmentLimit (describedHost h base limit b) sel = h.getSegmentLimit b sel

/-! ## The map as a table -/

def SegSel.entry (m : SegSel) : Option (Conversion × Word) :=
  if m.sel = 0 then none else some ((m.seg, m.lim), m.sel)

def asAnswer (sel : Word) : Option Word := if sel = 0 then none else some sel

theorem SegSel.entry_eq_some {m : SegSel} {p : Conversion} {sel : Word} :
    m.entry = some (p, sel) ↔ m.sel ≠ 0 ∧ m = ⟨p.1, sel, p.2⟩ := by
  cases m with
  | mk seg own lim =>
    simp only [entry, Option.ite_none_left_eq_some, Option.some.injEq, Prod.ext_iff, SegSel.mk.injEq]
    constructor
    · rintro ⟨used, ⟨same, lim⟩, sel⟩
      exact ⟨used, same, sel, lim⟩
    · rintro ⟨used, same, sel, lim⟩
      exact ⟨used, ⟨same, lim⟩, sel⟩

theorem SegSel.entry_of_used {m : SegSel} (used : m.sel ≠ 0) :
    m.entry = some ((m.seg, m.lim), m.sel) :=
  if_neg used

theorem segSelSlot_search (segment : Word) (limit : Dword) (m : SegSel) :
    (m.sel = 0 || m.seg = segment && m.lim = limit : Bool) = true ↔
      ∀ l w, m.entry = some (l, w) → l = (segment, limit) := by
  by_cases free : m.sel = 0
  · simp [free, SegSel.entry]
  · simp only [free, SegSel.entry, decide_false, Bool.false_or, if_false]
    simp

structure MapState (settable : Dword → Prop) (t : Table Conversion Word) (s : State σ) : Prop where
  holds : Memo.Holds SegSel.entry s.client.segSelMap t
  base : ∀ p sel, (p, sel) ∈ t → getSegmentBase h s sel = zext p.1 <<< 4
  limit : ∀ p sel, (p, sel) ∈ t → settable p.2 → getSegmentLimit h s sel = p.2
  winos2 : s.client.ldtAliasWinos2 ∉ values t

section Step

variable {h} {settable : Dword → Prop} {t : Table Conversion Word} {s : State σ} {p : Conversion}

theorem MapState.enter (host : SetsDescriptors h settable) (state : MapState h settable t s)
    (room : t.length < MAX_CNVS) {u : State σ} (entered : Entered (h := h) p.1 p.2 ⟨t.length, room⟩ s u)
    (granted : (newDescriptor h s.host).1 ≠ -1) (given : loWord (newDescriptor h s.host).1 ≠ 0)
    (winos2 : loWord (newDescriptor h s.host).1 ≠ s.client.ldtAliasWinos2)
    (absent : loWord (newDescriptor h s.host).1 ∉ values t) :
    MapState h settable (t ++ [(p, loWord (newDescriptor h s.host).1)]) u := by
  have others (q : Conversion) (sel : Word) (listed : (q, sel) ∈ t) :
      sel ≠ loWord (newDescriptor h s.host).1 := by
    rintro rfl
    exact absent (List.mem_map_of_mem listed)
  have new := host.own (zext p.1 <<< 4) p.2 s.host granted
  constructor
  · rw [entered.client]
    exact state.holds.enter room (SegSel.entry_eq_some.mpr ⟨given, rfl⟩)
  · intro q sel listed
    rw [getSegmentBase, entered.host]
    rcases List.mem_append.mp listed with before | last
    · rw [(host.others _ _ _ sel (others q sel before)).1]
      exact state.base q sel before
    · obtain ⟨rfl, rfl⟩ := Prod.mk.inj (List.mem_singleton.mp last)
      exact new.1
  · intro q sel listed fits
    rw [getSegmentLimit, entered.host]
    rcases List.mem_append.mp listed with before | last
    · rw [(host.others _ _ _ sel (others q sel before)).2]
      exact state.limit q sel before fits
    · obtain ⟨rfl, rfl⟩ := Prod.mk.inj (List.mem_singleton.mp last)
      exact new.2 fits
  · rw [entered.client, values, List.map_append, List.mem_append, not_or]
    exact ⟨state.winos2, fun last => winos2 (List.mem_singleton.mp last).symm⟩

theorem convert_asks (host : SetsDescriptors h settable) (state : MapState h settable t s)
    (distinct : Distinct t)
    (fresh : ∀ reply, Event.dpmi (.allocateLdtDescriptors 1) reply ∈ eventsOf (convert h p) s →
      IsFresh s reply) :
    ∃ t', Asks MAX_CNVS t p (asAnswer (result (convert h p) s)) t' ∧
      MapState h settable t' (final (convert h p) s) ∧
      (asAnswer (result (convert h p) s) = none → final (convert h p) s = s) := by
  have search := segSelSlot_search p.1 p.2
  by_cases listed : p ∈ keys t
  · obtain ⟨⟨q, sel⟩, found, same⟩ := List.mem_map.mp listed
    rw [show q = p from same] at found
    obtain ⟨i, slot, here⟩ := state.holds.find_known distinct search found
    obtain ⟨used, entry⟩ := SegSel.entry_eq_some.mp here
    have known : convert h p s = ((s.client.segSelMap i).sel, s) := convertLim_known (h := h) slot used
    have answer : asAnswer (result (convert h p) s) = some sel := by
      rw [result, known]
      exact (if_neg used).trans (congrArg (fun m => some m.sel) entry)
    have kept : final (convert h p) s = s := by rw [final, known]
    rw [answer, kept]
    exact ⟨t, .known found, state, fun _ => rfl⟩
  · rcases Nat.lt_or_eq_of_le state.holds.fits with room | full
    · have slot := state.holds.find_free search listed room
      have free : (s.client.segSelMap ⟨t.length, room⟩).sel = 0 := by
        have none := state.holds.slot ⟨t.length, room⟩
        rw [List.getElem?_length] at none
        by_contra used
        rw [SegSel.entry, if_neg used] at none
        cases none
      have allocates : Event.dpmi (.allocateLdtDescriptors 1) (newDescriptor h s.host).1 ∈
          eventsOf (convert h p) s := by
        by_cases zero : loWord (newDescriptor h s.host).1 = 0
        · rw [convert, events_zero slot free zero]
          exact List.mem_cons_self
        · rw [convert, events_new slot free zero]
          exact List.mem_cons_self
      obtain ⟨granted, given, winos2, new⟩ := fresh _ allocates
      obtain ⟨answer, entered⟩ := convertLim_new (h := h) slot free given
      change result (convert h p) s = _ at answer
      have some : asAnswer (result (convert h p) s) = some (loWord (newDescriptor h s.host).1) := by
        rw [answer]
        exact if_neg given
      have absent : loWord (newDescriptor h s.host).1 ∉ values t := by
        intro used
        obtain ⟨⟨q, sel⟩, used, same⟩ := List.mem_map.mp used
        obtain ⟨i, here⟩ := state.holds.mem_iff.mp used
        exact new i ((congrArg SegSel.sel (SegSel.entry_eq_some.mp here).2).trans same)
      refine ⟨t ++ [(p, loWord (newDescriptor h s.host).1)], ?_, ?_, ?_⟩
      · rw [some]
        exact .entered listed absent room
      · exact state.enter host room entered granted given winos2 absent
      · rw [some]
        intro refused
        cases refused
    · have slot := state.holds.find_none search listed full
      have refused : convert h p s = (0, s) := convertLim_full (h := h) slot
      have answer : asAnswer (result (convert h p) s) = none := by
        rw [result, refused]
        rfl
      have same : final (convert h p) s = s := by rw [final, refused]
      rw [answer, same]
      exact ⟨t, .refused listed full, state, fun _ => rfl⟩

def asked (h : DpmiHost σ) (s : State σ) (calls : List Conversion) : List (Conversion × Option Word) :=
  (answers h s calls).map fun c => (c.1, asAnswer c.2)

theorem converted_run (host : SetsDescriptors h settable) (empty : ∀ i, (s.client.segSelMap i).sel = 0)
    {calls : List Conversion} (fresh : FreshSelectors h s calls) :
    ∃ t, Memo.Run MAX_CNVS (asked h s calls) t ∧ MapState h settable t (converted h s calls) := by
  induction calls with
  | nil =>
    refine ⟨[], .start, ⟨Nat.zero_le _, fun i => ?_⟩, fun _ _ => ?_, fun _ _ => ?_, List.not_mem_nil⟩
    · exact if_pos (empty i)
    · exact fun listed => absurd listed List.not_mem_nil
    · exact fun listed => absurd listed List.not_mem_nil
  | cons p past ih =>
    obtain ⟨t, run, state⟩ := ih fun q before reply made =>
      fresh q before reply (made.trans (List.suffix_cons p past))
    obtain ⟨t', step, state', -⟩ := convert_asks host state run.distinct fun reply =>
      fresh p past reply List.suffix_rfl
    exact ⟨t', .ask run step, state'⟩

end Step

/-! ## The end of a client -/

def Event.freed : Event → Option Word
  | .dpmi (.freeLdtDescriptor sel) _ => some sel
  | _ => none

def sweptSlots (map : Fin MAX_CNVS → SegSel) (slots : List (Fin MAX_CNVS)) : List (Fin MAX_CNVS) :=
  slots.takeWhile fun i => (map i).inUse

structure Swept (slots : List (Fin MAX_CNVS)) (s t : State σ) : Prop where
  events : t.trace = s.trace ++ (sweptSlots s.client.segSelMap slots).map fun i =>
    .dpmi (.freeLdtDescriptor (s.client.segSelMap i).sel) ()
  map : ∀ i, (t.client.segSelMap i).sel =
    if i ∈ sweptSlots s.client.segSelMap slots then 0 else (s.client.segSelMap i).sel
  winos2 : t.client.ldtAliasWinos2 = s.client.ldtAliasWinos2

theorem freeSegSels_sweeps {slots : List (Fin MAX_CNVS)} (nodup : slots.Nodup) (s : State σ) :
    Swept slots s (final (freeSegSels h slots) s) := by
  induction slots generalizing s with
  | nil => exact ⟨(List.append_nil _).symm, fun i => (if_neg List.not_mem_nil).symm, rfl⟩
  | cons i rest ih =>
    obtain ⟨other, nodup⟩ := List.nodup_cons.mp nodup
    by_cases used : (s.client.segSelMap i).inUse = true
    · let clear (c : MsdosStruct) : MsdosStruct :=
        { c with segSelMap := Function.update c.segSelMap i { c.segSelMap i with sel := 0 } }
      let u := final (freeDescriptor h (s.client.segSelMap i).sel) s
      have cleared : (u.withClient clear).client = clear s.client := State.client_withClient clear u
      have chosen : final (freeSegSels h (i :: rest)) s = final (freeSegSels h rest) (u.withClient clear) := by
        rw [freeSegSels, final_bind, final_reads, result_reads, final_onlyIf]
        exact if_pos used
      obtain ⟨events, map, winos2⟩ := ih nodup (u.withClient clear)
      have others (j : Fin MAX_CNVS) (inside : j ∈ rest) :
          (clear s.client).segSelMap j = s.client.segSelMap j :=
        Function.update_of_ne (fun same : j = i => other (same ▸ inside)) _ _
      have same : sweptSlots (clear s.client).segSelMap rest = sweptSlots s.client.segSelMap rest := by
        apply takeWhile_congr
        intro j inside
        rw [others j inside]
      have first : sweptSlots s.client.segSelMap (i :: rest) = i :: sweptSlots s.client.segSelMap rest :=
        List.takeWhile_cons_of_pos used
      rw [cleared, same] at events map
      have listed (j : Fin MAX_CNVS) (swept : j ∈ sweptSlots s.client.segSelMap rest) : j ∈ rest :=
        List.takeWhile_sublist _ |>.mem swept
      rw [chosen]
      constructor
      · have freed : (u.withClient clear).trace =
            s.trace ++ [.dpmi (.freeLdtDescriptor (s.client.segSelMap i).sel) ()] := rfl
        have later : (sweptSlots s.client.segSelMap rest).map (fun j =>
            Event.dpmi (.freeLdtDescriptor ((clear s.client).segSelMap j).sel) ()) =
            (sweptSlots s.client.segSelMap rest).map fun j =>
              Event.dpmi (.freeLdtDescriptor (s.client.segSelMap j).sel) () :=
          List.map_congr_left fun j swept => by rw [others j (listed j swept)]
        rw [events, freed, List.append_assoc, later, first, List.map_cons]
        rfl
      · intro j
        rw [map, first]
        by_cases here : j = i
        · have zero : ((clear s.client).segSelMap i).sel = 0 :=
            congrArg SegSel.sel (Function.update_self i _ s.client.segSelMap)
          rw [here, if_neg (fun swept => other (listed i swept)), if_pos List.mem_cons_self, zero]
        · have kept : (clear s.client).segSelMap j = s.client.segSelMap j := Function.update_of_ne here _ _
          simp only [kept, List.mem_cons, here, false_or]
      · rw [winos2, cleared]
    · have none : sweptSlots s.client.segSelMap (i :: rest) = [] := List.takeWhile_cons_of_neg used
      have chosen : final (freeSegSels h (i :: rest)) s = s := by
        rw [freeSegSels, final_bind, final_reads, result_reads, final_onlyIf]
        exact if_neg used
      rw [chosen]
      constructor
      · rw [none]
        exact (List.append_nil _).symm
      · intro j
        rw [none]
        exact (if_neg List.not_mem_nil).symm
      · rfl

def sweptSelectors (s : State σ) : List Word :=
  (eventsOf (msdosFreeDescriptors h) s).filterMap Event.freed

theorem sweptSelectors_eq (s : State σ) : sweptSelectors h s =
    (sweptSlots s.client.segSelMap (List.finRange MAX_CNVS)).map (fun i => (s.client.segSelMap i).sel) ++
      [s.client.ldtAliasWinos2] := by
  obtain ⟨events, -, winos2⟩ := freeSegSels_sweeps h (List.nodup_finRange MAX_CNVS) s
  let t := final (freeSegSels h (List.finRange MAX_CNVS)) s
  have trace : (final (msdosFreeDescriptors h) s).trace =
      t.trace ++ [.dpmi (.freeLdtDescriptor t.client.ldtAliasWinos2) ()] := rfl
  rw [sweptSelectors, eventsOf, trace, winos2, events, List.append_assoc, List.drop_left,
    List.filterMap_append, List.filterMap_map]
  have freed : (Event.freed ∘ fun i => Event.dpmi (.freeLdtDescriptor (s.client.segSelMap i).sel) ()) =
      some ∘ fun i => (s.client.segSelMap i).sel := rfl
  rw [freed, List.filterMap_eq_map]
  rfl

/-! ## The whole life -/

variable (settable : Dword → Prop)

/-- The used entries come first, they are different, and their descriptors are those of their segments. -/
structure SegmentMapRight (t : State σ) : Prop where
  first : ∃ k, ∀ i : Fin MAX_CNVS, (t.client.segSelMap i).sel ≠ 0 ↔ i.val < k
  pairs : ∀ i j, (t.client.segSelMap i).sel ≠ 0 → (t.client.segSelMap j).sel ≠ 0 →
    (t.client.segSelMap i).seg = (t.client.segSelMap j).seg →
    (t.client.segSelMap i).lim = (t.client.segSelMap j).lim → i = j
  selectors : ∀ i j, (t.client.segSelMap i).sel ≠ 0 →
    (t.client.segSelMap i).sel = (t.client.segSelMap j).sel → i = j
  base : ∀ i, (t.client.segSelMap i).sel ≠ 0 →
    getSegmentBase h t (t.client.segSelMap i).sel = zext (t.client.segSelMap i).seg <<< 4
  limit : ∀ i, (t.client.segSelMap i).sel ≠ 0 → settable (t.client.segSelMap i).lim →
    getSegmentLimit h t (t.client.segSelMap i).sel = (t.client.segSelMap i).lim

structure ConversionsRight (s : State σ) (calls : List Conversion) : Prop where
  map : ∀ past, past <:+ calls → SegmentMapRight h settable (converted h s past)
  answered : ∀ p sel, (p, sel) ∈ answers h s calls → sel ≠ 0 →
    ∃ i, (converted h s calls).client.segSelMap i = ⟨p.1, sel, p.2⟩
  same : ∀ p sel sel', (p, sel) ∈ answers h s calls → (p, sel') ∈ answers h s calls → sel = sel'
  different : ∀ p q sel, (p, sel) ∈ answers h s calls → (q, sel) ∈ answers h s calls → sel ≠ 0 → p = q
  refused : ∀ p past, p :: past <:+ calls → p ∉ convertedPairs h s past →
    (result (convert h p) (converted h s past) = 0 ∧
        final (convert h p) (converted h s past) = converted h s past ↔
      (convertedPairs h s past).length = MAX_CNVS)
  freed : ∀ i, ((converted h s calls).client.segSelMap i).sel ≠ 0 →
    (sweptSelectors h (converted h s calls)).count ((converted h s calls).client.segSelMap i).sel = 1
  emptied : ∀ i, ((final (msdosFreeDescriptors h) (converted h s calls)).client.segSelMap i).sel = 0

section Life

variable {h} {settable} {t : Table Conversion Word} {s : State σ}

theorem segmentMapRight_of_state (state : MapState h settable t s) (distinct : Distinct t) :
    SegmentMapRight h settable s := by
  have entry (i : Fin MAX_CNVS) (used : (s.client.segSelMap i).sel ≠ 0) := SegSel.entry_of_used used
  have listed (i : Fin MAX_CNVS) (used : (s.client.segSelMap i).sel ≠ 0) :=
    state.holds.mem_iff.mpr ⟨i, entry i used⟩
  constructor
  · refine ⟨t.length, fun i => ?_⟩
    rw [← state.holds.used_iff]
    constructor
    · intro used
      rw [entry i used]
      exact Option.some_ne_none _
    · intro found free
      exact found (if_pos free)
  · intro i j used used' seg lim
    have same : ((s.client.segSelMap i).seg, (s.client.segSelMap i).lim) =
        ((s.client.segSelMap j).seg, (s.client.segSelMap j).lim) := Prod.ext seg lim
    exact state.holds.injective distinct (entry i used) (entry j used') (Or.inl same)
  · intro i j used same
    have used' : (s.client.segSelMap j).sel ≠ 0 := same ▸ used
    exact state.holds.injective distinct (entry i used) (entry j used') (Or.inr same)
  · intro i used
    exact state.base ((s.client.segSelMap i).seg, (s.client.segSelMap i).lim) _ (listed i used)
  · intro i used fits
    exact state.limit ((s.client.segSelMap i).seg, (s.client.segSelMap i).lim) _ (listed i used) fits

theorem asAnswer_injective : Function.Injective asAnswer := by
  intro a b same
  unfold asAnswer at same
  split at same
  next zero =>
    split at same
    next zero' => exact zero.trans zero'.symm
    next => cases same
  next =>
    split at same
    next => cases same
    next => exact Option.some.inj same

theorem asAnswer_eq_none {sel : Word} : asAnswer sel = none ↔ sel = 0 := by
  unfold asAnswer
  split
  next zero => exact iff_of_true rfl zero
  next given => exact iff_of_false (Option.some_ne_none sel) given

theorem mem_asked {calls : List Conversion} {p : Conversion} {sel : Word}
    (answered : (p, sel) ∈ answers h s calls) : (p, asAnswer sel) ∈ asked h s calls :=
  List.mem_map_of_mem (f := fun c : Conversion × Word => (c.1, asAnswer c.2)) answered

theorem convertedPairs_eq (calls : List Conversion) : convertedPairs h s calls =
    (((asked h s calls).filter fun c => c.2.isSome).map Prod.fst).dedup := by
  have given (sel : Word) : (asAnswer sel).isSome = decide (sel ≠ 0) := by
    unfold asAnswer
    split
    next zero => rw [zero]; rfl
    next used => rw [decide_eq_true used]; rfl
  rw [asked, List.filter_map, List.map_map, convertedPairs]
  have same : (fun c : Conversion × Option Word => c.2.isSome) ∘
      (fun c : Conversion × Word => (c.1, asAnswer c.2)) = fun c => decide (c.2 ≠ 0) := by
    funext c
    exact given c.2
  rw [same]
  rfl

theorem mem_convertedPairs {calls : List Conversion} (run : Memo.Run MAX_CNVS (asked h s calls) t)
    {p : Conversion} : p ∈ convertedPairs h s calls ↔ p ∈ keys t := by
  rw [convertedPairs_eq, List.mem_dedup]
  constructor
  · intro member
    obtain ⟨⟨q, a⟩, answered, rfl⟩ := List.mem_map.mp member
    obtain ⟨answered, some⟩ := List.mem_filter.mp answered
    obtain ⟨sel, rfl⟩ := Option.isSome_iff_exists.mp some
    exact List.mem_map_of_mem (run.mem_iff.mpr answered)
  · intro member
    obtain ⟨⟨q, sel⟩, listed, rfl⟩ := List.mem_map.mp member
    exact List.mem_map_of_mem (List.mem_filter.mpr ⟨run.mem_iff.mp listed, rfl⟩)

theorem mem_sweptSlots (right : SegmentMapRight h settable s) (i : Fin MAX_CNVS) :
    i ∈ sweptSlots s.client.segSelMap (List.finRange MAX_CNVS) ↔ (s.client.segSelMap i).sel ≠ 0 := by
  obtain ⟨k, first⟩ := right.first
  have packed : (List.finRange MAX_CNVS).Pairwise fun a b =>
      (s.client.segSelMap b).inUse = true → (s.client.segSelMap a).inUse = true := by
    refine (List.pairwise_lt_finRange MAX_CNVS).imp fun {a b} before used => ?_
    have below := (first b).mp (of_decide_eq_true used)
    exact decide_eq_true ((first a).mpr (Nat.lt_trans before below))
  rw [sweptSlots, takeWhile_eq_filter packed, List.mem_filter]
  simp [SegSel.inUse]

theorem sweptSlots_nodup : (sweptSlots s.client.segSelMap (List.finRange MAX_CNVS)).Nodup :=
  (List.nodup_finRange MAX_CNVS).sublist (List.takeWhile_sublist _)

theorem freed_once (state : MapState h settable t s) (right : SegmentMapRight h settable s) (i : Fin MAX_CNVS)
    (used : (s.client.segSelMap i).sel ≠ 0) :
    (sweptSelectors h s).count (s.client.segSelMap i).sel = 1 := by
  have inMap {sel : Word} (freed : sel ∈ (sweptSlots s.client.segSelMap (List.finRange MAX_CNVS)).map
      fun i => (s.client.segSelMap i).sel) : sel ∈ values t := by
    obtain ⟨j, swept, rfl⟩ := List.mem_map.mp freed
    have entry := SegSel.entry_of_used ((mem_sweptSlots right j).mp swept)
    exact List.mem_map_of_mem (state.holds.mem_iff.mpr ⟨j, entry⟩)
  have nodup : (sweptSelectors h s).Nodup := by
    rw [sweptSelectors_eq]
    refine List.nodup_append.mpr ⟨?_, List.nodup_singleton _, ?_⟩
    · refine sweptSlots_nodup.map_on fun a inside b _ same => ?_
      exact right.selectors a b ((mem_sweptSlots right a).mp inside) same
    · intro sel freed w last same
      rw [same, List.mem_singleton.mp last] at freed
      exact state.winos2 (inMap freed)
  apply List.count_eq_one_of_mem nodup
  rw [sweptSelectors_eq]
  exact List.mem_append_left _ (List.mem_map_of_mem ((mem_sweptSlots right i).mpr used))

theorem emptied_map (right : SegmentMapRight h settable s) (i : Fin MAX_CNVS) :
    ((final (msdosFreeDescriptors h) s).client.segSelMap i).sel = 0 := by
  have swept := (freeSegSels_sweeps h (List.nodup_finRange MAX_CNVS) s).map i
  have last : (final (msdosFreeDescriptors h) s).client.segSelMap =
      (final (freeSegSels h (List.finRange MAX_CNVS)) s).client.segSelMap := rfl
  rw [last, swept]
  split
  next => rfl
  next free => exact not_not.mp fun used => free ((mem_sweptSlots right i).mpr used)

/-- Over a client's life the map is a table without repetitions, and at its end it is given back. -/
theorem conversions_right (host : SetsDescriptors h settable) {calls : List Conversion}
    (empty : ∀ i, (s.client.segSelMap i).sel = 0) (fresh : FreshSelectors h s calls) :
    ConversionsRight h settable s calls := by
  have earlier (past : List Conversion) (part : past <:+ calls) : FreshSelectors h s past :=
    fun p before reply made => fresh p before reply (made.trans part)
  obtain ⟨t, run, state⟩ := converted_run host empty fresh
  have right := segmentMapRight_of_state state run.distinct
  constructor
  · intro past part
    obtain ⟨u, run, state⟩ := converted_run host empty (earlier past part)
    exact segmentMapRight_of_state state run.distinct
  · intro p sel answered given
    have asked := mem_asked answered
    rw [asAnswer, if_neg given] at asked
    obtain ⟨i, here⟩ := state.holds.mem_iff.mp (run.mem_iff.mpr asked)
    exact ⟨i, (SegSel.entry_eq_some.mp here).2⟩
  · intro p sel sel' first second
    exact asAnswer_injective (run.same (mem_asked first) (mem_asked second))
  · intro p q sel first second given
    have asked := mem_asked first
    have asked' := mem_asked second
    rw [asAnswer, if_neg given] at asked asked'
    exact run.different asked asked'
  · intro p past part new
    have made : past <:+ calls := (List.suffix_cons p past).trans part
    obtain ⟨u, run, state⟩ := converted_run host empty (earlier past made)
    obtain ⟨u', step, -, same⟩ := convert_asks host state run.distinct fun reply => fresh p past reply part
    rw [convertedPairs_eq, ← run.length_eq, ← step.none_iff fun listed => new ((mem_convertedPairs run).mpr listed)]
    constructor
    · intro refused
      exact asAnswer_eq_none.mpr refused.1
    · intro refused
      exact ⟨asAnswer_eq_none.mp refused, same refused⟩
  · exact freed_once state right
  · exact emptied_map right

end Life

theorem segSelMap_msdosInit (is32 : Bool) (mseg : Word) (s : State σ) (i : Fin MAX_CNVS) :
    ((final (msdosInit h is32 mseg) s).client.segSelMap i).sel = 0 := by
  obtain ⟨o, ldt, grants, after, -, starts⟩ := books_msdosInit h is32 mseg s
  have records : holdings (final (msdosInit h is32 mseg) s) = (holdings s).push o ldt :=
    congrArg Prod.snd after
  have top : (final (msdosInit h is32 mseg) s).client.owner = o := by
    show (holdings (final (msdosInit h is32 mseg) s)).top = o
    rw [records]
    exact Function.update_self _ _ _
  show ((final (msdosInit h is32 mseg) s).client.owner.segSelMap i).sel = 0
  rw [top, starts.segSels]

theorem allocation_eq {s : State σ} {p : Conversion} {reply : Dword}
    (made : Event.dpmi (.allocateLdtDescriptors 1) reply ∈ eventsOf (convert h p) s) :
    reply = (newDescriptor h s.host).1 := by
  rw [convert] at made
  have quiet (same : final (convertSegmentToDescriptorLim h p.1 p.2) s = s) :
      reply = (newDescriptor h s.host).1 := by
    rw [events_quiet same] at made
    exact absurd made List.not_mem_nil
  cases slot : segSelSlot s.client.segSelMap p.1 p.2 with
  | none => exact quiet (congrArg Prod.snd (convertLim_full slot))
  | some i =>
    by_cases used : (s.client.segSelMap i).sel = 0
    · by_cases zero : loWord (newDescriptor h s.host).1 = 0
      · rw [events_zero slot used zero] at made
        simpa using made
      · rw [events_new slot used zero] at made
        simpa [conversionEvents] using made
    · exact quiet (congrArg Prod.snd (convertLim_known slot used))

/-! ### A client of an example host -/

/-- From 1 MiB on a limit is one of whole pages. -/
def PageLimit (limit : Dword) : Prop := limit.toNat < 0x100000 ∨ limit &&& 0xfff = 0xfff

instance (limit : Dword) : Decidable (PageLimit limit) :=
  inferInstanceAs (Decidable (limit.toNat < 0x100000 ∨ limit &&& 0xfff = 0xfff))

def limitsAfter (c : DpmiCall) (limits : Word → Dword) : Word → Dword :=
  match c with
  | .setSegmentLimit sel limit => if PageLimit limit then Function.update limits sel limit else limits
  | _ => limits

def limitHost : DpmiHost (Bump × (Word → Dword)) where
  perform c b := ((bumpHost.perform c b.1).1, (bumpHost.perform c b.1).2, limitsAfter c b.2)
  getSegmentBaseAddress b := bumpHost.getSegmentBaseAddress b.1
  getSegmentLimit b := b.2
  getDescriptorAccessRights b := bumpHost.getDescriptorAccessRights b.1
  getProtectedModeInterruptVector b := bumpHost.getProtectedModeInterruptVector b.1
  getRealModeInterruptVector b := bumpHost.getRealModeInterruptVector b.1
  getFreeMemoryInformation b := bumpHost.getFreeMemoryInformation b.1
  getPsp b := bumpHost.getPsp b.1

theorem setsDescriptors_limitHost : SetsDescriptors limitHost PageLimit := by
  constructor
  · intro base limit b _
    refine ⟨Function.update_self _ _ _, fun settable => ?_⟩
    show limitsAfter (.setSegmentLimit _ limit) _ _ = limit
    rw [limitsAfter, if_pos settable]
    exact Function.update_self _ _ _
  · intro base limit b sel other
    refine ⟨(Function.update_of_ne other _ _).trans (Function.update_of_ne other _ _), ?_⟩
    show limitsAfter (.setSegmentLimit _ limit) _ _ = _
    rw [limitsAfter]
    split
    next => exact Function.update_of_ne other _ _
    next => rfl

def convertingClient : State (Bump × (Word → Dword)) :=
  final (msdosInit limitHost true 0x1000) { bumpStart with host := (bumpStart.host, fun _ => 0) }

/-- A segment with two limits, one of which cannot be set, another segment, and the first one
again. -/
def fourConversions : List Conversion := [(0x40, 0xffff), (0x50, 0x1fffff), (0x40, 0x123456), (0x40, 0xffff)]

theorem convertingClient_empty (i : Fin MAX_CNVS) : (convertingClient.client.segSelMap i).sel = 0 := by
  rw [convertingClient]
  exact segSelMap_msdosInit limitHost true 0x1000 _ i

theorem fresh_four : FreshSelectors limitHost convertingClient fourConversions := by
  intro p past reply part made
  rw [allocation_eq limitHost made]
  rcases List.suffix_cons_iff.mp part with last | part
  · obtain ⟨-, rfl⟩ := List.cons.inj last
    decide +kernel
  rcases List.suffix_cons_iff.mp part with last | part
  · obtain ⟨-, rfl⟩ := List.cons.inj last
    decide +kernel
  rcases List.suffix_cons_iff.mp part with last | part
  · obtain ⟨-, rfl⟩ := List.cons.inj last
    decide +kernel
  rcases List.suffix_cons_iff.mp part with last | part
  · obtain ⟨-, rfl⟩ := List.cons.inj last
    decide +kernel
  · cases List.suffix_nil.mp part

theorem conversions_right_four :
    FreshSelectors limitHost convertingClient fourConversions ∧
      ConversionsRight limitHost PageLimit convertingClient fourConversions :=
  ⟨fresh_four, conversions_right (s := convertingClient) setsDescriptors_limitHost convertingClient_empty
    fresh_four⟩

end Pmdapi
