import Pmdapi.BumpHost
import Pmdapi.ResourceSteps

/-! Every selector and callback of the clients is given back once, and none is given back while a
client that runs still uses it. -/

namespace Pmdapi
open Bytes Effect Slots Ledger

variable {σ : Type} (h : DpmiHost σ)

/-! ## Runs -/

def noted {α : Type} (is32 : Bool) (m : M σ α) (p : State σ × List (Entry Resource Grant)) :
    State σ × List (Entry Resource Grant) :=
  (final m p.1, p.2 ++ resourceLog is32 (eventsOf m p.1))

theorem noted_fst {α : Type} (is32 : Bool) (m : M σ α) (p : State σ × List (Entry Resource Grant)) :
    (noted is32 m p).1 = final m p.1 := rfl

/-- Clients start and end, the last one first, and the running one converts segments. The world may do
what leaves the records alone. -/
inductive ResourceStep : State σ × List (Entry Resource Grant) →
    State σ × List (Entry Resource Grant) → Prop where
  | init (p : State σ × List (Entry Resource Grant)) (is32 : Bool) (mseg : Word)
      (room : p.1.clientNum < DPMI_MAX_CLIENTS) :
      ResourceStep p (noted is32 (msdosInit h is32 mseg) p)
  | done (p : State σ × List (Entry Resource Grant)) (running : 0 < p.1.clientNum) :
      ResourceStep p (noted p.1.client.is32 (msdosDone h) p)
  | convert (p : State σ × List (Entry Resource Grant)) (segment : Word) (limit : Dword)
      (running : 0 < p.1.clientNum) :
      ResourceStep p (noted p.1.client.is32 (convertSegmentToDescriptorLim h segment limit) p)
  | world (s t : State σ) (log : List (Entry Resource Grant)) (same : holdings t = holdings s) :
      ResourceStep (s, log) (t, log)

/-- The host succeeds with a selector that is not 0, and with what is not in use. -/
structure Generous (log : List (Entry Resource Grant)) : Prop where
  free : GivesFree Grant.name log
  nonzero : ∀ g, .acquire g ∈ log → g.name ≠ .selector 0

theorem Generous.of_append {log later : List (Entry Resource Grant)} (host : Generous (log ++ later)) :
    Generous log where
  free := host.free.of_append
  nonzero := fun g member => host.nonzero g (List.mem_append_left _ member)

theorem Generous.of_names {log : List (Entry Resource Grant)} (once : (names Grant.name log).Nodup)
    (nonzero : .selector 0 ∉ names Grant.name log) : Generous log where
  free := givesFree_of_nodup once
  nonzero := by
    intro g member none
    apply nonzero
    rw [← none]
    exact List.mem_filterMap.mpr ⟨.acquire g, member, rfl⟩

/-! ## The invariant -/

def Holdings.owned (g : Holdings) : List Grant :=
  (if g.num = 0 then [] else [(g.owner 0).selector g.ldtAlias]) ++
    (List.range g.num).flatMap fun j => (g.owner j).owned

/-- What is held is what the clients own, and the records of the clients are right. -/
structure Kept (g : Holdings) (log : List (Entry Resource Grant)) : Prop where
  ledger : Ledger.Holds Grant.name log g.owned
  given : 0 < g.num → g.ldtAlias ≠ 0
  ldtAlias : ∀ j < g.num, (g.owner j).ldtAlias = g.ldtAlias
  callbacks : ∀ j < g.num, ∃ i ≤ j, (g.owner i).rmcbAlloced = true ∧
    (g.owner i).is32 = (g.owner j).is32 ∧ (g.owner j).rmcbs = (g.owner i).rmcbs
  packed : ∀ j < g.num, (g.owner j).Packed

section Invariant

variable {g : Holdings} {log : List (Entry Resource Grant)}

theorem Kept.idle (none : g.num = 0) : Kept g [] := by
  have nobody (j : Nat) : ¬j < g.num := by omega
  refine ⟨?_, fun some => absurd some (nobody 0), fun j some => absurd some (nobody j),
    fun j some => absurd some (nobody j), fun j some => absurd some (nobody j)⟩
  rw [Holdings.owned, if_pos none, none]
  exact Ledger.Holds.nil

theorem owned_succ {below : Holdings} (num : g.num = below.num + 1)
    (records : ∀ j < below.num, g.owner j = below.owner j)
    (shared : below.num ≠ 0 → g.ldtAlias = below.ldtAlias) :
    g.owned.Perm (g.top.owned ++ (if below.num = 0 then [g.top.selector g.ldtAlias] else []) ++
      below.owned) := by
  have others : (List.range below.num).flatMap (fun j => (g.owner j).owned) =
      (List.range below.num).flatMap fun j => (below.owner j).owned := by
    apply List.flatMap_congr
    intro j member
    rw [records j (List.mem_range.mp member)]
  have top : g.owner below.num = g.top := by
    rw [Holdings.top, num, Nat.add_sub_cancel]
  rw [Holdings.owned, Holdings.owned, num, if_neg (Nat.succ_ne_zero _), List.range_succ,
    List.flatMap_append, others, List.flatMap_singleton, top]
  by_cases first : below.num = 0
  · rw [first] at top
    rw [if_pos first, if_pos first, first, top, List.range_zero, List.flatMap_nil, List.nil_append,
      List.append_nil, List.append_nil]
    exact List.perm_append_comm
  · rw [if_neg first, if_neg first, records 0 (Nat.pos_of_ne_zero first), shared first,
      List.append_nil, ← List.append_assoc]
    exact List.perm_append_comm

theorem Kept.push {o : Owner} {ldt : Word} {grants : List Grant} (kept : Kept g log)
    (starts : g.Starts o ldt grants) (host : Generous (log ++ grants.map .acquire)) :
    Kept (g.push o ldt) (log ++ grants.map .acquire) := by
  have top : (g.push o ldt).top = o := by
    simp only [Holdings.top, Holdings.push, Nat.add_sub_cancel, Function.update_self]
  have record (j : Nat) (below : j < g.num) : (g.push o ldt).owner j = g.owner j :=
    Function.update_of_ne below.ne _ _
  have last : (g.push o ldt).owner g.num = o := Function.update_self _ _ _
  constructor
  · have split := owned_succ (g := g.push o ldt) rfl record starts.shared
    rw [top] at split
    apply (kept.ledger.acquires host.free).perm
    exact (starts.grants.append_right _).trans split.symm
  · intro _
    by_cases first : g.num = 0
    · have granted : o.selector ldt ∈ grants := by
        rw [starts.grants.mem_iff, if_pos first]
        exact List.mem_append_right _ List.mem_cons_self
      intro none
      apply host.nonzero _ (List.mem_append_right _ (List.mem_map_of_mem granted))
      exact congrArg Resource.selector none
    · rw [show (g.push o ldt).ldtAlias = g.ldtAlias from starts.shared first]
      exact kept.given (Nat.pos_of_ne_zero first)
  · intro j inside
    rcases Nat.lt_succ_iff_lt_or_eq.mp inside with below | rfl
    · rw [record j below, kept.ldtAlias j below]
      exact (starts.shared (by omega)).symm
    · rw [last]
      exact starts.ldtAlias
  · intro j inside
    rcases Nat.lt_succ_iff_lt_or_eq.mp inside with below | rfl
    · obtain ⟨i, lower, own⟩ := kept.callbacks j below
      refine ⟨i, lower, ?_⟩
      rwa [record j below, record i (lower.trans_lt below)]
    · rcases starts.callbacks with own | ⟨some, same, rmcbs⟩
      · exact ⟨g.num, le_rfl, by rwa [last], rfl, rfl⟩
      · obtain ⟨i, lower, own, same', rmcbs'⟩ := kept.callbacks (g.num - 1) (by omega)
        refine ⟨i, by omega, ?_⟩
        rw [last, record i (by omega), ← same, rmcbs]
        exact ⟨own, same', rmcbs'⟩
  · intro j inside
    rcases Nat.lt_succ_iff_lt_or_eq.mp inside with below | rfl
    · rw [record j below]
      exact kept.packed j below
    · intro a b _ inUse
      rw [last, starts.segSels] at inUse
      simp [SegSel.inUse] at inUse

theorem Kept.pop {below : Holdings} (kept : Kept g log) (num : g.num = below.num + 1)
    (shared : below.num ≠ 0 → below.ldtAlias = g.ldtAlias)
    (records : ∀ j < below.num, below.owner j = g.owner j) : Kept below (log ++ releases g.freed) := by
  have freed : g.freed.Perm
      (g.top.owned ++ if below.num = 0 then [g.top.selector g.ldtAlias] else []) := by
    have last : (if 1 < g.num then [] else [g.top.selector g.ldtAlias]) =
        if below.num = 0 then [g.top.selector g.ldtAlias] else [] := by
      by_cases first : below.num = 0
      · rw [if_pos first, if_neg (by omega)]
      · rw [if_neg first, if_pos (by omega)]
    rw [Holdings.freed, Owner.owned, last, List.append_assoc g.top.callbacks]
    exact List.perm_append_comm.append_left _
  constructor
  · apply kept.ledger.releases_row
    apply (owned_succ num (fun j inside => (records j inside).symm) fun some => (shared some).symm).trans
    exact freed.symm.append_right _
  · intro some
    rw [shared some.ne']
    exact kept.given (by omega)
  · intro j inside
    rw [records j inside, shared (by omega)]
    exact kept.ldtAlias j (by omega)
  · intro j inside
    obtain ⟨i, lower, own⟩ := kept.callbacks j (by omega)
    refine ⟨i, lower, ?_⟩
    rwa [records j inside, records i (by omega)]
  · intro j inside
    rw [records j inside]
    exact kept.packed j (by omega)

/-- The aliases that the clients own are different. -/
theorem Kept.apart {i j : Nat} (kept : Kept g log) (above : i < g.num) (above' : j < g.num)
    (other : i ≠ j) : (g.owner i).ldtAliasWinos2 ≠ (g.owner j).ldtAliasWinos2 := by
  have nodup := kept.ledger.nodup
  rw [Holdings.owned, List.map_append, List.map_flatMap] at nodup
  have disjoint := List.pairwise_iff_getElem.mp (List.nodup_flatMap.mp (List.nodup_append.mp nodup).2.1).2
  have named (k : Nat) : .selector (g.owner k).ldtAliasWinos2 ∈ (g.owner k).owned.map Grant.name :=
    List.mem_map_of_mem (a := (g.owner k).selector (g.owner k).ldtAliasWinos2)
      (List.mem_append_right _ (List.mem_append_right _ List.mem_cons_self))
  have ordered (a b : Nat) (before : a < b) (inside : b < g.num) :
      (g.owner a).ldtAliasWinos2 ≠ (g.owner b).ldtAliasWinos2 := by
    intro same
    have apart := disjoint a b (by simp; omega) (by simpa using inside) before
    simp only [List.getElem_range] at apart
    exact apart (named a) (same ▸ named b)
  rcases Nat.lt_or_gt_of_ne other with before | after
  · exact ordered i j before above'
  · exact (ordered j i after above).symm

def Owner.fill (o : Owner) (i : Fin MAX_CNVS) (m : SegSel) : Owner :=
  { o with segSelMap := Function.update o.segSelMap i m }

theorem Owner.owned_fill {o : Owner} {i : Fin MAX_CNVS} {m : SegSel}
    (unused : (o.segSelMap i).inUse = false) (fills : m.inUse = true) :
    (o.fill i m).owned.Perm (o.selector m.sel :: o.owned) := by
  have segSels : (o.fill i m).segSels.Perm (o.selector m.sel :: o.segSels) :=
    (used_fill unused fills).map fun c : SegSel => o.selector c.sel
  change (o.callbacks ++ ((o.fill i m).segSels ++ [o.selector o.ldtAliasWinos2])).Perm
    (_ :: (o.callbacks ++ (o.segSels ++ [o.selector o.ldtAliasWinos2])))
  exact ((segSels.append_right _).append_left _).trans List.perm_middle

/-- The first free slot leaves the entries in use in front. -/
theorem Owner.Packed.fill {o : Owner} {i : Fin MAX_CNVS} {m : SegSel} {segment : Word} {limit : Dword}
    (packed : o.Packed) (slot : segSelSlot o.segSelMap segment limit = some i)
    (fills : m.inUse = true) : (o.fill i m).Packed := by
  intro a b before inUse
  by_cases here : a = i
  · rw [here]
    change (Function.update o.segSelMap i m i).inUse = true
    rwa [Function.update_self]
  change (Function.update o.segSelMap i m a).inUse = true
  change (Function.update o.segSelMap i m b).inUse = true at inUse
  rw [Function.update_of_ne here]
  by_cases last : b = i
  · have earlier := (firstWhere_eq_some.mp slot).2 a (lt_of_le_of_ne (last ▸ before) here)
    rw [Bool.or_eq_false_iff, decide_eq_false_iff_not] at earlier
    exact decide_eq_true earlier.1
  · rw [Function.update_of_ne last] at inUse
    exact packed a b before inUse

theorem Kept.fill {i : Fin MAX_CNVS} {m : SegSel} {segment : Word} {limit : Dword} (kept : Kept g log)
    (running : 0 < g.num) (slot : segSelSlot g.top.segSelMap segment limit = some i)
    (unused : (g.top.segSelMap i).inUse = false) (fills : m.inUse = true)
    (host : Generous (log ++ [.acquire (g.top.selector m.sel)])) :
    Kept (g.setTop (·.fill i m)) (log ++ [.acquire (g.top.selector m.sel)]) := by
  have record (j : Nat) : ∃ map, (g.setTop (·.fill i m)).owner j =
      { g.owner j with segSelMap := map } := g.owner_setTop (Function.update · i m) j
  have lower (j : Nat) (inside : j < g.num - 1) : (g.setTop (·.fill i m)).owner j = g.owner j :=
    Function.update_of_ne inside.ne _ _
  constructor
  · let below : Holdings := { g with num := g.num - 1 }
    have num : g.num = below.num + 1 := (Nat.sub_add_cancel running).symm
    have before := owned_succ num (fun _ _ => rfl) fun _ => rfl
    have after := owned_succ (g := g.setTop (·.fill i m)) num lower fun _ => rfl
    rw [Holdings.top_setTop] at after
    apply (kept.ledger.acquire host.free).perm
    have filled := Owner.owned_fill unused fills
    exact ((before.cons _).trans ((filled.append_right _).append_right _).symm).trans after.symm
  · exact kept.given
  · intro j inside
    obtain ⟨map, same⟩ := record j
    rw [same]
    exact kept.ldtAlias j inside
  · intro j inside
    obtain ⟨k, lower, own⟩ := kept.callbacks j inside
    refine ⟨k, lower, ?_⟩
    obtain ⟨map, same⟩ := record j
    obtain ⟨map', same'⟩ := record k
    rwa [same, same']
  · intro j inside
    change j < g.num at inside
    by_cases top : j = g.num - 1
    · have filled : (g.setTop (·.fill i m)).owner j = g.top.fill i m := by
        rw [top]
        exact Function.update_self _ _ _
      rw [filled]
      exact (kept.packed (g.num - 1) (by omega)).fill slot fills
    · rw [lower j (by omega)]
      exact kept.packed j inside

end Invariant

theorem noted_of_books {α : Type} {m : M σ α} {is32 : Bool} {p : State σ × List (Entry Resource Grant)}
    {es : List (Entry Resource Grant)} {g : Holdings} (appends : Moves Appends m)
    (after : books is32 (final m p.1) = ((books is32 p.1).1 ++ es, g)) :
    (noted is32 m p).2 = p.2 ++ es ∧ holdings (noted is32 m p).1 = g := by
  constructor
  · rw [noted, resourceLog_eventsOf is32 appends (congrArg Prod.fst after)]
  · exact congrArg Prod.snd after

theorem Kept.step (p q : State σ × List (Entry Resource Grant)) (kept : Generous p.2 → Kept (holdings p.1) p.2)
    (step : ResourceStep h p q) (host : Generous q.2) : Kept (holdings q.1) q.2 := by
  cases step with
  | init _ is32 mseg room =>
    obtain ⟨o, ldt, grants, after, _, starts⟩ := books_msdosInit h is32 mseg p.1
    obtain ⟨log, records⟩ := noted_of_books (appends_msdosInit h is32 mseg) after
    rw [log] at host ⊢
    rw [records]
    exact (kept host.of_append).push starts host
  | done _ running =>
    have before := kept host.of_append
    obtain ⟨g, after, num, shared, below, _⟩ := books_msdosDone h p.1.client.is32
      (before.packed (p.1.clientNum - 1) (Nat.sub_lt running one_pos)) (before.given running)
    obtain ⟨log, records⟩ := noted_of_books (appends_msdosDone h) after
    rw [log, records]
    apply before.pop (show p.1.clientNum = g.num + 1 by omega)
    · intro some
      exact shared (by omega)
    · intro j inside
      exact below j (by omega)
  | convert _ segment limit running =>
    have appends := (bookkeeping_appends h).convertSegmentToDescriptorLim segment limit
    rcases books_convertSegmentToDescriptorLim h p.1.client.is32 segment limit p.1 with
      same | failed | ⟨sel, i, some, slot, free, after⟩
    · obtain ⟨log, records⟩ := noted_of_books (g := holdings p.1) appends
        (same.trans (Prod.ext (List.append_nil _).symm rfl))
      rw [log, List.append_nil] at host ⊢
      rw [records]
      exact kept host
    · rw [(noted_of_books appends failed).1] at host
      exact absurd rfl (host.nonzero _ (List.mem_append_right _ List.mem_cons_self))
    · obtain ⟨log, records⟩ := noted_of_books appends after
      rw [log] at host ⊢
      rw [records]
      apply (kept host.of_append).fill running slot _ (m := ⟨segment, sel, limit⟩) _ host
      · exact decide_eq_false (not_not.mpr free)
      · exact decide_eq_true some
  | world s t log same =>
    rw [same]
    exact kept host

theorem Kept.run {s t : State σ} {log : List (Entry Resource Grant)} (idle : s.clientNum = 0)
    (run : Relation.ReflTransGen (ResourceStep h) (s, []) (t, log)) (host : Generous log) :
    Kept (holdings t) log := by
  have start : Generous [] → Kept (holdings s) [] := fun _ => Kept.idle idle
  exact invariant_of_run (I := fun p : State σ × List (Entry Resource Grant) =>
    Generous p.2 → Kept (holdings p.1) p.2) (fun p q kept step => Kept.step h p q kept step) start run host

/-! ## The law -/

structure HoldsItsOwn (s : State σ) (log : List (Entry Resource Grant)) (j : Nat) : Prop where
  rmcbs : ∀ n, ⟨.callback ((s.clients j).rmcbs n), (s.clients j).is32⟩ ∈ held Grant.name log
  ldtAlias : .selector (s.clients j).ldtAlias ∈ (held Grant.name log).map Grant.name
  ldtAliasWinos2 : .selector (s.clients j).ldtAliasWinos2 ∈ (held Grant.name log).map Grant.name
  segSels : ∀ i, ((s.clients j).segSelMap i).sel ≠ 0 →
    .selector ((s.clients j).segSelMap i).sel ∈ (held Grant.name log).map Grant.name

theorem Kept.holdsItsOwn {s : State σ} {log : List (Entry Resource Grant)} (kept : Kept (holdings s) log)
    {j : Nat} (running : j < s.clientNum) : HoldsItsOwn s log j := by
  have owns (i : Nat) (inside : i < s.clientNum) (r : Grant) (own : r ∈ (s.clients i).owner.owned) :
      r ∈ held Grant.name log := by
    rw [kept.ledger.mem]
    exact List.mem_append_right _ (List.mem_flatMap.mpr ⟨i, List.mem_range.mpr inside, own⟩)
  constructor
  · intro n
    obtain ⟨i, lower, own, same, rmcbs⟩ := kept.callbacks j running
    change (s.clients i).owner.rmcbAlloced = true at own
    change (s.clients i).is32 = (s.clients j).is32 at same
    change (s.clients j).rmcbs = (s.clients i).rmcbs at rmcbs
    rw [rmcbs, ← same]
    apply owns i (lower.trans_lt running)
    apply List.mem_append_left
    rw [Owner.callbacks, if_pos own]
    apply List.mem_append_left
    exact List.mem_map_of_mem (f := fun n => (⟨.callback ((s.clients i).rmcbs n), _⟩ : Grant))
      (by cases n <;> decide)
  · have shared : (s.clients j).ldtAlias = s.dpmiLdtAlias := kept.ldtAlias j running
    rw [shared]
    apply List.mem_map_of_mem (a := (s.clients 0).owner.selector s.dpmiLdtAlias)
    have some : (holdings s).num ≠ 0 := Nat.ne_of_gt (Nat.zero_lt_of_lt running)
    rw [kept.ledger.mem, Holdings.owned, if_neg some]
    exact List.mem_append_left _ List.mem_cons_self
  · apply List.mem_map_of_mem (a := (s.clients j).owner.selector (s.clients j).ldtAliasWinos2)
    apply owns j running
    exact List.mem_append_right _ (List.mem_append_right _ List.mem_cons_self)
  · intro i some
    apply List.mem_map_of_mem (a := (s.clients j).owner.selector ((s.clients j).segSelMap i).sel)
    apply owns j running
    apply List.mem_append_right _ (List.mem_append_left _ _)
    apply List.mem_map_of_mem (f := fun m : SegSel => (s.clients j).owner.selector m.sel)
    exact mem_used.mpr ⟨⟨i, rfl⟩, decide_eq_true some⟩

/-- In every run from a state without clients, on a host that succeeds with what is free: nothing is given
back that is not in use, once all clients are done everything was given back, and what the record of a
client that runs names is in use. -/
theorem resource_ownership {s t : State σ} {log : List (Entry Resource Grant)} (idle : s.clientNum = 0)
    (run : Relation.ReflTransGen (ResourceStep h) (s, []) (t, log)) (host : Generous log) :
    ReleasesHeld Grant.name log ∧
      (t.clientNum = 0 → (names Grant.name log).Perm (released log)) ∧
      ∀ j < t.clientNum, HoldsItsOwn t log j := by
  have kept := Kept.run h idle run host
  refine ⟨kept.ledger.releases, ?_, fun j running => kept.holdsItsOwn running⟩
  intro ended
  have balance := kept.ledger.balance
  have nothing : (holdings t).owned = [] := by
    have num : (holdings t).num = 0 := ended
    rw [Holdings.owned, if_pos num, num]
    rfl
  rwa [nothing, List.map_nil, List.append_nil] at balance

section Concrete

/-- The host steps of a 32-bit client, a 16-bit client above it that converts a segment, and both ends. -/
@[irreducible] def twoNested : State Bump × List (Entry Resource Grant) :=
  let outer := noted true (msdosInit bumpHost true 0x100) (bumpStart, [])
  let inner := noted false (msdosInit bumpHost false 0x100) outer
  let converted := noted inner.1.client.is32 (convertSegmentToDescriptorLim bumpHost 0x40 0xffff) inner
  let innerDone := noted converted.1.client.is32 (msdosDone bumpHost) converted
  noted innerDone.1.client.is32 (msdosDone bumpHost) innerDone

theorem twoNested_run : Relation.ReflTransGen (ResourceStep bumpHost) (bumpStart, []) twoNested := by
  have outer := Relation.ReflTransGen.single
    (ResourceStep.init (h := bumpHost) (bumpStart, []) true 0x100 (by decide))
  have inner := outer.tail (.init _ false 0x100 (by decide +kernel))
  have converted := inner.tail (.convert _ 0x40 0xffff (by decide +kernel))
  have innerDone := converted.tail (.done _ (by decide +kernel))
  unfold twoNested
  exact innerDone.tail (.done _ (by decide +kernel))

theorem resource_ownership_two :
    (names Grant.name twoNested.2).Perm (released twoNested.2) := by
  have host : Generous twoNested.2 := .of_names (by decide +kernel) (by decide +kernel)
  exact (resource_ownership bumpHost (by decide) twoNested_run host).2.1 (by decide +kernel)

def segmentSelectors (trace : List Event) : List Word :=
  trace.filterMap fun
    | .dpmi (.segmentToDescriptor _) sel => some (loWord sel)
    | _ => none

def freedSelectors (trace : List Event) : List Word :=
  trace.filterMap fun
    | .dpmi (.freeLdtDescriptor sel) _ => some sel
    | _ => none

/-- The translator as it is loaded, and a program whose environment is at segment 1. -/
def environmentStart : State Bump := { bumpStart with mem := fun a => if a = 0x2c then 1 else 0 }

@[irreducible] def environmentRun : State Bump × List (Entry Resource Grant) :=
  let started := noted true (msdosInit bumpHost true 0x100) (environmentStart, [])
  noted started.1.client.is32 (msdosDone bumpHost) started

/-- The selector that the start of the client makes of the environment is not freed at its end. -/
theorem resource_ownership_misses_environment :
    Relation.ReflTransGen (ResourceStep bumpHost) (environmentStart, []) environmentRun ∧
      environmentRun.1.clientNum = 0 ∧ Generous environmentRun.2 ∧
      segmentSelectors environmentRun.1.trace = [7] ∧
      7 ∉ freedSelectors environmentRun.1.trace := by
  refine ⟨?_, by decide +kernel, .of_names (by decide +kernel) (by decide +kernel),
    by decide +kernel, by decide +kernel⟩
  unfold environmentRun
  have started := Relation.ReflTransGen.single
    (ResourceStep.init (h := bumpHost) (environmentStart, []) true 0x100 (by decide))
  exact started.tail (.done _ (by decide +kernel))

end Concrete

end Pmdapi
