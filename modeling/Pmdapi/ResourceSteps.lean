import Pmdapi.Library.Ledger
import Pmdapi.ClientEffects

/-! What the start and the end of a client, and the conversion of a segment, obtain from the host and
give back. -/

namespace Pmdapi
open Bytes Effect Slots Ledger

variable {σ : Type} (h : DpmiHost σ)

/-! ## Resources -/

inductive Resource where
  | selector (sel : Word)
  | callback (cbk : Far)
  deriving DecidableEq, Repr

/-- A resource, and the bitness of the client for which it was obtained. -/
structure Grant where
  name : Resource
  is32 : Bool
  deriving DecidableEq, Repr

/-- What an event gives or takes. The descriptor of a segment stays the host's, so it is not counted. -/
def resourceEntry (is32 : Bool) : Event → Option (Entry Resource Grant)
  | .dpmi (.allocateLdtDescriptors _) sel => some (.acquire ⟨.selector (loWord sel), is32⟩)
  | .dpmi (.createAliasDescriptor _) sel => some (.acquire ⟨.selector (loWord sel), is32⟩)
  | .dpmi (.allocateRealModeCallback _ _) cbk => some (.acquire ⟨.callback cbk, is32⟩)
  | .dpmi (.freeLdtDescriptor sel) _ => some (.release (.selector sel))
  | .dpmi (.freeRealModeCallback cbk) _ => some (.release (.callback cbk))
  | _ => none

def resourceLog (is32 : Bool) (trace : List Event) : List (Entry Resource Grant) :=
  trace.filterMap (resourceEntry is32)

/-- The fields of a client's record that hold resources, and its bitness. -/
structure Owner where
  is32 : Bool
  rmcbs : Rmcb → Far
  rmcbSel : Word
  rmcbAlloced : Bool
  ldtAlias : Word
  ldtAliasWinos2 : Word
  segSelMap : Fin MAX_CNVS → SegSel

def MsdosStruct.owner (c : MsdosStruct) : Owner :=
  ⟨c.is32, c.rmcbs, c.rmcbSel, c.rmcbAlloced, c.ldtAlias, c.ldtAliasWinos2, c.segSelMap⟩

def SegSel.inUse (m : SegSel) : Bool := m.sel ≠ 0

namespace Owner

def empty (is32 : Bool) : Owner := ⟨is32, fun _ => ⟨0, 0⟩, 0, false, 0, 0, fun _ => ⟨0, 0, 0⟩⟩

variable (o : Owner)

def selector (sel : Word) : Grant := ⟨.selector sel, o.is32⟩

def callbacks : List Grant :=
  if o.rmcbAlloced then
    Rmcb.all.map (fun n => ⟨.callback (o.rmcbs n), o.is32⟩) ++ [o.selector o.rmcbSel]
  else []

def segSels : List Grant := (used SegSel.inUse o.segSelMap).map fun m => o.selector m.sel

def owned : List Grant := o.callbacks ++ (o.segSels ++ [o.selector o.ldtAliasWinos2])

def Packed : Prop :=
  ∀ i j : Fin MAX_CNVS, i ≤ j → (o.segSelMap j).inUse = true → (o.segSelMap i).inUse = true

end Owner

structure Holdings where
  num : Nat
  owner : Nat → Owner
  ldtAlias : Word

namespace Holdings

variable (g : Holdings)

def top : Owner := g.owner (g.num - 1)

def setTop (f : Owner → Owner) : Holdings :=
  { g with owner := Function.update g.owner (g.num - 1) (f g.top) }

@[simp] theorem top_setTop (f : Owner → Owner) : (g.setTop f).top = f g.top :=
  Function.update_self _ _ _

theorem setTop_setTop (f f' : Owner → Owner) :
    (g.setTop f).setTop f' = g.setTop fun o => f' (f o) := by
  simp only [setTop, top, Function.update_self, Function.update_idem]

end Holdings

theorem Holdings.owner_setTop (g : Holdings) (f : (Fin MAX_CNVS → SegSel) → Fin MAX_CNVS → SegSel)
    (j : Nat) : ∃ map, (g.setTop fun o => { o with segSelMap := f o.segSelMap }).owner j =
      { g.owner j with segSelMap := map } := by
  by_cases top : j = g.num - 1
  · refine ⟨f (g.owner j).segSelMap, ?_⟩
    rw [top]
    exact Function.update_self _ _ _
  · exact ⟨(g.owner j).segSelMap, Function.update_of_ne top _ _⟩

def holdings (s : State σ) : Holdings :=
  ⟨s.clientNum, fun j => (s.clients j).owner, s.dpmiLdtAlias⟩

def books (is32 : Bool) (s : State σ) : List (Entry Resource Grant) × Holdings :=
  (resourceLog is32 s.trace, holdings s)

variable (b : Bool)

/-- From `s`, `m` makes the entries `es` and changes the records by `f`. -/
def Does {α : Type} (m : M σ α) (s : State σ) (es : List (Entry Resource Grant))
    (f : Holdings → Holdings) : Prop :=
  books b (final m s) = ((books b s).1 ++ es, f (books b s).2)

section Rules

variable {b} {α β : Type} {m : M σ α} {k : α → M σ β} {s : State σ}
  {es es' : List (Entry Resource Grant)} {f f' : Holdings → Holdings}

theorem Does.bind (first : Does b m s es f) (second : Does b (k (result m s)) (final m s) es' f') :
    Does b (m >>= k) s (es ++ es') (fun g => f' (f g)) := by
  rw [Does, final_bind, second, first, List.append_assoc]

theorem Does.quiet (quiet : Moves (Keeps (books b)) m) (s : State σ) : Does b m s [] id :=
  (quiet s).trans (Prod.ext (List.append_nil _).symm rfl)

/-- What neither obtains nor gives back does not count. -/
theorem Does.after (quiet : Moves (Keeps (books b)) m)
    (second : Does b (k (result m s)) (final m s) es' f') : Does b (m >>= k) s es' f' :=
  (Does.quiet quiet s).bind second

theorem Does.of_final {m' : M σ α} (same : final m s = final m' s) (does : Does b m' s es f) :
    Does b m s es f := by
  rwa [Does, same]

theorem Does.congr (does : Does b m s es f) (sameLog : es = es') (sameRecords : f = f') :
    Does b m s es' f' := by
  rwa [← sameLog, ← sameRecords]

end Rules

/-! ## Single steps -/

theorem does_hostCall (c : DpmiCall) (s : State σ) :
    Does b (hostCall h c) s (resourceEntry b (.dpmi c (result (hostCall h c) s))).toList id := by
  refine Prod.ext ?_ rfl
  change resourceLog b (s.trace ++ [.dpmi c (result (hostCall h c) s)]) = resourceLog b s.trace ++ _
  generalize Event.dpmi c (result (hostCall h c) s) = e
  rw [resourceLog, List.filterMap_append, List.filterMap_cons, List.filterMap_nil]
  cases resourceEntry b e <;> rfl

theorem does_allocateDescriptors (n : Nat) (s : State σ) : Does b (allocateDescriptors h n) s
    [.acquire ⟨.selector (result (allocateDescriptors h n) s), b⟩] id :=
  does_hostCall h b (.allocateLdtDescriptors n) s

theorem does_createAliasDescriptor (sel : Word) (s : State σ) :
    Does b (createAliasDescriptor h sel) s
      [.acquire ⟨.selector (result (createAliasDescriptor h sel) s), b⟩] id :=
  does_hostCall h b (.createAliasDescriptor sel) s

theorem does_freeDescriptor (sel : Word) (s : State σ) :
    Does b (freeDescriptor h sel) s [.release (.selector sel)] id :=
  does_hostCall h b (.freeLdtDescriptor sel) s

theorem does_setClient {f : MsdosStruct → MsdosStruct} {f' : Owner → Owner}
    (acts : ∀ c, (f c).owner = f' c.owner) (s : State σ) :
    Does b (setClient f) s [] (·.setTop f') := by
  refine Prod.ext (List.append_nil _).symm ?_
  simp only [books, holdings, Holdings.setTop, Holdings.top, setClient, State.withClient,
    final_updates, Holdings.mk.injEq, true_and, and_true]
  funext j
  rw [Function.update_apply, Function.update_apply]
  split
  · exact acts _
  · rfl

section Quiet

variable {h b}

theorem quiet_hostCall {c : DpmiCall} (uncounted : ∀ r, resourceEntry b (.dpmi c r) = none) :
    @Moves (State σ) (no_index c.Reply) (Keeps (books b)) (hostCall h c) := by
  intro s
  have after := does_hostCall h b c s
  rw [uncounted] at after
  exact after.trans (Prod.ext (List.append_nil _) rfl)

theorem quiet_setSegmentBaseAddress (sel : Word) (base : Dword) :
    Moves (Keeps (books b)) (setSegmentBaseAddress h sel base) := quiet_hostCall fun _ => rfl

theorem quiet_setSegmentLimit (sel : Word) (limit : Dword) :
    Moves (Keeps (books b)) (setSegmentLimit h sel limit) := quiet_hostCall fun _ => rfl

theorem quiet_setDescriptorAccessRights (sel rights : Word) :
    Moves (Keeps (books b)) (setDescriptorAccessRights h sel rights) := quiet_hostCall fun _ => rfl

theorem quiet_writeEnvSel (sel : Word) : Moves (Keeps (books b)) (writeEnvSel h sel) :=
  Moves.bind (moves_reads _) fun _ => fun _ => rfl

theorem quiet_convertEnv : Moves (Keeps (books b)) (convertEnv h) := by
  unfold convertEnv
  refine Moves.bind (moves_reads _) fun envp => Moves.onlyIf fun _ => ?_
  exact Moves.bind (quiet_hostCall fun _ => rfl) fun sel => quiet_writeEnvSel _

theorem quiet_restoreEnv : Moves (Keeps (books b)) (restoreEnv h) := by
  unfold restoreEnv
  refine Moves.bind (moves_reads _) fun env => Moves.onlyIf fun _ => ?_
  exact Moves.bind (moves_reads _) fun base => quiet_writeEnvSel _

theorem quiet_setMemMap (f : MemMap → MemMap) : Moves (Keeps (books b)) (setMemMap f : M σ Unit) := by
  intro s
  have acts : Does b (setClient fun c => { c with memMap := f c.memMap }) s [] (·.setTop id) :=
    does_setClient b (fun _ => rfl) s
  simp only [Holdings.setTop, Holdings.top, id, Function.update_eq_self] at acts
  exact acts.trans (Prod.ext (List.append_nil _) rfl)

theorem quiet_msdosMalloc (size : Dword) : Moves (Keeps (books b)) (msdosMalloc h size) := by
  unfold msdosMalloc
  refine Moves.bind (Moves.bind (quiet_hostCall fun _ => rfl) fun _ => moves_pure _) fun block => ?_
  exact Moves.ite (fun _ => moves_pure _) fun _ => Moves.bind (quiet_setMemMap _) fun _ => moves_pure _

theorem quiet_msdosFreeMem : Moves (Keeps (books b)) (msdosFreeMem h) := by
  refine Moves.forM fun i _ => ?_
  unfold freeSlotMem
  refine Moves.bind (moves_reads _) fun block => Moves.onlyIf fun _ => ?_
  exact Moves.bind (quiet_hostCall fun _ => rfl) fun _ => quiet_setMemMap _

end Quiet

/-! ## Start -/

theorem does_callbackInit (sel : Word) (i : Rmcb) (s : State σ) : ∃ cbk,
    Does b (callbackInit h sel i) s [.acquire ⟨.callback cbk, b⟩]
      (·.setTop fun o => { o with rmcbs := Function.update o.rmcbs i cbk }) := by
  have set (cbk : Far) (u : State σ) : Does b
      (setClient fun c => { c with rmcbs := Function.update c.rmcbs i cbk }) u []
      (·.setTop fun o => { o with rmcbs := Function.update o.rmcbs i cbk }) :=
    does_setClient b (fun _ => rfl) u
  apply Exists.intro
  refine Does.after (moves_reads _) ?_
  refine Does.after (m := getPmcbHandler _ _ _ _) (fun _ => rfl) ?_
  refine Does.after (moves_reads _) ?_
  exact Does.congr (Does.bind (does_hostCall h b (.allocateRealModeCallback _ _) _) (set _ _)) rfl rfl

def callbackGrants (cbks : Rmcb → Far) : List Grant := Rmcb.all.map fun n => ⟨.callback (cbks n), b⟩

theorem does_callbacksInit (sel : Word) (s : State σ) : ∃ cbks : Rmcb → Far,
    Does b (callbacksInit h sel) s ((callbackGrants b cbks).map .acquire)
      (·.setTop fun o => { o with rmcbs := cbks }) := by
  obtain ⟨io, first⟩ := does_callbackInit h b sel .io s
  obtain ⟨ms, second⟩ := does_callbackInit h b sel .ms (final (callbackInit h sel .io) s)
  obtain ⟨ps2ms, third⟩ := does_callbackInit h b sel .ps2ms
    (final (callbackInit h sel .ms) (final (callbackInit h sel .io) s))
  refine ⟨Function.update (Function.update (fun _ => io) .ms ms) .ps2ms ps2ms, ?_⟩
  have written (f : Rmcb → Far) : Function.update (Function.update (Function.update f .io io) .ms ms)
      .ps2ms ps2ms = Function.update (Function.update (fun _ => io) .ms ms) .ps2ms ps2ms := by
    funext n
    cases n <;> rfl
  refine (first.bind (second.bind (third.bind (Does.quiet (moves_pure ()) _)))).congr rfl ?_
  simp only [Holdings.setTop_setTop, written, id]

theorem does_setupRmcbs (base : Dword) (s : State σ) : ∃ (sel : Word) (cbks : Rmcb → Far),
    Does b (setupRmcbs h base) s ((⟨.selector sel, b⟩ :: callbackGrants b cbks).map .acquire)
      (·.setTop fun o => { o with rmcbSel := sel, rmcbs := cbks, rmcbAlloced := true }) := by
  have named (sel : Word) (u : State σ) : Does b (setClient fun c => { c with rmcbSel := sel }) u []
      (·.setTop fun o => { o with rmcbSel := sel }) := does_setClient b (fun _ => rfl) u
  have marked (u : State σ) : Does b (setClient fun c => { c with rmcbAlloced := true }) u []
      (·.setTop fun o => { o with rmcbAlloced := true }) := does_setClient b (fun _ => rfl) u
  choose cbks called using fun sel (u : State σ) => does_callbacksInit h b sel u
  refine ⟨result (allocateDescriptors h 1) s, ?_⟩
  apply Exists.intro
  refine Does.congr
    (Does.bind (does_allocateDescriptors h b 1 s) <|
      Does.bind (named _ _) <|
      Does.after (quiet_setSegmentBaseAddress _ _) <|
      Does.after (quiet_setSegmentLimit _ _) <|
      Does.bind (called _ _) (marked _)) rfl ?_
  simp only [Holdings.setTop_setTop, id]

theorem does_initRmcbs_own {is32 : Bool} {s : State σ} (owns : ownsRmcbs s is32 = true) :
    ∃ (sel : Word) (cbks : Rmcb → Far), Does b (initRmcbs h is32) s
      ((⟨.selector sel, b⟩ :: callbackGrants b cbks).map .acquire)
      (·.setTop fun o => { o with rmcbSel := sel, rmcbs := cbks, rmcbAlloced := true }) := by
  have chosen : final (initRmcbs h is32) s =
      final (msdosMalloc h rmcsSize >>= fun base => setupRmcbs h base) s := by
    rw [initRmcbs, final_bind, final_reads, result_reads, final_ite, id, if_pos owns]
  obtain ⟨sel, cbks, does⟩ := does_setupRmcbs h b (result (msdosMalloc h rmcsSize) s)
    (final (msdosMalloc h rmcsSize) s)
  exact ⟨sel, cbks, Does.of_final chosen (Does.after (quiet_msdosMalloc _) does)⟩

theorem does_initRmcbs_shared {is32 : Bool} {s : State σ} (shares : ¬ownsRmcbs s is32 = true) :
    Does b (initRmcbs h is32) s []
      (·.setTop fun o => { o with rmcbs := (s.clients (s.clientNum - 2)).rmcbs }) := by
  have chosen : final (initRmcbs h is32) s =
      final (setClient fun c => { c with rmcbs := (s.clients (s.clientNum - 2)).rmcbs }) s := by
    rw [initRmcbs, final_bind, final_reads, result_reads, final_ite, id, if_neg shares]
  exact Does.of_final chosen (does_setClient b (fun _ => rfl) s)

/-- The alias that the clients share: the first one obtains it. -/
theorem does_msdosLdtInit (num : Nat) (s : State σ) : ∃ ldt,
    result (msdosLdtInit h num) s = ldt ∧ (1 < num → ldt = s.dpmiLdtAlias) ∧
      Does b (msdosLdtInit h num) s (if 1 < num then [] else [.acquire ⟨.selector ldt, b⟩])
        (fun g => { g with ldtAlias := ldt }) := by
  by_cases later : 1 < num
  · refine ⟨s.dpmiLdtAlias, ?_, fun _ => rfl, ?_⟩
    · rw [msdosLdtInit, if_pos later, result_reads]
    · rw [if_pos later, Does, msdosLdtInit, if_pos later, List.append_nil]
      rfl
  · have refused (u : State σ) (sel : Word) : Does b
        (updates fun s : State σ => { s with dpmiLdtAlias := sel }) u []
        (fun g => { g with ldtAlias := sel }) := Prod.ext (List.append_nil _).symm rfl
    refine ⟨result (allocateDescriptors h 1) s, ?_, fun other => absurd other later, ?_⟩
    · rw [msdosLdtInit, if_neg later, result_bind, result_bind]
      split
      next none => exact none.symm
      next => rfl
    · rw [if_neg later]
      unfold msdosLdtInit
      rw [if_neg later]
      refine Does.congr (Does.bind (does_allocateDescriptors h b 1 s) <|
        Does.bind (refused _ _) (Does.quiet (Moves.ite (fun _ => moves_pure _) fun _ => ?_) _)) rfl rfl
      refine Moves.bind (quiet_setSegmentLimit _ _) fun _ => Moves.bind (moves_reads _) fun ptr => ?_
      exact Moves.bind (quiet_setSegmentBaseAddress _ _) fun _ => moves_pure _

theorem does_initAliases (s : State σ) : ∃ ldt winos2, (1 < s.clientNum → ldt = s.dpmiLdtAlias) ∧
    Does b (initAliases h) s
      ((if 1 < s.clientNum then [] else [.acquire ⟨.selector ldt, b⟩]) ++
        [.acquire ⟨.selector winos2, b⟩])
      (fun g => { g.setTop fun o => { o with ldtAlias := ldt, ldtAliasWinos2 := winos2 } with
        ldtAlias := ldt }) := by
  obtain ⟨ldt, named, shared, does⟩ := does_msdosLdtInit h b s.clientNum s
  have set (sel : Word) (u : State σ) : Does b (setClient fun c => { c with ldtAlias := sel }) u []
      (·.setTop fun o => { o with ldtAlias := sel }) := does_setClient b (fun _ => rfl) u
  have set' (sel : Word) (u : State σ) : Does b (setClient fun c => { c with ldtAliasWinos2 := sel }) u []
      (·.setTop fun o => { o with ldtAliasWinos2 := sel }) := does_setClient b (fun _ => rfl) u
  refine ⟨ldt, ?_⟩
  apply Exists.intro
  refine ⟨shared, ?_⟩
  unfold initAliases
  refine Does.after (moves_reads _) ?_
  refine Does.congr
    (Does.bind does <|
      Does.bind (set _ _) <|
      Does.bind (does_createAliasDescriptor h b _ _) <|
      Does.bind (set' _ _) <|
      Does.after (quiet_setDescriptorAccessRights _ _) <|
      Does.quiet (quiet_setSegmentLimit _ _) _) rfl ?_
  funext g
  simp only [final_reads, result_reads, named, Holdings.setTop_setTop, id]
  rfl

/-- A new client `o`: what it was granted is its own, or the alias if it is the first. Its callbacks are
its own, or those of a client of its bitness below. -/
structure Holdings.Starts (g : Holdings) (o : Owner) (ldt : Word) (grants : List Grant) : Prop where
  grants : grants.Perm (o.owned ++ if g.num = 0 then [o.selector ldt] else [])
  ldtAlias : o.ldtAlias = ldt
  shared : g.num ≠ 0 → ldt = g.ldtAlias
  callbacks : o.rmcbAlloced = true ∨ g.num ≠ 0 ∧ g.top.is32 = o.is32 ∧ o.rmcbs = g.top.rmcbs
  segSels : o.segSelMap = fun _ => ⟨0, 0, 0⟩

def Holdings.push (g : Holdings) (o : Owner) (ldt : Word) : Holdings where
  num := g.num + 1
  owner := Function.update g.owner g.num o
  ldtAlias := ldt

theorem Owner.owned_of_empty {o : Owner} (none : o.segSelMap = fun _ => ⟨0, 0, 0⟩) :
    o.owned = o.callbacks ++ [o.selector o.ldtAliasWinos2] := by
  have unused : used SegSel.inUse o.segSelMap = [] := by
    apply used_of_forall
    intro i
    rw [none]
    rfl
  rw [owned, segSels, unused, List.map_nil, List.nil_append]

@[simp] theorem Holdings.push_setTop (g : Holdings) (o : Owner) (ldt : Word) (f : Owner → Owner) :
    (g.push o ldt).setTop f = g.push (f o) ldt := by
  simp only [setTop, top, push, Nat.add_sub_cancel, Function.update_self, Function.update_idem]

theorem holdings_enter (s : State σ) (is32 : Bool) (mseg : Word) :
    holdings (final (setClient fun _ => { MsdosStruct.zero with is32 := is32, lowmemSeg := mseg })
      { s with clientNum := s.clientNum + 1 }) =
      (holdings s).push (Owner.empty is32) s.dpmiLdtAlias := by
  simp only [holdings, Holdings.push, setClient, State.withClient, final_updates, Nat.add_sub_cancel,
    Holdings.mk.injEq, true_and, and_true]
  funext j
  rw [Function.update_apply, Function.update_apply]
  split <;> rfl

theorem books_initAliases {b : Bool} {v : State σ} {log : List (Entry Resource Grant)} {g : Holdings}
    {o : Owner} (pushed : books b v = (log, g.push o g.ldtAlias)) (same : o.is32 = b) :
    ∃ ldt winos2, (g.num ≠ 0 → ldt = g.ldtAlias) ∧ books b (final (initAliases h) v) =
      (log ++ ((if g.num = 0 then [o.selector ldt] else []) ++ [o.selector winos2]).map .acquire,
        g.push { o with ldtAlias := ldt, ldtAliasWinos2 := winos2 } ldt) := by
  obtain ⟨ldt, winos2, shared, does⟩ := does_initAliases h b v
  have num : v.clientNum = g.num + 1 := congrArg (fun p => p.2.num) pushed
  have kept : v.dpmiLdtAlias = g.ldtAlias := congrArg (fun p => p.2.ldtAlias) pushed
  rw [num, kept] at shared
  rw [Does, pushed, num] at does
  refine ⟨ldt, winos2, fun later => shared (by omega), does.trans ?_⟩
  rw [Holdings.push_setTop, ← same]
  by_cases first : g.num = 0
  · rw [first]
    rfl
  · rw [if_pos (by omega), if_neg first]
    rfl

theorem starts_initAliases {b : Bool} {v : State σ} {log : List (Entry Resource Grant)} {g : Holdings}
    {o : Owner} {own : List Grant}
    (pushed : books b v = (log ++ own.map .acquire, g.push o g.ldtAlias)) (same : o.is32 = b)
    (owned : own.Perm o.callbacks) (none : o.segSelMap = fun _ => ⟨0, 0, 0⟩)
    (callbacks : o.rmcbAlloced = true ∨ g.num ≠ 0 ∧ g.top.is32 = o.is32 ∧ o.rmcbs = g.top.rmcbs) :
    ∃ o' ldt grants,
      books b (final (initAliases h) v) = (log ++ grants.map .acquire, g.push o' ldt) ∧
      o'.is32 = b ∧ g.Starts o' ldt grants := by
  obtain ⟨ldt, winos2, shared, aliases⟩ := books_initAliases h pushed same
  let o' : Owner := { o with ldtAlias := ldt, ldtAliasWinos2 := winos2 }
  let shares : List Grant := if g.num = 0 then [o.selector ldt] else []
  have whole : o'.owned = o.callbacks ++ [o.selector winos2] := Owner.owned_of_empty (o := o') none
  have grants : (own ++ (shares ++ [o.selector winos2])).Perm (o'.owned ++ shares) := by
    rw [whole, List.append_assoc]
    exact owned.append List.perm_append_comm
  rw [List.append_assoc, ← List.map_append] at aliases
  exact ⟨o', ldt, _, aliases, same, grants, rfl, shared, callbacks, none⟩

theorem below_of_shares {u : State σ} {g : Holdings} {is32 : Bool} {o : Owner} {ldt : Word}
    (records : holdings u = g.push o ldt) (shares : ¬ownsRmcbs u is32 = true) :
    g.num ≠ 0 ∧ (u.clients (u.clientNum - 2)).owner = g.top ∧ g.top.is32 = is32 := by
  have num : u.clientNum = g.num + 1 := congrArg Holdings.num records
  have owner (j : Nat) : (u.clients j).owner = (g.push o ldt).owner j :=
    congrArg (fun g => g.owner j) records
  simp only [ownsRmcbs, Bool.or_eq_true, decide_eq_true_eq, not_or, not_not] at shares
  obtain ⟨later, same⟩ := shares
  have lower : u.clientNum - 2 = g.num - 1 := by omega
  have below : (u.clients (u.clientNum - 2)).owner = g.top := by
    rw [lower, owner]
    exact Function.update_of_ne (by omega) _ _
  exact ⟨by omega, below, by rw [← below]; exact same⟩

theorem books_msdosInit (is32 : Bool) (mseg : Word) (s : State σ) : ∃ o ldt grants,
    books is32 (final (msdosInit h is32 mseg) s) =
      ((books is32 s).1 ++ grants.map .acquire, (holdings s).push o ldt) ∧
    o.is32 = is32 ∧ (holdings s).Starts o ldt grants := by
  rw [msdosInit, final_bind, final_bind, final_bind, final_bind]
  generalize entered : final (convertEnv h) _ = u
  have start : books is32 u =
      ((books is32 s).1, (holdings s).push (Owner.empty is32) (holdings s).ldtAlias) := by
    rw [← entered]
    exact (quiet_convertEnv _).trans (Prod.ext rfl (holdings_enter s is32 mseg))
  have records : holdings u = (holdings s).push (Owner.empty is32) (holdings s).ldtAlias :=
    congrArg Prod.snd start
  by_cases owns : ownsRmcbs u is32 = true
  · obtain ⟨sel, cbks, does⟩ := does_initRmcbs_own h is32 owns
    rw [Does, start, Holdings.push_setTop] at does
    apply starts_initAliases h does rfl _ rfl (.inl rfl)
    exact (List.perm_append_comm : ([_] ++ _).Perm _)
  · have does := does_initRmcbs_shared h is32 owns
    rw [Does, start, Holdings.push_setTop] at does
    obtain ⟨later, below, same⟩ := below_of_shares records owns
    have rmcbs := congrArg Owner.rmcbs below
    rw [← List.map_nil (f := Entry.acquire)] at does
    exact starts_initAliases h does rfl (List.Perm.refl _) rfl (.inr ⟨later, same, rmcbs⟩)

/-! ## Conversion -/

theorem does_fillSegSel (segment sel : Word) (limit : Dword) (i : Fin MAX_CNVS) (s : State σ) :
    Does b (do
      setSegmentBaseAddress h sel (zext segment <<< 4)
      setSegmentLimit h sel limit
      setDescriptorAccessRights h sel 0xf2
      setClient fun c => { c with segSelMap := Function.update c.segSelMap i ⟨segment, sel, limit⟩ }
      pure sel) s []
      (·.setTop fun o => { o with segSelMap := Function.update o.segSelMap i ⟨segment, sel, limit⟩ }) := by
  have set (u : State σ) : Does b (setClient fun c =>
      { c with segSelMap := Function.update c.segSelMap i ⟨segment, sel, limit⟩ }) u []
      (·.setTop fun o => { o with segSelMap := Function.update o.segSelMap i ⟨segment, sel, limit⟩ }) :=
    does_setClient b (fun _ => rfl) u
  exact Does.congr
    (Does.after (quiet_setSegmentBaseAddress _ _) <|
      Does.after (quiet_setSegmentLimit _ _) <|
      Does.after (quiet_setDescriptorAccessRights _ _) <|
      Does.bind (set _) (Does.quiet (moves_pure _) _)) rfl rfl

/-- A conversion obtains a selector for a free slot, unless it finds one or the map is full. -/
theorem books_convertSegmentToDescriptorLim (segment : Word) (limit : Dword) (s : State σ) :
    books b (final (convertSegmentToDescriptorLim h segment limit) s) = books b s ∨
      books b (final (convertSegmentToDescriptorLim h segment limit) s) =
        ((books b s).1 ++ [.acquire ⟨.selector 0, b⟩], holdings s) ∨
      ∃ sel i, sel ≠ 0 ∧ segSelSlot s.client.segSelMap segment limit = some i ∧
        (s.client.segSelMap i).sel = 0 ∧
        books b (final (convertSegmentToDescriptorLim h segment limit) s) =
          ((books b s).1 ++ [.acquire ⟨.selector sel, b⟩], (holdings s).setTop fun o =>
            { o with segSelMap := Function.update o.segSelMap i ⟨segment, sel, limit⟩ }) := by
  rw [convertSegmentToDescriptorLim, final_bind, final_reads, result_reads]
  cases slot : segSelSlot s.client.segSelMap segment limit with
  | none => exact .inl rfl
  | some i =>
    dsimp only
    by_cases given : (s.client.segSelMap i).sel ≠ 0
    · left
      rw [if_pos given]
      rfl
    right
    have got := does_allocateDescriptors h b 1 s
    rw [if_neg given, final_bind]
    by_cases none : result (allocateDescriptors h 1) s = 0
    · left
      rw [none] at got
      rw [if_pos none]
      exact got
    right
    refine ⟨result (allocateDescriptors h 1) s, i, none, rfl, not_not.mp given, ?_⟩
    rw [if_neg none]
    have filled := does_fillSegSel h b segment (result (allocateDescriptors h 1) s) limit i
      (final (allocateDescriptors h 1) s)
    rw [Does, got, List.append_nil] at filled
    exact filled

theorem holdings_convertSegmentToDescriptorLim (segment : Word) (limit : Dword) (s : State σ) :
    let after := holdings (final (convertSegmentToDescriptorLim h segment limit) s)
    after.num = s.clientNum ∧ after.ldtAlias = s.dpmiLdtAlias ∧
      ∀ j, ∃ map, after.owner j = { (holdings s).owner j with segSelMap := map } := by
  intro after
  have kept (same : after = holdings s) : after.num = s.clientNum ∧ after.ldtAlias = s.dpmiLdtAlias ∧
      ∀ j, ∃ map, after.owner j = { (holdings s).owner j with segSelMap := map } := by
    rw [same]
    exact ⟨rfl, rfl, fun j => ⟨((holdings s).owner j).segSelMap, rfl⟩⟩
  rcases books_convertSegmentToDescriptorLim h false segment limit s with
    same | same | ⟨sel, i, _, _, _, filled⟩
  · exact kept (congrArg Prod.snd same)
  · exact kept (congrArg Prod.snd same)
  · rw [show after = _ from congrArg Prod.snd filled]
    exact ⟨rfl, rfl, (holdings s).owner_setTop (Function.update · i ⟨segment, sel, limit⟩)⟩

/-! ## End -/

def releases (grants : List Grant) : List (Entry Resource Grant) :=
  (grants.map Grant.name).map .release

theorem releases_append (first second : List Grant) :
    releases (first ++ second) = releases first ++ releases second := by
  rw [releases, List.map_append, List.map_append]
  rfl

theorem does_callbacksDone (cbks : Rmcb → Far) (s : State σ) :
    Does b (callbacksDone h cbks) s (releases (callbackGrants b cbks)) id :=
  Does.congr
    (Does.bind (does_hostCall h b (.freeRealModeCallback (cbks .io)) _) <|
      Does.bind (does_hostCall h b (.freeRealModeCallback (cbks .ms)) _) <|
      Does.bind (does_hostCall h b (.freeRealModeCallback (cbks .ps2ms)) _)
        (Does.quiet (moves_pure ()) _)) rfl rfl

theorem does_callbacks (s : State σ) :
    Does b (onlyIf s.client.rmcbAlloced (do
      callbacksDone h s.client.rmcbs
      freeDescriptor h s.client.rmcbSel)) s (releases s.client.owner.callbacks) id := by
  by_cases own : s.client.owner.rmcbAlloced = true
  · have named : releases s.client.owner.callbacks =
        releases (callbackGrants b s.client.rmcbs) ++ [.release (.selector s.client.rmcbSel)] := by
      rw [Owner.callbacks, if_pos own, releases_append]
      rfl
    change s.client.rmcbAlloced = true at own
    rw [named, onlyIf, if_pos own]
    exact Does.bind (does_callbacksDone h b _ _) (does_freeDescriptor h b _ _)
  · have none : releases s.client.owner.callbacks = [] := by
      rw [Owner.callbacks, if_neg own]
      rfl
    change ¬s.client.rmcbAlloced = true at own
    rw [none, onlyIf, if_neg own]
    exact Does.quiet (moves_pure _) s

theorem Holdings.setTop_id (g : Holdings) : g.setTop (fun o => o) = g := by
  simp only [setTop, top, Function.update_eq_self]

theorem does_freeSegSels {slots : List (Fin MAX_CNVS)} (nodup : slots.Nodup) (s : State σ) :
    ∃ clear : (Fin MAX_CNVS → SegSel) → Fin MAX_CNVS → SegSel,
      Does b (freeSegSels h slots) s
        (((slots.map s.client.segSelMap).takeWhile SegSel.inUse).map fun m => .release (.selector m.sel))
        (·.setTop fun o => { o with segSelMap := clear o.segSelMap }) := by
  induction slots generalizing s with
  | nil =>
    refine ⟨id, (Does.quiet (moves_pure _) s).congr rfl ?_⟩
    funext g
    exact g.setTop_id.symm
  | cons i rest ih =>
    obtain ⟨other, nodup⟩ := List.nodup_cons.mp nodup
    by_cases inUse : (s.client.segSelMap i).inUse = true
    · let m : SegSel := s.client.segSelMap i
      let u := final (freeDescriptor h m.sel) s
      let v := final (setClient fun c =>
        { c with segSelMap := Function.update c.segSelMap i { c.segSelMap i with sel := 0 } }) u
      have cleared : v.client = { s.client with
          segSelMap := Function.update s.client.segSelMap i { s.client.segSelMap i with sel := 0 } } :=
        State.client_withClient (fun c =>
          { c with segSelMap := Function.update c.segSelMap i { c.segSelMap i with sel := 0 } }) u
      have others : rest.map v.client.segSelMap = rest.map s.client.segSelMap := by
        rw [cleared]
        apply List.map_congr_left
        intro j member
        apply Function.update_of_ne
        rintro rfl
        exact other member
      obtain ⟨clear, swept⟩ := ih nodup v
      rw [others] at swept
      refine ⟨fun map => clear (Function.update map i { map i with sel := 0 }), ?_⟩
      have set (u : State σ) : Does b (setClient fun c =>
          { c with segSelMap := Function.update c.segSelMap i { c.segSelMap i with sel := 0 } }) u []
          (·.setTop fun o =>
            { o with segSelMap := Function.update o.segSelMap i { o.segSelMap i with sel := 0 } }) :=
        does_setClient b (fun _ => rfl) u
      have chosen : final (freeSegSels h (i :: rest)) s = final (do
          freeDescriptor h m.sel
          setClient fun c =>
            { c with segSelMap := Function.update c.segSelMap i { c.segSelMap i with sel := 0 } }
          freeSegSels h rest) s := by
        rw [freeSegSels, final_bind, final_reads, result_reads, final_onlyIf]
        exact if_pos inUse
      rw [List.map_cons, List.takeWhile_cons_of_pos inUse]
      refine Does.of_final chosen (Does.congr
        (Does.bind (does_freeDescriptor h b _ s) (Does.bind (set _) swept)) rfl ?_)
      funext g
      exact Holdings.setTop_setTop g _ _
    · have chosen : final (freeSegSels h (i :: rest)) s = s := by
        rw [freeSegSels, final_bind, final_reads, result_reads, final_onlyIf]
        exact if_neg inUse
      refine ⟨id, ?_⟩
      rw [List.map_cons, List.takeWhile_cons_of_neg inUse, Does, chosen]
      exact Prod.ext (List.append_nil _).symm (Holdings.setTop_id _).symm

theorem does_msdosFreeDescriptors {s : State σ} (packed : (holdings s).top.Packed) :
    ∃ clear : (Fin MAX_CNVS → SegSel) → Fin MAX_CNVS → SegSel, Does b (msdosFreeDescriptors h) s
      (releases ((holdings s).top.segSels ++ [(holdings s).top.selector (holdings s).top.ldtAliasWinos2]))
      (·.setTop fun o => { o with segSelMap := clear o.segSelMap }) := by
  obtain ⟨clear, swept⟩ := does_freeSegSels h b (List.nodup_finRange MAX_CNVS) s
  refine ⟨clear, ?_⟩
  have kept : (final (freeSegSels h (List.finRange MAX_CNVS)) s).client.ldtAliasWinos2 =
      (holdings s).top.ldtAliasWinos2 := by
    have records : holdings (final (freeSegSels h (List.finRange MAX_CNVS)) s) =
        (holdings s).setTop fun o => { o with segSelMap := clear o.segSelMap } := congrArg Prod.snd swept
    change (holdings (final (freeSegSels h (List.finRange MAX_CNVS)) s)).top.ldtAliasWinos2 = _
    rw [records, Holdings.top_setTop]
  unfold msdosFreeDescriptors
  refine Does.congr (Does.bind swept (Does.after (moves_reads _) (does_freeDescriptor h b _ _))) ?_ rfl
  have whole : ((List.finRange MAX_CNVS).map s.client.segSelMap).takeWhile SegSel.inUse =
      used SegSel.inUse (holdings s).top.segSelMap := takeWhile_used packed
  rw [whole, releases_append, result_reads, kept, releases, Owner.segSels, List.map_map, List.map_map]
  rfl

theorem does_msdosLdtDone_last {s : State σ} {num : Nat} (last : ¬1 < num)
    (given : s.dpmiLdtAlias ≠ 0) : Does b (msdosLdtDone h num) s
      [.release (.selector s.dpmiLdtAlias)] (fun g => { g with ldtAlias := 0 }) := by
  have clear (u : State σ) : Does b (updates fun s : State σ => { s with dpmiLdtAlias := 0 }) u []
      (fun g => { g with ldtAlias := 0 }) := Prod.ext (List.append_nil _).symm rfl
  have chosen : final (msdosLdtDone h num) s = final (do
      updates fun s : State σ => { s with dpmiLdtAlias := 0 }
      freeDescriptor h s.dpmiLdtAlias) s := by
    rw [msdosLdtDone, final_bind, final_reads, result_reads, final_onlyIf]
    exact if_pos (decide_eq_true ⟨last, given⟩)
  exact Does.of_final chosen
    (Does.congr (Does.bind (clear _) (does_freeDescriptor h b _ _)) rfl rfl)

theorem quiet_msdosLdtDone {num : Nat} (later : 1 < num) :
    Moves (Keeps (books b)) (msdosLdtDone h num) := by
  refine Moves.bind (moves_reads _) fun sel => Moves.onlyIf fun last => ?_
  simp [later] at last

theorem does_msdosLdtDone {s : State σ} (given : s.dpmiLdtAlias ≠ 0) :
    Does b (msdosLdtDone h s.clientNum) s
      (releases (if 1 < s.clientNum then [] else [(holdings s).top.selector s.dpmiLdtAlias]))
      (fun g => { g with ldtAlias := if 1 < s.clientNum then g.ldtAlias else 0 }) := by
  by_cases later : 1 < s.clientNum
  · simp only [if_pos later]
    exact Does.quiet (quiet_msdosLdtDone h b later) s
  · simp only [if_neg later]
    exact does_msdosLdtDone_last h b later given

def Holdings.freed (g : Holdings) : List Grant :=
  g.top.callbacks ++ ((if 1 < g.num then [] else [g.top.selector g.ldtAlias]) ++
    (g.top.segSels ++ [g.top.selector g.top.ldtAliasWinos2]))

theorem books_doneDescriptors {s : State σ} (packed : (holdings s).top.Packed)
    (given : s.dpmiLdtAlias ≠ 0) : ∃ clear : (Fin MAX_CNVS → SegSel) → Fin MAX_CNVS → SegSel,
      books b (final (doneDescriptors h) s) = ((books b s).1 ++ releases (holdings s).freed,
        { (holdings s).setTop fun o => { o with segSelMap := clear o.segSelMap } with
          ldtAlias := if 1 < s.clientNum then s.dpmiLdtAlias else 0 }) := by
  have first := does_callbacks h b s
  obtain ⟨u, callbacks⟩ : ∃ u, final (onlyIf s.client.rmcbAlloced (do
      callbacksDone h s.client.rmcbs
      freeDescriptor h s.client.rmcbSel)) s = u := ⟨_, rfl⟩
  have split : final (doneDescriptors h) s = final (msdosFreeDescriptors h)
      (final (msdosLdtDone h (final (restoreEnv h) u).clientNum) (final (restoreEnv h) u)) := by
    rw [← callbacks]
    rfl
  rw [Does, callbacks] at first
  have restored := quiet_restoreEnv (h := h) (b := b) u
  rw [split]
  generalize final (restoreEnv h) u = v at restored ⊢
  have before : books b v = ((books b s).1 ++ releases (holdings s).top.callbacks, holdings s) :=
    restored.trans first
  have records : holdings v = holdings s := congrArg Prod.snd before
  have num : v.clientNum = s.clientNum := congrArg Holdings.num records
  have ldt : v.dpmiLdtAlias = s.dpmiLdtAlias := congrArg Holdings.ldtAlias records
  have shared := does_msdosLdtDone h b (s := v) (by rwa [ldt])
  rw [Does, before, records, num, ldt] at shared
  rw [num]
  generalize final (msdosLdtDone h s.clientNum) v = w at shared ⊢
  have later : holdings w = { holdings s with ldtAlias := if 1 < s.clientNum then s.dpmiLdtAlias else 0 } :=
    congrArg Prod.snd shared
  have own : (holdings w).top = (holdings s).top := by
    rw [later]
    rfl
  obtain ⟨clear, last⟩ := does_msdosFreeDescriptors h b (s := w) (by rwa [own])
  refine ⟨clear, last.trans ?_⟩
  rw [shared, own]
  refine Prod.ext ?_ rfl
  simp only [Holdings.freed, releases_append, List.append_assoc]
  rfl

/-- A client that is done gives back what it owns, the last one the shared alias too; the records stay,
but for its own segment map. -/
theorem books_msdosDone {s : State σ} (packed : (holdings s).top.Packed) (given : s.dpmiLdtAlias ≠ 0) :
    ∃ g, books b (final (msdosDone h) s) = ((books b s).1 ++ releases (holdings s).freed, g) ∧
      g.num = s.clientNum - 1 ∧ (1 < s.clientNum → g.ldtAlias = s.dpmiLdtAlias) ∧
      (∀ j < s.clientNum - 1, g.owner j = (holdings s).owner j) ∧
      ∀ j, ∃ map, g.owner j = { (holdings s).owner j with segSelMap := map } := by
  obtain ⟨clear, done⟩ := books_doneDescriptors h b packed given
  rw [msdosDone, final_bind, final_bind, final_updates]
  generalize final (doneDescriptors h) s = u at done ⊢
  have swept := quiet_msdosFreeMem (h := h) (b := b) u
  generalize final (msdosFreeMem h) u = v at swept ⊢
  have whole := Eq.trans swept done
  obtain ⟨log, records⟩ := Prod.ext_iff.mp whole
  change holdings v = _ at records
  refine ⟨{ holdings v with num := v.clientNum - 1 }, Prod.ext log rfl, ?_, ?_, ?_, ?_⟩
  · change v.clientNum - 1 = _
    rw [show v.clientNum = s.clientNum from congrArg Holdings.num records]
  · intro later
    have kept : v.dpmiLdtAlias = if 1 < s.clientNum then s.dpmiLdtAlias else 0 :=
      congrArg Holdings.ldtAlias records
    rwa [if_pos later] at kept
  · intro j below
    change (holdings v).owner j = _
    rw [records]
    exact Function.update_of_ne (by simp only [holdings]; omega) _ _
  · intro j
    change ∃ map, (holdings v).owner j = { (holdings s).owner j with segSelMap := map }
    rw [records]
    exact (holdings s).owner_setTop clear j

/-! ## What one function did -/

def eventsOf {α : Type} (m : M σ α) (s : State σ) : List Event :=
  (final m s).trace.drop s.trace.length

def Appends (s t : State σ) : Prop := s.trace <+: t.trace

instance : IsPreorder (State σ) Appends where
  refl s := List.prefix_refl s.trace
  trans _ _ _ first second := List.IsPrefix.trans first second

theorem bookkeeping_appends : Bookkeeping h Appends where
  call := fun _ _ _ => List.prefix_append _ _
  memory := fun _ s => List.prefix_refl s.trace
  client := fun _ _ s => List.prefix_refl s.trace
  ldt := fun _ s => List.prefix_refl s.trace

theorem appends_setClient (f : MsdosStruct → MsdosStruct) : Moves Appends (setClient f : M σ Unit) :=
  fun s => List.prefix_refl s.trace

theorem appends_msdosInit (is32 : Bool) (mseg : Word) : Moves Appends (msdosInit h is32 mseg) := by
  have book := bookkeeping_appends h
  have malloc := Moves.msdosMalloc (h := h) (R := Appends) (fun _ _ => List.prefix_append _ _)
    (fun _ => appends_setClient _) rmcsSize
  refine Moves.bind (m := updates _) (fun s => List.prefix_refl s.trace) fun _ => ?_
  refine Moves.bind (appends_setClient _) fun _ => Moves.bind book.convertEnv fun _ => ?_
  refine Moves.bind (book.initRmcbs is32 malloc fun _ _ _ _ s => List.prefix_refl s.trace) fun _ => ?_
  exact book.initAliases

theorem appends_msdosDone : Moves Appends (msdosDone h) := by
  refine Moves.bind (bookkeeping_appends h).doneDescriptors fun _ => Moves.bind ?_ fun _ => ?_
  · exact Moves.msdosFreeMem (fun _ _ => List.prefix_append _ _) fun _ => appends_setClient _
  · exact fun s => List.prefix_refl s.trace

theorem resourceLog_eventsOf {α : Type} {m : M σ α} (appends : Moves Appends m) {s : State σ}
    {es : List (Entry Resource Grant)} (log : (books b (final m s)).1 = (books b s).1 ++ es) :
    resourceLog b (eventsOf m s) = es := by
  obtain ⟨added, whole⟩ := appends s
  have events : eventsOf m s = added := by
    rw [eventsOf, ← whole, List.drop_left]
  change resourceLog b (final m s).trace = resourceLog b s.trace ++ es at log
  rw [← whole, resourceLog, List.filterMap_append] at log
  rw [events]
  exact List.append_cancel_left log

end Pmdapi
