import Pmdapi.PostExtender
import Pmdapi.PreEffects
import Pmdapi.ResourceOwnership

/-! Whose data the API and XMS entry points work on. -/

namespace Pmdapi
open Bytes Effect Ledger

variable {σ : Type} (h : DpmiHost σ)

/-! ## What an entry point works on -/

def ApiUses (s : State σ) (sel : Word) : Prop :=
  (s.ops.apiCall, derefAlias s s.ops.apiArg) = (some .msdosApiCall, some sel)

def Winos2Uses (s : State σ) (sel : Word) : Prop :=
  (s.ops.apiWinos2Call, derefAlias s s.ops.apiWinos2Arg) = (some .msdosApiWinos2Call, some sel)

def XmsUses (s : State σ) (target : Far) : Prop :=
  (s.ops.xmsCall, derefXms s s.ops.xmsArg) = (some .xmsCall, some target)

theorem apiCallEntry_of_uses {s : State σ} {sel : Word} (uses : ApiUses s sel) :
    apiCallEntry s = setScp (msdosApiCall sel) s := by
  obtain ⟨handler, arg⟩ := Prod.ext_iff.mp uses
  change s.ops.apiCall = _ at handler
  change derefAlias s s.ops.apiArg = _ at arg
  simp only [apiCallEntry, bind, StateT.bind, reads, id, handler, arg]

theorem apiWinos2CallEntry_of_uses {s : State σ} {sel : Word} (uses : Winos2Uses s sel) :
    apiWinos2CallEntry s = setScp (msdosApiCall sel) s := by
  obtain ⟨handler, arg⟩ := Prod.ext_iff.mp uses
  change s.ops.apiWinos2Call = _ at handler
  change derefAlias s s.ops.apiWinos2Arg = _ at arg
  simp only [apiWinos2CallEntry, bind, StateT.bind, reads, id, handler, arg]

theorem xmsCallEntry_of_uses {s : State σ} {target : Far} (uses : XmsUses s target) :
    (final xmsCallEntry s).rmreg = (xmsCall s.scp target s.mem .zero).2 := by
  obtain ⟨handler, arg⟩ := Prod.ext_iff.mp uses
  change s.ops.xmsCall = _ at handler
  change derefXms s s.ops.xmsArg = _ at arg
  rw [xmsCallEntry, final_bind, final_reads, result_reads, id, handler, arg]
  rfl

theorem Winos2Uses.unique {s : State σ} {a b : Word} (one : Winos2Uses s a) (other : Winos2Uses s b) :
    a = b := Option.some.inj (congrArg Prod.snd (one.symm.trans other))

theorem XmsUses.unique {s : State σ} {a b : Far} (one : XmsUses s a) (other : XmsUses s b) : a = b :=
  Option.some.inj (congrArg Prod.snd (one.symm.trans other))

/-! ## What the clients obtained -/

/-- The entry points a client obtained, and the XMS entry that its last 4310h stored. -/
structure Obtained where
  api : Bool
  winos2 : Bool
  xms : Option Far

def Obtained.none : Obtained := ⟨false, false, Option.none⟩

def Obtained.entry (o : Obtained) : Far := o.xms.getD ⟨0, 0⟩

/-- How many clients run, what the latest client in each slot obtained, and the slots of those that
obtained each entry point last. -/
structure EntryOwners where
  depth : Nat
  latest : Nat → Obtained
  apiBy : Nat
  winos2By : Nat
  xmsBy : Nat

namespace EntryOwners

def none : EntryOwners := ⟨0, fun _ => .none, 0, 0, 0⟩

variable (g : EntryOwners)

def running : Obtained := g.latest (g.depth - 1)

def start : EntryOwners :=
  { g with depth := g.depth + 1, latest := Function.update g.latest g.depth .none }

def finish : EntryOwners := { g with depth := g.depth - 1 }

def withRunning (o : Obtained) : EntryOwners :=
  { g with latest := Function.update g.latest (g.depth - 1) o }

def obtainApi : EntryOwners := { g.withRunning { g.running with api := true } with apiBy := g.depth - 1 }

def obtainWinos2 : EntryOwners :=
  { g.withRunning { g.running with winos2 := true } with winos2By := g.depth - 1 }

def obtainXms (entry : Far) : EntryOwners :=
  { g.withRunning { g.running with xms := some entry } with xmsBy := g.depth - 1 }

end EntryOwners

def askedApi (s : State σ) : Option EntryPoint :=
  let ptr := selAdrClnt h s s.scp.ds .esi
  if stringAt s.mem ptr [0x4d, 0x53, 0x2d, 0x44, 0x4f, 0x53] then some .apiCall
  else if stringAt s.mem ptr [0x57, 0x49, 0x4e, 0x4f, 0x53, 0x32] then some .apiWinos2Call
  else none

/-- What an entry point depends on, the aliases apart: how many clients run, the XMS entry in each record,
and the function and the argument of each entry point. -/
structure EntryState where
  num : Nat
  xmsCall : Nat → Far
  api : Option OpsHandler × Option ClientRef
  winos2 : Option OpsHandler × Option ClientRef
  xms : Option OpsHandler × Option ClientRef

def entryState (s : State σ) : EntryState where
  num := s.clientNum
  xmsCall := fun j => (s.clients j).xmsCall
  api := (s.ops.apiCall, s.ops.apiArg)
  winos2 := (s.ops.apiWinos2Call, s.ops.apiWinos2Arg)
  xms := (s.ops.xmsCall, s.ops.xmsArg)

/-- Clients start, end and convert segments; the running one asks for entry points. The world may do what
leaves the records and the table alone. -/
inductive EntryStep : (State σ × List (Entry Resource Grant)) × EntryOwners →
    (State σ × List (Entry Resource Grant)) × EntryOwners → Prop where
  | init (p : State σ × List (Entry Resource Grant)) (g : EntryOwners) (is32 : Bool) (mseg : Word)
      (room : p.1.clientNum < DPMI_MAX_CLIENTS) :
      EntryStep (p, g) (noted is32 (msdosInit h is32 mseg) p, g.start)
  | done (p : State σ × List (Entry Resource Grant)) (g : EntryOwners) (running : 0 < p.1.clientNum) :
      EntryStep (p, g) (noted p.1.client.is32 (msdosDone h) p, g.finish)
  | convert (p : State σ × List (Entry Resource Grant)) (g : EntryOwners) (segment : Word)
      (limit : Dword) (running : 0 < p.1.clientNum) :
      EntryStep (p, g) (noted p.1.client.is32 (convertSegmentToDescriptorLim h segment limit) p, g)
  | api (s : State σ) (log : List (Entry Resource Grant)) (g : EntryOwners) (running : 0 < s.clientNum)
      (ax : s.scp.lword .eax = 0x168a) (asks : askedApi h s = some .apiCall) :
      EntryStep ((s, log), g) ((final (msdosPreExtender h 0x2f) s, log), g.obtainApi)
  | winos2 (s : State σ) (log : List (Entry Resource Grant)) (g : EntryOwners)
      (running : 0 < s.clientNum) (ax : s.scp.lword .eax = 0x168a)
      (asks : askedApi h s = some .apiWinos2Call) :
      EntryStep ((s, log), g) ((final (msdosPreExtender h 0x2f) s, log), g.obtainWinos2)
  | xms (s : State σ) (log : List (Entry Resource Grant)) (g : EntryOwners) (running : 0 < s.clientNum)
      (ax : s.scp.lword .eax = 0x4310) :
      EntryStep ((s, log), g) ((final (msdosPostExtender h 0x2f) s, log),
        g.obtainXms ⟨s.rmreg.lword .ebx, s.rmreg.es⟩)
  | world (s t : State σ) (log : List (Entry Resource Grant)) (g : EntryOwners)
      (same : holdings t = holdings s) (same' : entryState t = entryState s) :
      EntryStep ((s, log), g) ((t, log), g)

/-! ## Effects -/

theorem entryState_setClient {f : MsdosStruct → MsdosStruct} (keeps : ∀ c, (f c).xmsCall = c.xmsCall) :
    Moves (Keeps entryState) (setClient f : M σ Unit) := by
  intro s
  have same (j : Nat) : ((final (setClient f) s).clients j).xmsCall = (s.clients j).xmsCall := by
    simp only [setClient, State.withClient, final_updates, Function.update_apply]
    split
    next top => rw [keeps, top]; rfl
    next => rfl
  exact congrArg (fun x => { entryState s with xmsCall := x }) (funext same)

theorem bookkeeping_entryState : Bookkeeping h (Keeps entryState) where
  call := fun _ _ _ => rfl
  memory := fun _ _ => rfl
  client := fun _ own => entryState_setClient fun c => (congrArg MsdosStruct.xmsCall (own c)).trans rfl
  ldt := fun _ _ => rfl

def EntryState.start (e : EntryState) : EntryState :=
  { e with num := e.num + 1, xmsCall := Function.update e.xmsCall e.num ⟨0, 0⟩ }

theorem entryState_msdosInit (is32 : Bool) (mseg : Word) (s : State σ) :
    entryState (final (msdosInit h is32 mseg) s) = (entryState s).start := by
  have book := bookkeeping_entryState h
  have malloc : Moves (Keeps entryState) (msdosMalloc h rmcsSize) :=
    Moves.msdosMalloc (fun _ _ => rfl) (fun _ => entryState_setClient fun _ => rfl) _
  have aliases := book.initAliases
  have rmcbs := book.initRmcbs is32 malloc fun _ _ _ _ _ => rfl
  have record (u : State σ) (j : Nat) : ((final (setClient fun _ =>
      { MsdosStruct.zero with is32 := is32, lowmemSeg := mseg }) u).clients j).xmsCall =
      Function.update (fun j => (u.clients j).xmsCall) (u.clientNum - 1) ⟨0, 0⟩ j := by
    simp only [setClient, State.withClient, final_updates, Function.update_apply]
    split <;> rfl
  rw [msdosInit, final_bind, final_bind, final_bind, final_bind]
  refine (aliases _).trans ((rmcbs _).trans ((book.convertEnv _).trans ?_))
  exact congrArg (fun x => { (entryState s).start with xmsCall := x })
    (funext (record { s with clientNum := s.clientNum + 1 }))

theorem entryState_msdosDone (s : State σ) : entryState (final (msdosDone h) s) =
    { entryState s with num := s.clientNum - 1 } := by
  have done := (bookkeeping_entryState h).doneDescriptors s
  rw [msdosDone, final_bind, final_bind, final_updates]
  generalize final (doneDescriptors h) s = u at done
  have swept : Keeps entryState u (final (msdosFreeMem h) u) :=
    Moves.msdosFreeMem (fun _ _ => rfl) (fun _ => entryState_setClient fun _ => rfl) u
  generalize final (msdosFreeMem h) u = v at swept
  have whole : entryState v = entryState s := swept.trans done
  exact congrArg (fun e : EntryState => { e with num := e.num - 1 }) whole

theorem final_getExtApi {s : State σ} (ax : s.scp.lword .eax = 0x168a) :
    final (msdosPreExtender h 0x2f) s = final (getExtApi h) s.entered := by
  have unlisted : needXbuf 0x2f (s.scp.lword .eax) = false := by
    rw [ax]
    decide
  rw [preExtender_eq h unlisted rfl, ax]
  rfl

theorem getExtApi_api {s : State σ} (asks : askedApi h s = some .apiCall) :
    holdings (final (getExtApi h) s) = holdings s ∧ entryState (final (getExtApi h) s) =
      { entryState s with api := (some .msdosApiCall, some (.ldtAlias (s.clientNum - 1))) } := by
  unfold askedApi at asks
  dsimp only at asks
  split at asks
  next named =>
    rw [getExtApi, final_bind, final_reads, result_reads, final_bind, final_reads, result_reads, id,
      final_ite, if_pos named]
    exact ⟨rfl, rfl⟩
  next =>
    split at asks
    · cases asks
    · cases asks

theorem getExtApi_winos2 {s : State σ} (asks : askedApi h s = some .apiWinos2Call) :
    holdings (final (getExtApi h) s) = holdings s ∧ entryState (final (getExtApi h) s) =
      { entryState s with
        winos2 := (some .msdosApiWinos2Call, some (.ldtAliasWinos2 (s.clientNum - 1))) } := by
  unfold askedApi at asks
  dsimp only at asks
  split at asks
  next => cases asks
  next other =>
    split at asks
    next named =>
      rw [getExtApi, final_bind, final_reads, result_reads, final_bind, final_reads, result_reads, id,
        final_ite, if_neg other, final_ite, if_pos named]
      exact ⟨rfl, rfl⟩
    next => cases asks

theorem final_retXmsEntry {s : State σ} (ax : s.scp.lword .eax = 0x4310) :
    final (msdosPostExtender h 0x2f) s =
      final postRegs (final retXmsEntry { s with updateMask := ~~~0 }) := by
  have copies : final (postCopies h 0x2f 0x4310) s = { s with updateMask := ~~~0 } := by
    simp [postCopies, dtaCopyOut, copyDsegOut, copyEsegOut, needCopyDseg, needCopyEseg]
  have unlisted : needXbuf 0x2f 0x4310 = false := by decide
  rw [msdosPostExtender, final_bind, final_reads, result_reads, ax, final_bind, copies, final_bind,
    final_bind, unlisted]
  rfl

theorem retXmsEntry_state (s : State σ) :
    holdings (final postRegs (final retXmsEntry s)) = holdings s ∧
      entryState (final postRegs (final retXmsEntry s)) = { entryState s with
        xmsCall := Function.update (entryState s).xmsCall (s.clientNum - 1)
          ⟨s.rmreg.lword .ebx, s.rmreg.es⟩
        xms := (some .xmsCall, some (.xmsCall (s.clientNum - 1))) } := by
  have owner (j : Nat) : ((final (setClient fun c =>
      { c with xmsCall := ⟨s.rmreg.lword .ebx, s.rmreg.es⟩ }) s).clients j).owner = (s.clients j).owner := by
    simp only [setClient, State.withClient, final_updates, Function.update_apply]
    split
    next top => rw [top]; rfl
    next => rfl
  have entry (j : Nat) : ((final (setClient fun c =>
      { c with xmsCall := ⟨s.rmreg.lword .ebx, s.rmreg.es⟩ }) s).clients j).xmsCall =
      Function.update (fun j => (s.clients j).xmsCall) (s.clientNum - 1)
        ⟨s.rmreg.lword .ebx, s.rmreg.es⟩ j := by
    simp only [setClient, State.withClient, final_updates, Function.update_apply]
    split <;> rfl
  constructor
  · exact congrArg (fun f : Nat → Owner => (⟨s.clientNum, f, s.dpmiLdtAlias⟩ : Holdings)) (funext owner)
  · exact congrArg (fun x => { entryState s with
      xmsCall := x, xms := (some .xmsCall, some (.xmsCall (s.clientNum - 1))) }) (funext entry)

/-! ## The invariant -/

/-- The table holds the slot of the client that asked last, and the alias there is the asking client's if
it is shared, and another one if it is not the client's own slot. -/
structure Serves (records : Holdings) (e : EntryState) (g : EntryOwners) : Prop where
  num : records.num = g.depth ∧ e.num = g.depth
  entry : ∀ j, e.xmsCall j = (g.latest j).entry
  api : ∀ j < g.depth, (g.latest j).api = true →
    e.api = (some .msdosApiCall, some (.ldtAlias g.apiBy)) ∧
      (records.owner g.apiBy).ldtAlias = records.ldtAlias
  winos2 : ∀ j < g.depth, (g.latest j).winos2 = true →
    e.winos2 = (some .msdosApiWinos2Call, some (.ldtAliasWinos2 g.winos2By)) ∧
      (g.winos2By = j ∨
        (records.owner g.winos2By).ldtAliasWinos2 ≠ (records.owner j).ldtAliasWinos2)
  xms : ∀ j < g.depth, (g.latest j).xms ≠ none →
    e.xms = (some .xmsCall, some (.xmsCall g.xmsBy))

namespace Serves

variable {records : Holdings} {e : EntryState} {g : EntryOwners} {log : List (Entry Resource Grant)}

theorem loaded {s : State σ} (idle : s.clientNum = 0) (empty : ∀ j, (s.clients j).xmsCall = ⟨0, 0⟩) :
    Serves (holdings s) (entryState s) EntryOwners.none where
  num := ⟨idle, idle⟩
  entry := empty
  api := fun _ nobody => absurd nobody (Nat.not_lt_zero _)
  winos2 := fun _ nobody => absurd nobody (Nat.not_lt_zero _)
  xms := fun _ nobody => absurd nobody (Nat.not_lt_zero _)

/-- Segment maps do not matter, and the clients above the running one do not. -/
theorem lower {later : Holdings} {depth : Nat} (serves : Serves records e g) (below : depth ≤ g.depth)
    (num : later.num = depth) (shared : 0 < depth → later.ldtAlias = records.ldtAlias)
    (same : ∀ j, ∃ map, later.owner j = { records.owner j with segSelMap := map }) :
    Serves later { e with num := depth } { g with depth := depth } := by
  have own (j : Nat) : (later.owner j).ldtAlias = (records.owner j).ldtAlias ∧
      (later.owner j).ldtAliasWinos2 = (records.owner j).ldtAliasWinos2 := by
    obtain ⟨map, same⟩ := same j
    rw [same]
    exact ⟨rfl, rfl⟩
  refine ⟨⟨num, rfl⟩, serves.entry, ?_, ?_, fun j inside => serves.xms j (inside.trans_le below)⟩
  · intro j inside got
    rw [(own _).1, shared (Nat.zero_lt_of_lt inside)]
    exact serves.api j (inside.trans_le below) got
  · intro j inside got
    rw [(own _).2, (own _).2]
    exact serves.winos2 j (inside.trans_le below) got

/-- A new client asked for nothing, and its alias is the shared one or one of its own. -/
theorem start {o : Owner} {ldt : Word} {grants : List Grant} (serves : Serves records e g)
    (starts : records.Starts o ldt grants) (kept : Kept (records.push o ldt) log) :
    Serves (records.push o ldt) e.start g.start := by
  have num := serves.num.1
  have other (j : Nat) (inside : j ≠ g.depth) : g.start.latest j = g.latest j :=
    Function.update_of_ne inside _ _
  have top : g.start.latest g.depth = .none := Function.update_self _ _ _
  have asked (j : Nat) (inside : j < g.depth + 1) (some : g.start.latest j ≠ .none) :
      j < g.depth ∧ g.start.latest j = g.latest j := by
    have below : j ≠ g.depth := by
      rintro rfl
      exact some top
    exact ⟨by omega, other j below⟩
  have record (j : Nat) (inside : j ≠ records.num) : (records.push o ldt).owner j = records.owner j :=
    Function.update_of_ne inside _ _
  have last : (records.push o ldt).owner records.num = o := Function.update_self _ _ _
  refine ⟨⟨congrArg (· + 1) num, congrArg (· + 1) serves.num.2⟩, ?_, ?_, ?_, ?_⟩
  · intro j
    change Function.update e.xmsCall e.num ⟨0, 0⟩ j = (Function.update g.latest g.depth .none j).entry
    rw [serves.num.2, Function.update_apply, Function.update_apply]
    split
    · rfl
    · exact serves.entry j
  · intro j inside got
    obtain ⟨lower, same⟩ := asked j inside (fun none => by rw [none] at got; cases got)
    rw [same] at got
    obtain ⟨table, shared⟩ := serves.api j lower got
    refine ⟨table, ?_⟩
    change ((records.push o ldt).owner g.apiBy).ldtAlias = ldt
    by_cases new : g.apiBy = records.num
    · rw [new, last]
      exact starts.ldtAlias
    · rw [record _ new, shared]
      exact (starts.shared (by omega)).symm
  · intro j inside got
    obtain ⟨lower, same⟩ := asked j inside (fun none => by rw [none] at got; cases got)
    rw [same] at got
    obtain ⟨table, own⟩ := serves.winos2 j lower got
    refine ⟨table, ?_⟩
    change g.winos2By = j ∨ ((records.push o ldt).owner g.winos2By).ldtAliasWinos2 ≠
      ((records.push o ldt).owner j).ldtAliasWinos2
    by_cases new : g.winos2By = records.num
    · right
      rw [new]
      apply kept.apart (Nat.lt_succ_self _)
      · exact Nat.lt_succ_of_lt (num ▸ lower)
      · omega
    · rw [record _ new, record j (by omega)]
      exact own
  · intro j inside got
    obtain ⟨lower, same⟩ := asked j inside (fun none => by rw [none] at got; exact got rfl)
    rw [same] at got
    exact serves.xms j lower got

theorem latest_withRunning {β : Type} (part : Obtained → β) {o : Obtained} (keeps : part o = part g.running)
    (j : Nat) : part ((g.withRunning o).latest j) = part (g.latest j) := by
  change part (Function.update g.latest (g.depth - 1) o j) = _
  rw [Function.update_apply]
  split
  next top => rw [keeps, top]; rfl
  next => rfl

theorem obtainApi (serves : Serves records e g)
    (shared : (records.owner (g.depth - 1)).ldtAlias = records.ldtAlias) :
    Serves records { e with api := (some .msdosApiCall, some (.ldtAlias (g.depth - 1))) }
      g.obtainApi := by
  have same {β : Type} (part : Obtained → β)
      (keeps : part { g.running with api := true } = part g.running) (j : Nat) :
      part (g.obtainApi.latest j) = part (g.latest j) := latest_withRunning part keeps j
  refine ⟨serves.num, ?_, ?_, ?_, ?_⟩
  · intro j
    exact (serves.entry j).trans (same Obtained.entry rfl j).symm
  · intro j _ _
    exact ⟨rfl, shared⟩
  · intro j inside got
    exact serves.winos2 j inside ((same Obtained.winos2 rfl j).symm.trans got)
  · intro j inside got
    apply serves.xms j inside
    rwa [← same Obtained.xms rfl j]

theorem obtainWinos2 (serves : Serves records e g) (kept : Kept records log) :
    Serves records
      { e with winos2 := (some .msdosApiWinos2Call, some (.ldtAliasWinos2 (g.depth - 1))) }
      g.obtainWinos2 := by
  have same {β : Type} (part : Obtained → β)
      (keeps : part { g.running with winos2 := true } = part g.running) (j : Nat) :
      part (g.obtainWinos2.latest j) = part (g.latest j) := latest_withRunning part keeps j
  refine ⟨serves.num, ?_, ?_, ?_, ?_⟩
  · intro j
    exact (serves.entry j).trans (same Obtained.entry rfl j).symm
  · intro j inside got
    exact serves.api j inside ((same Obtained.api rfl j).symm.trans got)
  · intro j inside _
    refine ⟨rfl, ?_⟩
    change g.depth - 1 = j ∨ (records.owner (g.depth - 1)).ldtAliasWinos2 ≠ _
    by_cases top : g.depth - 1 = j
    · exact .inl top
    · right
      have num := serves.num.1
      change j < g.depth at inside
      exact kept.apart (by omega) (by omega) top
  · intro j inside got
    apply serves.xms j inside
    rwa [← same Obtained.xms rfl j]

theorem obtainXms (serves : Serves records e g) (entry : Far) :
    Serves records { e with
      xmsCall := Function.update e.xmsCall (g.depth - 1) entry
      xms := (some .xmsCall, some (.xmsCall (g.depth - 1))) } (g.obtainXms entry) := by
  have same {β : Type} (part : Obtained → β)
      (keeps : part { g.running with xms := some entry } = part g.running) (j : Nat) :
      part ((g.obtainXms entry).latest j) = part (g.latest j) := latest_withRunning part keeps j
  refine ⟨serves.num, ?_, ?_, ?_, ?_⟩
  · intro j
    change Function.update e.xmsCall (g.depth - 1) entry j =
      (Function.update g.latest (g.depth - 1) { g.running with xms := some entry } j).entry
    rw [Function.update_apply, Function.update_apply]
    split
    · rfl
    · exact serves.entry j
  · intro j inside got
    exact serves.api j inside ((same Obtained.api rfl j).symm.trans got)
  · intro j inside got
    exact serves.winos2 j inside ((same Obtained.winos2 rfl j).symm.trans got)
  · intro j _ _
    rfl

end Serves

/-! ## Runs -/

structure Inv (p : (State σ × List (Entry Resource Grant)) × EntryOwners) : Prop where
  kept : Kept (holdings p.1.1) p.1.2
  serves : Serves (holdings p.1.1) (entryState p.1.1) p.2

theorem Inv.answered {s t : State σ} {log : List (Entry Resource Grant)} {g later : EntryOwners}
    {e : EntryState} (old : Inv ((s, log), g)) (records : holdings t = holdings s)
    (entries : entryState t = e) (serves : Serves (holdings s) e later) : Inv ((t, log), later) where
  kept := by
    change Kept (holdings t) log
    rw [records]
    exact old.kept
  serves := by
    change Serves (holdings t) (entryState t) later
    rwa [records, entries]

theorem Inv.step (p q : (State σ × List (Entry Resource Grant)) × EntryOwners)
    (before : Generous p.1.2 → Inv p) (step : EntryStep h p q) (host : Generous q.1.2) : Inv q := by
  cases step with
  | init p g is32 mseg room =>
    have old := before host.of_append
    have kept := Kept.step h p _ (fun _ => old.kept) (.init p is32 mseg room) host
    obtain ⟨o, ldt, grants, after, _, starts⟩ := books_msdosInit h is32 mseg p.1
    have records := (noted_of_books (appends_msdosInit h is32 mseg) after).2
    refine ⟨kept, ?_⟩
    rw [records] at kept
    dsimp only
    rw [records, noted_fst, entryState_msdosInit]
    exact old.serves.start starts kept
  | done p g running =>
    have old := before host.of_append
    have kept := Kept.step h p _ (fun _ => old.kept) (.done p running) host
    obtain ⟨later, after, num, shared, _, same⟩ := books_msdosDone h p.1.client.is32 (s := p.1)
      (old.kept.packed (p.1.clientNum - 1) (Nat.sub_lt running one_pos)) (old.kept.given running)
    have records := (noted_of_books (appends_msdosDone h) after).2
    have depth : p.1.clientNum = g.depth := old.serves.num.1
    refine ⟨kept, ?_⟩
    dsimp only
    rw [records, noted_fst, entryState_msdosDone, depth]
    apply old.serves.lower (Nat.sub_le _ _) (num.trans (congrArg (· - 1) depth)) _ same
    intro some
    change 0 < g.depth - 1 at some
    exact shared (by omega)
  | convert p g segment limit running =>
    have old := before host.of_append
    have kept := Kept.step h p _ (fun _ => old.kept) (.convert p segment limit running) host
    have entries := (bookkeeping_entryState h).convertSegmentToDescriptorLim segment limit p.1
    obtain ⟨num, shared, same⟩ := holdings_convertSegmentToDescriptorLim h segment limit p.1
    refine ⟨kept, ?_⟩
    dsimp only
    rw [noted_fst, entries]
    have whole : { entryState p.1 with num := g.depth } = entryState p.1 :=
      congrArg (fun n => { entryState p.1 with num := n }) old.serves.num.2.symm
    rw [← whole]
    exact old.serves.lower le_rfl (num.trans old.serves.num.1) (fun _ => shared) same
  | api s log g running ax asks =>
    have old := before host
    have depth : s.clientNum = g.depth := old.serves.num.1
    obtain ⟨records, entries⟩ := getExtApi_api h (s := s.entered) asks
    rw [← final_getExtApi h ax] at records entries
    apply old.answered records entries
    change Serves (holdings s)
      { entryState s with api := (some .msdosApiCall, some (.ldtAlias (s.clientNum - 1))) } g.obtainApi
    rw [depth]
    apply old.serves.obtainApi (old.kept.ldtAlias _ _)
    change g.depth - 1 < s.clientNum
    omega
  | winos2 s log g running ax asks =>
    have old := before host
    have depth : s.clientNum = g.depth := old.serves.num.1
    obtain ⟨records, entries⟩ := getExtApi_winos2 h (s := s.entered) asks
    rw [← final_getExtApi h ax] at records entries
    apply old.answered records entries
    change Serves (holdings s) { entryState s with
      winos2 := (some .msdosApiWinos2Call, some (.ldtAliasWinos2 (s.clientNum - 1))) } g.obtainWinos2
    rw [depth]
    exact old.serves.obtainWinos2 old.kept
  | xms s log g running ax =>
    have old := before host
    have depth : s.clientNum = g.depth := old.serves.num.1
    obtain ⟨records, entries⟩ := retXmsEntry_state { s with updateMask := ~~~0 }
    rw [← final_retXmsEntry h ax] at records entries
    apply old.answered records entries
    change Serves (holdings s) { entryState s with
      xmsCall := Function.update (entryState s).xmsCall (s.clientNum - 1)
        ⟨s.rmreg.lword .ebx, s.rmreg.es⟩
      xms := (some .xmsCall, some (.xmsCall (s.clientNum - 1))) } _
    rw [depth]
    exact old.serves.obtainXms _
  | world s t log g same same' =>
    have old := before host
    apply old.answered same same'
    exact old.serves

theorem inv_of_run {s : State σ} {q : (State σ × List (Entry Resource Grant)) × EntryOwners}
    (idle : s.clientNum = 0) (empty : ∀ j, (s.clients j).xmsCall = ⟨0, 0⟩)
    (run : Relation.ReflTransGen (EntryStep h) ((s, []), EntryOwners.none) q)
    (host : Generous q.1.2) : Inv q := by
  have start : Generous [] → Inv ((s, ([] : List (Entry Resource Grant))), EntryOwners.none) :=
    fun _ => ⟨Kept.idle idle, Serves.loaded idle empty⟩
  exact invariant_of_run (I := fun p : (State σ × List (Entry Resource Grant)) × EntryOwners =>
    Generous p.1.2 → Inv p) (Inv.step h) start run host

/-! ## The law -/

structure ServesRunning (s : State σ) (log : List (Entry Resource Grant)) (g : EntryOwners) : Prop where
  api : g.running.api = true → ApiUses s s.client.ldtAlias
  winos2 : g.running.winos2 = true →
    (Winos2Uses s s.client.ldtAliasWinos2 ↔ g.winos2By = g.depth - 1)
  xms : ∀ entry, g.running.xms = some entry → (XmsUses s entry ↔ (g.latest g.xmsBy).entry = entry)
  held : .selector s.client.ldtAlias ∈ (held Grant.name log).map Grant.name ∧
    .selector s.client.ldtAliasWinos2 ∈ (held Grant.name log).map Grant.name

theorem Serves.running {s : State σ} {log : List (Entry Resource Grant)} {g : EntryOwners}
    (serves : Serves (holdings s) (entryState s) g) (kept : Kept (holdings s) log) (some : 0 < g.depth) :
    ServesRunning s log g := by
  have num : s.clientNum = g.depth := serves.num.1
  have top : g.depth - 1 < g.depth := by omega
  have own : s.client = s.clients (g.depth - 1) := by
    rw [State.client, num]
  have holds := kept.holdsItsOwn (j := g.depth - 1) (by omega)
  constructor
  · intro asked
    obtain ⟨table, shared⟩ := serves.api _ top asked
    obtain ⟨handler, arg⟩ := Prod.ext_iff.mp table
    change s.ops.apiCall = _ at handler
    change s.ops.apiArg = _ at arg
    change (s.clients g.apiBy).ldtAlias = s.dpmiLdtAlias at shared
    have alias' : (s.clients (g.depth - 1)).ldtAlias = s.dpmiLdtAlias :=
      kept.ldtAlias _ (by change _ < s.clientNum; omega)
    rw [ApiUses, handler, arg, own, alias', ← shared]
    rfl
  · intro asked
    obtain ⟨table, mine⟩ := serves.winos2 _ top asked
    obtain ⟨handler, arg⟩ := Prod.ext_iff.mp table
    change s.ops.apiWinos2Call = _ at handler
    change s.ops.apiWinos2Arg = _ at arg
    have uses : Winos2Uses s (s.clients g.winos2By).ldtAliasWinos2 := by
      rw [Winos2Uses, handler, arg]
      rfl
    rw [own]
    constructor
    · intro uses'
      exact mine.resolve_right (not_not.mpr (uses.unique uses'))
    · intro last
      rwa [last] at uses
  · intro entry stored
    have table := serves.xms _ top (by rw [EntryOwners.running] at stored; simp [stored])
    obtain ⟨handler, arg⟩ := Prod.ext_iff.mp table
    change s.ops.xmsCall = _ at handler
    change s.ops.xmsArg = _ at arg
    have uses : XmsUses s (g.latest g.xmsBy).entry := by
      rw [XmsUses, handler, arg, ← serves.entry]
      rfl
    constructor
    · intro uses'
      exact uses.unique uses'
    · intro same
      rwa [same] at uses
  · rw [own]
    exact ⟨holds.ldtAlias, holds.ldtAliasWinos2⟩

/-- In every run from the loaded translator, on a host that succeeds with what is free: a client's MS-DOS
API answers with its own alias; its WINOS2 API does if and only if no other client asked for it since; its
XMS entry leads where it stored if and only if the record of the client that asked last, or of the one
that took its slot since, holds the same entry. Both aliases are in use. -/
theorem entry_points {s t : State σ} {log : List (Entry Resource Grant)} {g : EntryOwners}
    (idle : s.clientNum = 0) (empty : ∀ j, (s.clients j).xmsCall = ⟨0, 0⟩)
    (run : Relation.ReflTransGen (EntryStep h) ((s, []), EntryOwners.none) ((t, log), g))
    (host : Generous log) (running : 0 < g.depth) : ServesRunning t log g := by
  have inv := inv_of_run h idle empty run host
  exact inv.serves.running inv.kept running

section Concrete

/-- The client has the name WINOS2 at address 0 and asks for its entry point. -/
def asking (s : State Bump) : State Bump :=
  { s with
    scp := { s.scp with ds := 0, gpr := fun r => if r = .eax then 0x168a else 0 }
    mem := fun a => ([0x57, 0x49, 0x4e, 0x4f, 0x53, 0x32] : List Byte).getD a.toNat 0 }

def answered (p : State Bump × List (Entry Resource Grant)) : State Bump × List (Entry Resource Grant) :=
  (final (msdosPreExtender bumpHost 0x2f) (asking p.1), p.2)

theorem answered_run (p : State Bump × List (Entry Resource Grant)) (g : EntryOwners)
    (running : 0 < p.1.clientNum) (asks : askedApi bumpHost (asking p.1) = some .apiWinos2Call) :
    Relation.ReflTransGen (EntryStep bumpHost) (p, g) (answered p, g.obtainWinos2) := by
  have ready : EntryStep bumpHost (p, g) ((asking p.1, p.2), g) := .world p.1 (asking p.1) p.2 g rfl rfl
  exact (Relation.ReflTransGen.single ready).tail (.winos2 _ _ _ running (by rfl) asks)

@[irreducible] def outerAsked : State Bump × List (Entry Resource Grant) :=
  answered (noted true (msdosInit bumpHost true 0x100) (bumpStart, []))

theorem outerAsked_run : Relation.ReflTransGen (EntryStep bumpHost)
    ((bumpStart, []), EntryOwners.none) (outerAsked, EntryOwners.none.start.obtainWinos2) := by
  unfold outerAsked
  apply Relation.ReflTransGen.head (EntryStep.init (bumpStart, []) .none true 0x100 (by decide))
  exact answered_run _ _ (by decide +kernel) (by decide +kernel)

theorem entry_points_one : Winos2Uses outerAsked.1 outerAsked.1.client.ldtAliasWinos2 :=
  ((entry_points bumpHost (by rfl) (fun _ => rfl) outerAsked_run
    (.of_names (by decide +kernel) (by decide +kernel)) (by decide)).winos2 rfl).mpr rfl

@[irreducible] def innerAsked : State Bump × List (Entry Resource Grant) :=
  let inner := answered (noted false (msdosInit bumpHost false 0x100) outerAsked)
  noted inner.1.client.is32 (msdosDone bumpHost) inner

/-- After the inner client, the outer client's WINOS2 API no longer answers with its alias. -/
theorem entry_points_misses_outer_client : ∃ g : EntryOwners,
    Relation.ReflTransGen (EntryStep bumpHost) ((bumpStart, []), EntryOwners.none) (innerAsked, g) ∧
      Generous innerAsked.2 ∧ g.depth = 1 ∧ g.running.winos2 = true ∧
      ¬Winos2Uses innerAsked.1 innerAsked.1.client.ldtAliasWinos2 := by
  have host : Generous innerAsked.2 := .of_names (by decide +kernel) (by decide +kernel)
  have started := outerAsked_run.tail (.init _ _ false 0x100 (by decide +kernel))
  have asked := started.trans (answered_run _ _ (by decide +kernel) (by decide +kernel))
  have run : Relation.ReflTransGen (EntryStep bumpHost) ((bumpStart, []), EntryOwners.none)
      (innerAsked, EntryOwners.none.start.obtainWinos2.start.obtainWinos2.finish) := by
    unfold innerAsked
    exact asked.tail (.done _ _ (by decide +kernel))
  have inv := inv_of_run bumpHost (by rfl) (fun _ => rfl) run host
  refine ⟨_, run, host, rfl, rfl, ?_⟩
  intro own
  have last := ((inv.serves.running inv.kept (by decide)).winos2 rfl).mp own
  revert last
  decide

end Concrete

end Pmdapi
