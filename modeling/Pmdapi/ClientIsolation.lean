import Pmdapi.AllocatorSteps
import Pmdapi.ClientEffects
import Pmdapi.RealModeEntry
import Pmdapi.Segreg

/-!
A client that has started another one: whatever that one and its own children do, the record of the first is
as it was when it goes on.
-/

namespace Pmdapi
open Bytes Effect

variable {σ : Type} (h : DpmiHost σ)

/-- Code that may change the record of the running client, and no other one. -/
def Isolated (s t : State σ) : Prop :=
  t.clientNum = s.clientNum ∧ ∀ i, i ≠ s.clientNum - 1 → t.clients i = s.clients i

instance : IsPreorder (State σ) Isolated where
  refl _ := ⟨rfl, fun _ _ => rfl⟩
  trans _ _ _ first second := ⟨second.1.trans first.1, fun i other =>
    (second.2 i (first.1.symm ▸ other)).trans (first.2 i other)⟩

section Primitives

theorem isolated_setClient (f : MsdosStruct → MsdosStruct) : Moves Isolated (setClient f : M σ Unit) :=
  fun _ => ⟨rfl, fun _ other => Function.update_of_ne other _ _⟩

theorem isolated_hostCall (c : DpmiCall) : @Moves (State σ) (no_index c.Reply) Isolated (hostCall h c) :=
  fun _ => ⟨rfl, fun _ _ => rfl⟩

theorem isolated_setScp (f : Sigcontext → Sigcontext) : Moves Isolated (setScp f : M σ Unit) :=
  fun _ => ⟨rfl, fun _ _ => rfl⟩

theorem isolated_setMem (f : Memory → Memory) : Moves Isolated (setMem f : M σ Unit) :=
  fun _ => ⟨rfl, fun _ _ => rfl⟩

theorem isolated_setRmLword (r : Gpr) (v : Word) : Moves Isolated (setRmLword r v : M σ Unit) :=
  fun _ => ⟨rfl, fun _ _ => rfl⟩

theorem isolated_logEvent (e : Event) : Moves Isolated (logEvent e : M σ Unit) := fun _ => ⟨rfl, fun _ _ => rfl⟩

theorem isolated_transBufferSeg : Moves Isolated (transBufferSeg : M σ Word) :=
  Moves.transBufferSeg isolated_logEvent

theorem isolated_ending : EndingEffect h Isolated where
  call c _ _ := isolated_hostCall h c
  client f _ := isolated_setClient f
  scp := isolated_setScp
  table _ := fun _ => ⟨rfl, fun _ _ => rfl⟩

theorem isolated_service : ServiceEffect h Isolated where
  call c _ _ := isolated_hostCall h c
  client f _ := isolated_setClient f
  rmDs _ := fun _ => ⟨rfl, fun _ _ => rfl⟩
  rmEs _ := fun _ => ⟨rfl, fun _ _ => rfl⟩
  targetKept := fun _ => ⟨rfl, fun _ _ => rfl⟩
  table _ := fun _ => ⟨rfl, fun _ _ => rfl⟩
  memory := isolated_setMem
  io _ := fun _ => ⟨rfl, fun _ _ => rfl⟩
  segments f _ := isolated_setScp f
  target _ _ := fun _ => ⟨rfl, fun _ _ => rfl⟩
  frame _ _ _ := fun _ => ⟨rfl, fun _ _ => rfl⟩
  keepOther _ _ := fun _ => ⟨rfl, fun _ _ => rfl⟩

theorem isolated_bookkeeping : Bookkeeping h Isolated where
  call c _ := isolated_hostCall h c
  client f _ := isolated_setClient f
  ldt _ := fun _ => ⟨rfl, fun _ _ => rfl⟩
  memory := isolated_setMem

end Primitives

/-! ## Calls -/

theorem Moves.of_outcomes {R : State σ → State σ → Prop} {m : M σ Outcome} (going : Going R m)
    (ending : MovesWhen Outcome.Ends R m) : Moves R m := by
  intro s
  cases outcome : result m s with
  | go altEnt => exact going s altEnt outcome
  | ret r => exact ending s ⟨r, outcome⟩

theorem isolated_dosSetDta : Moves Isolated (dosSetDta h) :=
  (isolated_service h).toFillEffect.dosSetDta isolated_setClient (isolated_setRmLword _)

theorem isolated_preSwitch (intr : Nat) (ax : Word) (act : Bool) : Moves Isolated (preSwitch h intr ax act) := by
  refine Moves.of_outcomes ?_ ?_
  · exact (isolated_service h).preSwitch isolated_transBufferSeg act (fun r _ v => isolated_setRmLword r v)
      (fun _ _ => isolated_dosSetDta h) fun _ _ f _ _ => isolated_setScp f
  · have eff := isolated_ending h
    unfold preSwitch
    refine .ite (fun _ => (moves_pure _).when) fun _ => .ite (fun _ => never_goOn _) fun _ => ?_
    refine .ite (fun _ => never_goOn _) fun _ => .ite (fun _ => ends_preDos eff _ _) fun _ => ?_
    refine .ite (fun _ => ?_) fun _ => .ite (fun _ => never_preMouse h ax) fun _ => ?_
    · unfold preMultiplex
      refine .ite (fun _ _ _ => ⟨rfl, fun _ _ => rfl⟩) fun _ => ?_
      refine .ite (fun _ => (Moves.done eff.getExtApi).when) fun _ => ?_
      refine .ite (fun _ => (moves_pure _).when) fun _ => ?_
      exact .ite (fun _ => (moves_pure _).when) fun _ => (moves_pure _).when
    · exact .ite (fun _ => (moves_pure _).when) fun _ => (moves_pure _).when

theorem isolated_preFinish (intr : Nat) (altEnt : Bool) : Moves Isolated (preFinish h intr altEnt) := by
  have fill := (isolated_service h).toFillEffect
  refine Moves.bind (fill.copyDsegIn isolated_transBufferSeg intr) fun _ => ?_
  refine Moves.bind (fill.copyEsegIn isolated_transBufferSeg intr) fun _ => Moves.bind (moves_reads _) fun flags => ?_
  refine Moves.bind (Moves.onlyIf fun _ => ?_) fun _ _ => ⟨rfl, fun _ _ => rfl⟩
  exact (isolated_service h).toQuietEffect.rmInt _ _

theorem isolated_pre (intr : Nat) : Moves Isolated (msdosPreExtender h intr) := by
  refine Moves.bind (Moves.bind (fun _ => ⟨rfl, fun _ _ => rfl⟩) fun _ => ?_) fun _ => ?_
  · exact Moves.bind (moves_reads _) fun s => Moves.onlyIf fun _ => isolated_setMem _
  · refine Moves.bind (Moves.bind (moves_reads _) fun ax => Moves.bind (Moves.onlyIf fun _ => ?_)
      fun _ => moves_pure _) fun act => Moves.bind (moves_reads _) fun ax => ?_
    · refine Moves.bind (moves_reads _) fun mapped => Moves.ite (fun _ => isolated_logEvent _) fun _ => ?_
      refine Moves.bind (moves_reads _) fun handle => Moves.bind (isolated_hostCall h _) fun _ => ?_
      exact Moves.bind (isolated_hostCall h _) fun _ _ => ⟨rfl, fun _ _ => rfl⟩
    · refine Moves.bind (isolated_preSwitch h intr ax act) fun outcome => ?_
      cases outcome with
      | ret r => exact moves_pure _
      | go altEnt => exact Moves.bind (isolated_preFinish h intr altEnt) fun _ => moves_pure _

theorem isolated_post (intr : Nat) : Moves Isolated (msdosPostExtender h intr) := by
  refine Moves.bind (moves_reads _) fun ax => Moves.bind (fun s => ?_) fun _ => ?_
  · exact IsTrans.trans _ _ _ ⟨rfl, fun _ _ => rfl⟩
      ((isolated_service h).postCopies intr ax isolated_transBufferSeg s)
  · refine Moves.bind ((isolated_service h).postSwitch (fun _ _ _ => ⟨rfl, fun _ _ => rfl⟩)
      fun _ _ _ _ => ⟨rfl, fun _ _ => rfl⟩) fun _ =>
        Moves.bind (Moves.onlyIf fun _ => ?_) fun _ _ => ⟨rfl, fun _ _ => rfl⟩
    exact Moves.restoreEmsFrame h isolated_logEvent (fun _ => isolated_hostCall h _) fun _ _ =>
      ⟨rfl, fun _ _ => rfl⟩

/-! ## Callbacks and entry points -/

theorem isolated_mouseCallback (is32 : Bool) (target : Pmaddr) : Moves Isolated (mouseCallback h is32 target) := by
  refine Moves.bind (moves_reads _) fun valid => Moves.bind (moves_reads _) fun sp => ?_
  refine Moves.bind (moves_reads _) fun scp => Moves.onlyIf fun _ => ?_
  refine Moves.bind (isolated_setMem _) fun _ => Moves.bind (isolated_setMem _) fun _ => ?_
  refine Moves.bind (isolated_setScp _) fun _ => Moves.bind (fun _ => ⟨rfl, fun _ _ => rfl⟩) fun _ => ?_
  refine Moves.bind (moves_reads _) fun rmds => ?_
  exact Moves.bind (isolated_hostCall h (.segmentToDescriptor _)) fun sel => isolated_setScp _

theorem isolated_ps2MouseCallback (is32 : Bool) (target : Pmaddr) :
    Moves Isolated (ps2MouseCallback h is32 target) := by
  refine Moves.bind (moves_reads _) fun valid => Moves.bind (moves_reads _) fun sp => ?_
  refine Moves.bind (moves_reads _) fun scp => Moves.onlyIf fun _ => ?_
  refine Moves.bind (Moves.forM fun i _ => ?_) fun _ => ?_
  · exact Moves.bind (moves_reads _) fun v => isolated_setMem _
  · refine Moves.bind (isolated_setMem _) fun _ => Moves.bind (isolated_setMem _) fun _ => ?_
    exact Moves.bind (isolated_setScp _) fun _ => isolated_setScp _

theorem isolated_rmcbCall (n : Rmcb) : Moves Isolated (rmcbCall h n) := by
  refine Moves.bind (moves_reads _) fun s => ?_
  split
  · exact fun _ => ⟨rfl, fun _ _ => rfl⟩
  · exact isolated_mouseCallback h _ _
  · exact isolated_ps2MouseCallback h _ _
  · exact moves_pure _

theorem isolated_rmcbReturn (n : Rmcb) : Moves Isolated (rmcbReturn n : M σ Unit) := by
  refine Moves.bind (moves_reads _) fun s => ?_
  split
  next entry found =>
    cases entry with
    | rmcbRetHandler => exact fun _ => ⟨rfl, fun _ _ => rfl⟩
    | rmcbRetFromPs2 => exact Moves.bind (isolated_setScp _) fun _ _ => ⟨rfl, fun _ _ => rfl⟩
    | _ => exact moves_pure _
  · exact moves_pure _

theorem isolated_apiCallEntry : Moves Isolated (apiCallEntry : M σ Unit) := by
  refine Moves.bind (moves_reads _) fun s => ?_
  split
  · exact isolated_setScp _
  · exact moves_pure _

theorem isolated_apiWinos2CallEntry : Moves Isolated (apiWinos2CallEntry : M σ Unit) := by
  refine Moves.bind (moves_reads _) fun s => ?_
  split
  · exact isolated_setScp _
  · exact moves_pure _

theorem isolated_xmsCallEntry : Moves Isolated (xmsCallEntry : M σ Unit) := by
  refine Moves.bind (moves_reads _) fun s => ?_
  split
  · exact fun _ => ⟨rfl, fun _ _ => rfl⟩
  · exact moves_pure _

theorem isolated_msdosFault (err : Dword) : Moves Isolated (msdosFault h err) := by
  have book := (isolated_bookkeeping h).toQuietBookkeeping
  refine Moves.bind ?_ fun _ => moves_pure _
  refine Moves.ite (fun _ => moves_pure _) fun _ => Moves.ite (fun _ => moves_pure _) fun _ => ?_
  refine Moves.bind (moves_reads _) fun s => ?_
  split
  · exact moves_pure _
  next reg newSct decoded =>
    refine Moves.bind ?_ fun desc => Moves.ite (fun _ => moves_pure _) fun _ => ?_
    · exact Moves.ite (fun _ => book.convertSegmentToDescriptorLim _ _) fun _ =>
        Moves.map (isolated_hostCall h (.segmentToDescriptor _))
    · exact Moves.bind (isolated_setScp _) fun _ => moves_pure _

/-! ## Starting and ending a client -/

theorem msdosInit_records (is32 : Bool) (mseg : Word) (s : State σ) :
    (final (msdosInit h is32 mseg) s).clientNum = s.clientNum + 1 ∧
      ∀ i, i ≠ s.clientNum → (final (msdosInit h is32 mseg) s).clients i = s.clients i := by
  have book := isolated_bookkeeping h
  have malloc := Moves.msdosMalloc (isolated_hostCall h) (fun _ => isolated_setClient _) rmcsSize
  have helper (handler : OpsHandler) (arg : Option ClientRef) (ret : OpsHandler) (num : Rmcb) :
      Moves Isolated (getPmcbHandler handler arg ret num : M σ Rmcb) :=
    Moves.bind (fun _ => ⟨rfl, fun _ _ => rfl⟩) fun _ => moves_pure _
  have rest : Moves Isolated (convertEnv h >>= fun _ => initRmcbs h is32 >>= fun _ => initAliases h) :=
    Moves.bind book.convertEnv fun _ => Moves.bind (book.initRmcbs is32 malloc helper) fun _ => book.initAliases
  have entered := isolated_setClient (fun _ => { MsdosStruct.zero with is32 := is32, lowmemSeg := mseg })
    (final (updates fun s : State σ => { s with clientNum := s.clientNum + 1 }) s)
  rw [msdosInit, final_bind, final_bind]
  generalize final (setClient _) _ = t at entered ⊢
  have started := IsTrans.trans _ _ _ entered (rest t)
  exact ⟨started.1, fun i other => started.2 i other⟩

/-- The record of a client that ends is the only one that is given up. -/
theorem msdosDone_records (s : State σ) :
    (final (msdosDone h) s).clientNum = s.clientNum - 1 ∧
      ∀ i, i ≠ s.clientNum - 1 → (final (msdosDone h) s).clients i = s.clients i := by
  have frees : Moves Isolated (msdosFreeMem h) :=
    Moves.msdosFreeMem (isolated_hostCall h) fun _ => isolated_setClient _
  have descriptors := (isolated_bookkeeping h).doneDescriptors s
  rw [msdosDone, final_bind, final_bind, final_updates]
  generalize final (doneDescriptors h) s = t at descriptors ⊢
  have swept := frees t
  generalize final (msdosFreeMem h) t = u at swept ⊢
  have kept := IsTrans.trans _ _ _ descriptors swept
  exact ⟨congrArg (· - 1) kept.1, kept.2⟩

/-! ## Runs -/

/-- What happens while the first `n` clients wait for another one: it starts and ends, calls are translated both
ways, its callbacks and entry points are used, its faults are handled, and its own code runs. -/
inductive ClientStep (n : Nat) : State σ → State σ → Prop where
  | init (s : State σ) (is32 : Bool) (mseg : Word) (above : n ≤ s.clientNum) :
      ClientStep n s (final (msdosInit h is32 mseg) s)
  | done (s : State σ) (above : n < s.clientNum) : ClientStep n s (final (msdosDone h) s)
  | pre (s : State σ) (intr : Nat) (above : n < s.clientNum) : ClientStep n s (final (msdosPreExtender h intr) s)
  | post (s : State σ) (intr : Nat) (above : n < s.clientNum) : ClientStep n s (final (msdosPostExtender h intr) s)
  | callback (s : State σ) (rmcb : Rmcb) (above : n < s.clientNum) : ClientStep n s (final (rmcbCall h rmcb) s)
  | callbackReturn (s : State σ) (rmcb : Rmcb) (above : n < s.clientNum) :
      ClientStep n s (final (rmcbReturn rmcb) s)
  | api (s : State σ) (above : n < s.clientNum) : ClientStep n s (final apiCallEntry s)
  | winos2 (s : State σ) (above : n < s.clientNum) : ClientStep n s (final apiWinos2CallEntry s)
  | xms (s : State σ) (above : n < s.clientNum) : ClientStep n s (final xmsCallEntry s)
  | fault (s : State σ) (err : Dword) (above : n < s.clientNum) : ClientStep n s (final (msdosFault h err) s)
  | world (s t : State σ) (num : t.clientNum = s.clientNum) (records : t.clients = s.clients) : ClientStep n s t

/-- `n` clients at least, and the first `n` of them are those of `s`. -/
def Waiting (n : Nat) (s t : State σ) : Prop := n ≤ t.clientNum ∧ ∀ i < n, t.clients i = s.clients i

variable {h} {n : Nat} {s t u : State σ}

theorem Waiting.isolated (waiting : Waiting n s t) (isolated : Isolated t u) (above : n < t.clientNum) :
    Waiting n s u := by
  refine ⟨isolated.1.symm ▸ waiting.1, fun i below => ?_⟩
  rw [isolated.2 i (by omega)]
  exact waiting.2 i below

theorem Waiting.step (waiting : Waiting n s t) (step : ClientStep h n t u) : Waiting n s u := by
  cases step with
  | init is32 mseg above =>
    obtain ⟨num, records⟩ := msdosInit_records h is32 mseg t
    refine ⟨by omega, fun i below => ?_⟩
    rw [records i (by omega)]
    exact waiting.2 i below
  | done above =>
    obtain ⟨num, records⟩ := msdosDone_records h t
    refine ⟨by omega, fun i below => ?_⟩
    rw [records i (by omega)]
    exact waiting.2 i below
  | pre intr above => exact waiting.isolated (isolated_pre h intr t) above
  | post intr above => exact waiting.isolated (isolated_post h intr t) above
  | callback rmcb above => exact waiting.isolated (isolated_rmcbCall h rmcb t) above
  | callbackReturn rmcb above => exact waiting.isolated (isolated_rmcbReturn rmcb t) above
  | api above => exact waiting.isolated (isolated_apiCallEntry t) above
  | winos2 above => exact waiting.isolated (isolated_apiWinos2CallEntry t) above
  | xms above => exact waiting.isolated (isolated_xmsCallEntry t) above
  | fault err above => exact waiting.isolated (isolated_msdosFault h err t) above
  | world _ num records =>
    exact ⟨num.symm ▸ waiting.1, fun i below => (congrFun records i).trans (waiting.2 i below)⟩

/-- A program that a client runs, with all programs that this one runs: the clients below it are not touched, and
the one that goes on has its own record. -/
theorem suspended_kept (run : Relation.ReflTransGen (ClientStep h s.clientNum) s t) :
    (∀ i < s.clientNum, t.clients i = s.clients i) ∧
      (0 < s.clientNum → t.clientNum = s.clientNum → t.client = s.client) := by
  have start : Waiting s.clientNum s s := ⟨Nat.le_refl _, fun _ _ => rfl⟩
  obtain ⟨-, records⟩ := invariant_of_run (fun _ _ waiting step => waiting.step step) start run
  refine ⟨records, fun some same => ?_⟩
  rw [State.client, State.client, same]
  exact records _ (by omega)

/-- A started client runs a second one, which calls DOS and ends. -/
theorem suspended_kept_nested :
    (final (msdosDone bumpHost) (final (msdosPreExtender bumpHost 0x21)
      (final (msdosInit bumpHost false 0x100) startedClient))).client = startedClient.client := by
  have alone : startedClient.clientNum = 1 := by
    rw [startedClient]
    exact (msdosInit_records bumpHost true 0 bumpStart).1
  have both : (final (msdosInit bumpHost false 0x100) startedClient).clientNum = 2 := by
    rw [(msdosInit_records bumpHost false 0x100 startedClient).1, alone]
  have asked := (isolated_pre bumpHost 0x21 (final (msdosInit bumpHost false 0x100) startedClient)).1
  have ended := (msdosDone_records bumpHost (final (msdosPreExtender bumpHost 0x21)
    (final (msdosInit bumpHost false 0x100) startedClient))).1
  refine (suspended_kept (.tail (.tail (.single (.init startedClient false 0x100 (Nat.le_refl _)))
    (.pre _ 0x21 ?_)) (.done _ ?_))).2 ?_ ?_
  · omega
  · omega
  · omega
  · omega

end Pmdapi
