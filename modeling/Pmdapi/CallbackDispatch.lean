import Pmdapi.BumpHost
import Pmdapi.ClientEffects
import Pmdapi.PreEffects

/-! Which client's routine a real-mode mouse callback reaches. -/

namespace Pmdapi
open Bytes Effect

variable {σ : Type} (h : DpmiHost σ)

/-! ## Where a callback leads -/

def dispatched (s : State σ) (n : Rmcb) : Option OpsHandler × Option Pmaddr :=
  (s.ops.rmcbHandler n, derefMouse s (s.ops.rmcbArg n))

/-- A real-mode call of callback `n` hands `target` to the handler that belongs to `n`. -/
def Reaches (s : State σ) (n : Rmcb) (target : Pmaddr) : Prop :=
  dispatched s n = (some (rmcbHandlers n), some target)

theorem rmcbCall_of_reaches {s : State σ} {target : Pmaddr} (reaches : Reaches s .ms target) :
    rmcbCall h .ms s = mouseCallback h s.clntIs32 target s := by
  obtain ⟨handler, arg⟩ := Prod.ext_iff.mp reaches
  change s.ops.rmcbHandler .ms = some .mouseCallback at handler
  change derefMouse s (s.ops.rmcbArg .ms) = some target at arg
  simp only [rmcbCall, bind, StateT.bind, reads, id, handler, arg]

theorem rmcbCall_of_reaches_ps2 {s : State σ} {target : Pmaddr} (reaches : Reaches s .ps2ms target) :
    rmcbCall h .ps2ms s = ps2MouseCallback h s.clntIs32 target s := by
  obtain ⟨handler, arg⟩ := Prod.ext_iff.mp reaches
  change s.ops.rmcbHandler .ps2ms = some .ps2MouseCallback at handler
  change derefMouse s (s.ops.rmcbArg .ps2ms) = some target at arg
  simp only [rmcbCall, bind, StateT.bind, reads, id, handler, arg]

/-! ## What the clients registered -/

/-- A client's bitness and the routines it registered last, 0:0 before it registers one. -/
structure Registered where
  is32 : Bool
  mouse : Pmaddr
  ps2mouse : Pmaddr
  deriving DecidableEq, Repr

/-- How many clients run, what the latest client in each slot registered, and how many clients ran
when callbacks were last set up. -/
structure Registrations where
  depth : Nat
  latest : Nat → Registered
  bound : Nat

namespace Registrations

def none : Registrations := ⟨0, fun _ => ⟨false, ⟨0, 0⟩, ⟨0, 0⟩⟩, 0⟩

variable (g : Registrations)

def running : Registered := g.latest (g.depth - 1)

/-- The client that the callbacks were set up for, or the one that took its slot since. -/
def served : Registered := g.latest (g.bound - 1)

/-- A client starts. It sets up callbacks if it is the first, or of another bitness than the one below. -/
def start (is32 : Bool) : Registrations where
  depth := g.depth + 1
  latest := Function.update g.latest g.depth ⟨is32, ⟨0, 0⟩, ⟨0, 0⟩⟩
  bound := if g.depth = 0 ∨ g.running.is32 ≠ is32 then g.depth + 1 else g.bound

def finish : Registrations := { g with depth := g.depth - 1 }

def register (c : Registered) : Registrations :=
  { g with latest := Function.update g.latest (g.depth - 1) c }

end Registrations

def passedRoutine (s : State σ) (is32 : Bool) (r : Gpr) : Pmaddr :=
  ⟨if is32 then s.scp.gpr r else s.scp.gpr r &&& 0xffff, s.scp.es⟩

/-- The routine of 15h/C207h: no routine without a selector and an offset. -/
def Registered.setPs2 (c : Registered) (routine : Pmaddr) : Registered :=
  if routine.selector ≠ 0 ∧ routine.offset ≠ 0 then { c with ps2mouse := routine } else c

def MsdosStruct.registered (c : MsdosStruct) : Registered :=
  ⟨c.is32, c.mouseCallBack, c.ps2mouseCallBack⟩

def routines (s : State σ) : Nat × (Nat → Registered) :=
  (s.clientNum, fun j => (s.clients j).registered)

def rmcbTable (s : State σ) : (Rmcb → Option OpsHandler) × (Rmcb → Option ClientRef) :=
  (s.ops.rmcbHandler, s.ops.rmcbArg)

def mouseState (s : State σ) := (routines s, rmcbTable s)

/-- Clients start and end, the last one first; the running one registers routines. The world may do
what leaves these alone. -/
inductive MouseStep : State σ × Registrations → State σ × Registrations → Prop where
  | init (s : State σ) (g : Registrations) (is32 : Bool) (mseg : Word) :
      MouseStep (s, g) (final (msdosInit h is32 mseg) s, g.start is32)
  | done (s : State σ) (g : Registrations) (running : 0 < g.depth) :
      MouseStep (s, g) (final (msdosDone h) s, g.finish)
  | mouse (s : State σ) (g : Registrations) (running : 0 < g.depth)
      (ax : s.scp.lword .eax = 0x0c ∨ s.scp.lword .eax = 0x14) :
      MouseStep (s, g) (final (msdosPreExtender h 0x33) s,
        g.register { g.running with mouse := passedRoutine s g.running.is32 .edx })
  | ps2mouse (s : State σ) (g : Registrations) (running : 0 < g.depth)
      (ax : s.scp.lword .eax = 0xc207) :
      MouseStep (s, g) (final (msdosPreExtender h 0x15) s,
        g.register (g.running.setPs2 (passedRoutine s g.running.is32 .ebx)))
  | world (s t : State σ) (g : Registrations) (same : mouseState t = mouseState s) :
      MouseStep (s, g) (t, g)

/-! ## Start and end of a client -/

theorem routines_setClient {f : MsdosStruct → MsdosStruct}
    (keeps : ∀ c, (f c).registered = c.registered) :
    Moves (Keeps routines) (setClient f : M σ Unit) := by
  intro s
  refine Prod.ext rfl (funext fun j => ?_)
  change (Function.update s.clients _ _ j).registered = _
  rw [Function.update_apply]
  split
  next same =>
    rw [keeps, same]
    rfl
  next => rfl

theorem bookkeeping_routines : Bookkeeping h (Keeps routines) where
  call := fun _ _ _ => rfl
  memory := fun _ _ => rfl
  client := fun _ own => routines_setClient fun c =>
    (congrArg MsdosStruct.registered (own c)).trans rfl
  ldt := fun _ _ => rfl

theorem bookkeeping_rmcbTable : Bookkeeping h (Keeps rmcbTable) where
  call := fun _ _ _ => rfl
  memory := fun _ _ => rfl
  client := fun _ _ _ => rfl
  ldt := fun _ _ => rfl

theorem routines_msdosMalloc (size : Dword) : Moves (Keeps routines) (msdosMalloc h size) :=
  Moves.msdosMalloc (fun _ _ => rfl) (fun _ => routines_setClient fun _ => rfl) size

def boundTo (slot : Nat) : (Rmcb → Option OpsHandler) × (Rmcb → Option ClientRef) :=
  (fun n => some (rmcbHandlers n), fun
    | .io => none
    | .ms => some (.mouseCallBack slot)
    | .ps2ms => some (.ps2mouseCallBack slot))

theorem rmcbTable_callbackInit (sel : Word) (i : Rmcb) (s : State σ) :
    rmcbTable (final (callbackInit h sel i) s) =
      (Function.update s.ops.rmcbHandler i (some (rmcbHandlers i)),
        Function.update s.ops.rmcbArg i (cbkArgs s i)) := rfl

theorem clientNum_callbackInit (sel : Word) (i : Rmcb) (s : State σ) :
    (final (callbackInit h sel i) s).clientNum = s.clientNum := rfl

theorem cbkArgs_eq (s : State σ) : cbkArgs s = (boundTo (s.clientNum - 1)).2 := by
  funext n
  cases n <;> rfl

theorem rmcbTable_callbacksInit (sel : Word) (s : State σ) :
    rmcbTable (final (callbacksInit h sel) s) = boundTo (s.clientNum - 1) := by
  have split : final (callbacksInit h sel) s = final (callbackInit h sel .ps2ms)
      (final (callbackInit h sel .ms) (final (callbackInit h sel .io) s)) := by
    simp only [callbacksInit, Rmcb.all, final_forM_cons, final_forM_nil]
  have io := rmcbTable_callbackInit h sel .io s
  have num := clientNum_callbackInit h sel .io s
  rw [split]
  generalize final (callbackInit h sel .io) s = u at io num ⊢
  have ms := rmcbTable_callbackInit h sel .ms u
  have num' := clientNum_callbackInit h sel .ms u
  generalize final (callbackInit h sel .ms) u = v at ms num' ⊢
  rw [rmcbTable_callbackInit]
  obtain ⟨ioHandler, ioArg⟩ := Prod.ext_iff.mp io
  obtain ⟨msHandler, msArg⟩ := Prod.ext_iff.mp ms
  change u.ops.rmcbHandler = _ at ioHandler
  change u.ops.rmcbArg = _ at ioArg
  change v.ops.rmcbHandler = _ at msHandler
  change v.ops.rmcbArg = _ at msArg
  rw [msHandler, msArg, ioHandler, ioArg, cbkArgs_eq, cbkArgs_eq, cbkArgs_eq, num', num]
  refine Prod.ext (funext fun n => ?_) (funext fun n => ?_)
  · cases n <;> rfl
  · cases n <;> rfl

theorem rmcbTable_setupRmcbs (base : Dword) (s : State σ) :
    rmcbTable (final (setupRmcbs h base) s) = boundTo (s.clientNum - 1) := by
  rw [setupRmcbs, final_bind, final_bind, final_bind, final_bind, final_bind]
  generalize entered : final (setSegmentLimit h _ _) _ = u
  have num : u.clientNum = s.clientNum := by
    rw [← entered]
    rfl
  rw [← num, ← rmcbTable_callbacksInit h (result (allocateDescriptors h 1) s) u]
  generalize final (callbacksInit h _) u = v
  rfl

theorem routines_initRmcbs (is32 : Bool) : Moves (Keeps routines) (initRmcbs h is32) :=
  (bookkeeping_routines h).initRmcbs is32 (routines_msdosMalloc h _) fun _ _ _ _ _ => rfl

theorem rmcbTable_initRmcbs (is32 : Bool) (s : State σ) :
    rmcbTable (final (initRmcbs h is32) s) =
      if ownsRmcbs s is32 then boundTo (s.clientNum - 1) else rmcbTable s := by
  rw [initRmcbs, final_bind, final_reads, result_reads, final_ite, id]
  by_cases owns : ownsRmcbs s is32 = true
  · have num := congrArg Prod.fst (routines_msdosMalloc h rmcsSize s)
    rw [if_pos owns, if_pos owns, final_bind, rmcbTable_setupRmcbs]
    exact congrArg (fun n => boundTo (n - 1)) num
  · rw [if_neg owns, if_neg owns]
    rfl

def enteredRoutines (s : State σ) (is32 : Bool) : Nat × (Nat → Registered) :=
  (s.clientNum + 1, Function.update (routines s).2 s.clientNum ⟨is32, ⟨0, 0⟩, ⟨0, 0⟩⟩)

theorem mouseState_msdosInit (is32 : Bool) (mseg : Word) (s : State σ) :
    routines (final (msdosInit h is32 mseg) s) = enteredRoutines s is32 ∧
      rmcbTable (final (msdosInit h is32 mseg) s) =
        if s.clientNum = 0 ∨ (s.clients (s.clientNum - 1)).is32 ≠ is32 then boundTo s.clientNum
        else rmcbTable s := by
  rw [msdosInit, final_bind, final_bind, final_bind, final_bind]
  generalize entered : final (convertEnv h) _ = u
  have table : rmcbTable u = rmcbTable s := by
    rw [← entered]
    exact (bookkeeping_rmcbTable h).convertEnv _
  have routine : routines u = enteredRoutines s is32 := by
    rw [← entered]
    refine ((bookkeeping_routines h).convertEnv _).trans (Prod.ext rfl (funext fun j => ?_))
    simp only [enteredRoutines, routines, setClient, State.withClient, final_updates,
      Function.update_apply, Nat.add_sub_cancel]
    split <;> rfl
  constructor
  · rw [(bookkeeping_routines h).initAliases _, routines_initRmcbs h is32 _, routine]
  · rw [(bookkeeping_rmcbTable h).initAliases _, rmcbTable_initRmcbs, table]
    have owns : ownsRmcbs u is32 =
        decide (s.clientNum = 0 ∨ (s.clients (s.clientNum - 1)).is32 ≠ is32) := by
      have num : u.clientNum = s.clientNum + 1 := congrArg Prod.fst routine
      have below : (u.clients (s.clientNum - 1)).is32 =
          ((enteredRoutines s is32).2 (s.clientNum - 1)).is32 :=
        congrArg (fun r => (r.2 (s.clientNum - 1)).is32) routine
      rw [ownsRmcbs, num, Nat.add_sub_add_right s.clientNum 1 1, below, enteredRoutines]
      by_cases first : s.clientNum = 0
      · simp [first]
      · have other : s.clientNum - 1 ≠ s.clientNum := by omega
        simp [first, other, routines, MsdosStruct.registered]
    have slot : u.clientNum - 1 = s.clientNum := by
      rw [show u.clientNum = s.clientNum + 1 from congrArg Prod.fst routine, Nat.add_sub_cancel]
    rw [owns, slot]
    simp only [decide_eq_true_eq]

theorem routines_msdosFreeMem : Moves (Keeps routines) (msdosFreeMem h) :=
  Moves.msdosFreeMem (fun _ _ => rfl) fun _ => routines_setClient fun _ => rfl

theorem rmcbTable_msdosFreeMem : Moves (Keeps rmcbTable) (msdosFreeMem h) :=
  Moves.msdosFreeMem (fun _ _ => rfl) fun _ _ => rfl

theorem mouseState_msdosDone (s : State σ) :
    routines (final (msdosDone h) s) = (s.clientNum - 1, (routines s).2) ∧
      rmcbTable (final (msdosDone h) s) = rmcbTable s := by
  have done := (bookkeeping_routines h).doneDescriptors s
  have done' := (bookkeeping_rmcbTable h).doneDescriptors s
  rw [msdosDone, final_bind, final_bind, final_updates]
  generalize final (doneDescriptors h) s = u at done done'
  have swept := routines_msdosFreeMem h u
  have swept' := rmcbTable_msdosFreeMem h u
  generalize final (msdosFreeMem h) u = v at swept swept'
  have whole : routines v = routines s := swept.trans done
  refine ⟨?_, swept'.trans done'⟩
  obtain ⟨num, records⟩ := Prod.ext_iff.mp whole
  exact Prod.ext (congrArg (· - 1) num) records

/-! ## Registering a routine -/

theorem mouseState_of_tables {s t : State σ} (same : tables t = tables s) :
    mouseState t = mouseState s :=
  congrArg (fun u : (Nat → MsdosStruct) × Nat × MsdosOps =>
    ((u.2.1, fun j => (u.1 j).registered), (u.2.2.rmcbHandler, u.2.2.rmcbArg))) same

def withRegistered (s : State σ) (c : Registered) : Nat × (Nat → Registered) :=
  (s.clientNum, Function.update (routines s).2 (s.clientNum - 1) c)

theorem mouseState_setClient (f : MsdosStruct → MsdosStruct) (s : State σ) :
    mouseState (final (setClient f) s) = (withRegistered s (f s.client).registered, rmcbTable s) := by
  refine Prod.ext (Prod.ext rfl (funext fun j => ?_)) rfl
  simp only [mouseState, withRegistered, routines, setClient, State.withClient, final_updates,
    Function.update_apply]
  split <;> rfl

theorem tables_passMouseCallback (es : Word) (cbk : Far) :
    Moves (Keeps tables) (passMouseCallback es cbk : M σ Unit) := by
  unfold passMouseCallback
  have passed (seg off : Word) : Moves (Keeps tables) (do
      setRmEs seg
      setRmLword .edx off : M σ Unit) := Moves.bind (tables_setRmEs _) fun _ => tables_setRmLword _ _
  exact Moves.ite (fun _ => passed _ _) fun _ => passed _ _

theorem mouseState_mouseSetHandler (swap : Bool) (s : State σ) :
    mouseState (final (mouseSetHandler swap) s) =
      (withRegistered s { s.client.registered with mouse := passedRoutine s s.client.is32 .edx },
        rmcbTable s) := by
  rw [mouseSetHandler, final_bind, final_reads, result_reads, final_bind]
  have set := mouseState_setClient (σ := σ) (fun c =>
    { c with mouseCallBack := ⟨s.d16_32 (s.scp.gpr .edx), s.scp.es⟩ }) s
  refine Eq.trans (mouseState_of_tables ?_) set
  refine (Moves.bind (R := Keeps tables) (tables_passMouseCallback _ _) fun _ => ?_) _
  exact Moves.onlyIf fun _ => tables_setScp _

theorem mouseState_mouse {s : State σ} (ax : s.scp.lword .eax = 0x0c ∨ s.scp.lword .eax = 0x14) :
    mouseState (final (msdosPreExtender h 0x33) s) =
      (withRegistered s { s.client.registered with mouse := passedRoutine s s.client.is32 .edx },
        rmcbTable s) := by
  have unlisted : needXbuf 0x33 (s.scp.lword .eax) = false := by
    rcases ax with ax | ax
    all_goals rw [ax]; decide
  have branch : ∃ swap, preSwitch h 0x33 (s.scp.lword .eax) false = goOn (mouseSetHandler swap) := by
    rcases ax with ax | ax
    · exact ⟨false, by rw [ax]; rfl⟩
    · exact ⟨true, by rw [ax]; rfl⟩
  obtain ⟨swap, goes⟩ := branch
  rw [preExtender_eq h unlisted rfl, goes, final_bind, mouseState_of_tables (tables_preLeave h _ _ _)]
  exact mouseState_mouseSetHandler swap s.entered

theorem mouseState_ps2SetHandler (s : State σ) :
    mouseState (final ps2SetHandler s) =
      (withRegistered s (s.client.registered.setPs2 (passedRoutine s s.client.is32 .ebx)),
        rmcbTable s) := by
  rw [ps2SetHandler, final_bind, final_reads, result_reads, final_ite, id]
  by_cases given : s.scp.es ≠ 0 ∧ s.d16_32 (s.scp.gpr .ebx) ≠ 0
  · have registered : s.client.registered.setPs2 (passedRoutine s s.client.is32 .ebx) =
        { s.client.registered with ps2mouse := passedRoutine s s.client.is32 .ebx } := if_pos given
    have set := mouseState_setClient (σ := σ) (fun c =>
      { c with ps2mouseCallBack := ⟨s.d16_32 (s.scp.gpr .ebx), s.scp.es⟩ }) s
    rw [registered, if_pos given, final_bind]
    refine Eq.trans (mouseState_of_tables ?_) set
    exact (Moves.bind (R := Keeps tables) (tables_setRmEs _) fun _ => tables_setRmLword _ _) _
  · have registered : s.client.registered.setPs2 (passedRoutine s s.client.is32 .ebx) =
        s.client.registered := if_neg given
    have unchanged : withRegistered s s.client.registered = routines s :=
      Prod.ext rfl (Function.update_eq_self _ _)
    rw [registered, unchanged, if_neg given]
    apply mouseState_of_tables
    exact (Moves.bind (R := Keeps tables) (tables_setRmEs _) fun _ => tables_setRmLword _ _) _

theorem mouseState_ps2mouse {s : State σ} (ax : s.scp.lword .eax = 0xc207) :
    mouseState (final (msdosPreExtender h 0x15) s) =
      (withRegistered s (s.client.registered.setPs2 (passedRoutine s s.client.is32 .ebx)),
        rmcbTable s) := by
  have unlisted : needXbuf 0x15 (s.scp.lword .eax) = false := by rw [ax]; decide
  have goes : preSwitch h 0x15 (s.scp.lword .eax) false = goOn ps2SetHandler := by
    rw [ax]
    rfl
  rw [preExtender_eq h unlisted rfl, goes, final_bind, mouseState_of_tables (tables_preLeave h _ _ _)]
  exact mouseState_ps2SetHandler s.entered

/-! ## Runs -/

/-- The records hold what the latest clients registered, and the table points at the client that
callbacks were last set up for. -/
structure Mirrors (p : State σ × Registrations) : Prop where
  records : routines p.1 = (p.2.depth, p.2.latest)
  table : p.2.bound ≠ 0 → rmcbTable p.1 = boundTo (p.2.bound - 1)
  bound : 0 < p.2.depth → p.2.bound ≠ 0

namespace Mirrors

variable {s : State σ} {g : Registrations}

theorem loaded (empty : routines s = (0, Registrations.none.latest)) :
    Mirrors (s, Registrations.none) where
  records := empty
  table := fun never => absurd rfl never
  bound := fun never => absurd never (Nat.lt_irrefl 0)

theorem clientNum (mirrors : Mirrors (s, g)) : s.clientNum = g.depth :=
  congrArg Prod.fst mirrors.records

theorem record (mirrors : Mirrors (s, g)) (j : Nat) : (s.clients j).registered = g.latest j :=
  congrArg (fun r => r.2 j) mirrors.records

theorem running (mirrors : Mirrors (s, g)) : s.client.registered = g.running := by
  rw [State.client, mirrors.record, mirrors.clientNum, Registrations.running]

/-- The start of a client binds the table to it exactly if it sets up callbacks. -/
theorem init (mirrors : Mirrors (s, g)) (is32 : Bool) (mseg : Word) :
    Mirrors (final (msdosInit h is32 mseg) s, g.start is32) := by
  obtain ⟨records, table⟩ := mouseState_msdosInit h is32 mseg s
  generalize final (msdosInit h is32 mseg) s = t at records table ⊢
  have below : (s.clients (g.depth - 1)).is32 = g.running.is32 :=
    congrArg Registered.is32 (mirrors.record (g.depth - 1))
  rw [mirrors.clientNum, below] at table
  constructor
  · rw [records, enteredRoutines, mirrors.records, mirrors.clientNum]
    rfl
  · intro given
    rw [table]
    by_cases sets : g.depth = 0 ∨ g.running.is32 ≠ is32
    · rw [if_pos sets, Registrations.start, if_pos sets, Nat.add_sub_cancel]
    · rw [if_neg sets, Registrations.start, if_neg sets]
      exact mirrors.table (mirrors.bound (Nat.pos_of_ne_zero fun first => sets (.inl first)))
  · intro _
    change ite _ _ _ ≠ 0
    by_cases sets : g.depth = 0 ∨ g.running.is32 ≠ is32
    · rw [if_pos sets]
      exact Nat.succ_ne_zero _
    · rw [if_neg sets]
      exact mirrors.bound (Nat.pos_of_ne_zero fun first => sets (.inl first))

theorem done (mirrors : Mirrors (s, g)) (running : 0 < g.depth) :
    Mirrors (final (msdosDone h) s, g.finish) := by
  obtain ⟨records, table⟩ := mouseState_msdosDone h s
  generalize final (msdosDone h) s = t at records table ⊢
  constructor
  · rw [records, mirrors.records, mirrors.clientNum]
    rfl
  · intro given
    exact table.trans (mirrors.table given)
  · intro _
    exact mirrors.bound running

theorem register {t : State σ} (mirrors : Mirrors (s, g)) (running : 0 < g.depth) (c : Registered)
    (same : mouseState t = (withRegistered s c, rmcbTable s)) : Mirrors (t, g.register c) := by
  obtain ⟨records, table⟩ := Prod.ext_iff.mp same
  constructor
  · refine records.trans ?_
    rw [withRegistered, mirrors.records, mirrors.clientNum]
    rfl
  · intro given
    exact table.trans (mirrors.table given)
  · intro _
    exact mirrors.bound running

theorem step (p q : State σ × Registrations) (mirrors : Mirrors p) (step : MouseStep h p q) :
    Mirrors q := by
  cases step with
  | init s g is32 mseg => exact mirrors.init h is32 mseg
  | done s g running => exact mirrors.done h running
  | mouse s g running ax =>
    apply mirrors.register running
    rw [mouseState_mouse h ax, mirrors.running, ← mirrors.running]
    rfl
  | ps2mouse s g running ax =>
    apply mirrors.register running
    rw [mouseState_ps2mouse h ax, mirrors.running, ← mirrors.running]
    rfl
  | world s t g same =>
    obtain ⟨records, table⟩ := Prod.ext_iff.mp same
    exact ⟨records.trans mirrors.records, fun given => table.trans (mirrors.table given), mirrors.bound⟩

/-- A callback hands on what the client registered that callbacks were last set up for. -/
theorem reaches (mirrors : Mirrors (s, g)) (running : 0 < g.depth) :
    Reaches s .ms g.served.mouse ∧ Reaches s .ps2ms g.served.ps2mouse := by
  obtain ⟨handler, arg⟩ := Prod.ext_iff.mp (mirrors.table (mirrors.bound running))
  change s.ops.rmcbHandler = _ at handler
  change s.ops.rmcbArg = _ at arg
  have record := mirrors.record (g.bound - 1)
  constructor
  · refine Prod.ext (congrFun handler .ms) ?_
    rw [dispatched, arg]
    exact congrArg (fun c : Registered => some c.mouse) record
  · refine Prod.ext (congrFun handler .ps2ms) ?_
    rw [dispatched, arg]
    exact congrArg (fun c : Registered => some c.ps2mouse) record

end Mirrors

/-! ## The law -/

theorem Reaches.unique {s : State σ} {n : Rmcb} {a b : Pmaddr} (one : Reaches s n a)
    (other : Reaches s n b) : a = b :=
  Option.some.inj (congrArg Prod.snd (one.symm.trans other))

/-- In every run from the loaded translator, a callback reaches the routine that the running client
registered last if and only if the client that callbacks were last set up for, or the one that took
its slot since, registered the same routine. -/
theorem callback_dispatch {s t : State σ} {g : Registrations}
    (empty : routines s = (0, Registrations.none.latest))
    (run : Relation.ReflTransGen (MouseStep h) (s, Registrations.none) (t, g))
    (running : 0 < g.depth) :
    (Reaches t .ms g.running.mouse ↔ g.served.mouse = g.running.mouse) ∧
      (Reaches t .ps2ms g.running.ps2mouse ↔ g.served.ps2mouse = g.running.ps2mouse) := by
  have mirrors := invariant_of_run (Mirrors.step h) (Mirrors.loaded empty) run
  obtain ⟨mouse, ps2mouse⟩ := mirrors.reaches running
  constructor
  · constructor
    · intro own
      exact mouse.unique own
    · intro same
      rwa [← same]
  · constructor
    · intro own
      exact ps2mouse.unique own
    · intro same
      rwa [← same]

section Concrete

def State.registering (s : State σ) (ax : Word) (selector : Word) (offset : Dword) : State σ :=
  { s with scp := { s.scp with
      es := selector, gpr := fun r => if r = .eax then zext ax else offset } }

/-- A client registers a mouse routine. -/
theorem registering_mouse (s : State σ) (g : Registrations) (running : 0 < g.depth)
    (selector : Word) (offset : Dword) :
    Relation.ReflTransGen (MouseStep h) (s, g)
      (final (msdosPreExtender h 0x33) (s.registering 0x0c selector offset),
        g.register { g.running with
          mouse := passedRoutine (s.registering 0x0c selector offset) g.running.is32 .edx }) := by
  apply Relation.ReflTransGen.head (MouseStep.world s (s.registering 0x0c selector offset) g rfl)
  apply Relation.ReflTransGen.single
  apply MouseStep.mouse _ g running
  left
  rfl

def oneClient : State Bump :=
  final (msdosPreExtender bumpHost 0x33)
    ((final (msdosInit bumpHost true 0x100) bumpStart).registering 0x0c 0x10 0x20)

theorem oneClient_run : Relation.ReflTransGen (MouseStep bumpHost) (bumpStart, Registrations.none)
    (oneClient, (Registrations.none.start true).register ⟨true, ⟨0x20, 0x10⟩, ⟨0, 0⟩⟩) :=
  Relation.ReflTransGen.head (.init bumpStart _ true 0x100)
    (registering_mouse bumpHost _ _ (by decide) 0x10 0x20)

theorem callback_dispatch_one : Reaches oneClient .ms ⟨0x20, 0x10⟩ :=
  (callback_dispatch bumpHost rfl oneClient_run (by decide)).1.mpr rfl

def twoClients : State Bump :=
  final (msdosDone bumpHost) (final (msdosPreExtender bumpHost 0x33)
    ((final (msdosInit bumpHost false 0x100) oneClient).registering 0x0c 0x30 0x40))

/-- After an inner client that set up callbacks is done, the outer client's callback reaches the
inner one's routine. -/
theorem callback_dispatch_misses_outer_client : ∃ g : Registrations,
    Relation.ReflTransGen (MouseStep bumpHost) (bumpStart, Registrations.none) (twoClients, g) ∧
      g.depth = 1 ∧ g.running.mouse = ⟨0x20, 0x10⟩ ∧ Reaches twoClients .ms ⟨0x40, 0x30⟩ ∧
      ¬Reaches twoClients .ms g.running.mouse := by
  have inner := registering_mouse bumpHost (final (msdosInit bumpHost false 0x100) oneClient)
    (((Registrations.none.start true).register ⟨true, ⟨0x20, 0x10⟩, ⟨0, 0⟩⟩).start false)
    (by decide) 0x30 0x40
  have run := ((oneClient_run.tail (.init _ _ false 0x100)).trans inner).tail
    (.done _ _ (by decide))
  have mirrors := invariant_of_run (Mirrors.step bumpHost) (Mirrors.loaded rfl) run
  have reaches := (mirrors.reaches (by decide)).1
  refine ⟨_, run, rfl, rfl, reaches, ?_⟩
  intro own
  have same := own.unique reaches
  revert same
  decide

end Concrete

end Pmdapi
