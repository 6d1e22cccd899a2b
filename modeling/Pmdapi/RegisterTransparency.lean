import Pmdapi.BranchEffects
import Pmdapi.BumpHost
import Pmdapi.PreEffects

/-! The general registers over a call that goes to real mode and back. -/

namespace Pmdapi
open Bytes Effect

variable {σ : Type} (h : DpmiHost σ)

/-! ## The way down -/

namespace State

/-- The word a register takes to real mode in place of the client's. -/
def handed (s : State σ) (r : Gpr) : Option Word :=
  if maskHas s.rmMask (.gpr r) then some (s.rmreg.lword r) else none

def brought (s : State σ) (r : Gpr) : Option Word :=
  if maskHas s.rMask (.gpr r) then some (s.rmreg.lword r) else none

/-- `pm_to_rm_regs(scp, rmreg, ~r_mask)`: the caller fills what is not set. -/
def filled (s : State σ) : State σ :=
  { s with rmreg := pmToRmRegs s.scp s.rmreg (~~~s.rMask) }

theorem filled_lword (s : State σ) (r : Gpr) :
    s.filled.rmreg.lword r = (s.brought r).getD (s.scp.lword r) := by
  rw [filled, pmToRmRegs_lword, maskHas_not, brought]
  cases maskHas s.rMask (.gpr r) <;> rfl

end State

def Passes (free : Prop) (r : Gpr) (s t : State σ) : Prop :=
  t.scp.gpr r = s.scp.gpr r ∧ (free → t.handed r = s.handed r)

instance (free : Prop) (r : Gpr) : IsPreorder (State σ) (Passes free r) where
  refl _ := ⟨rfl, fun _ => rfl⟩
  trans _ _ _ first second := ⟨second.1.trans first.1, fun ok => (second.2 ok).trans (first.2 ok)⟩

section Passes

variable {free : Prop} {r : Gpr}

theorem passes_setRmLword {q : Gpr} (v : Word) (other : free → q ≠ r) :
    Moves (Passes free r) (setRmLword q v : M σ Unit) := by
  refine fun s => ⟨rfl, fun ok => ?_⟩
  have different : r ≠ q := (other ok).symm
  simp [setRmLword, State.handed, RealModeCallStructure.lword, setGpr, different, other ok]

theorem passes_transBufferSeg : Moves (Passes free r) (transBufferSeg : M σ Word) :=
  Moves.transBufferSeg fun _ _ => ⟨rfl, fun _ => rfl⟩

theorem passes_effect : ServiceEffect h (Passes free r) where
  call _ _ _ _ := ⟨rfl, fun _ => rfl⟩
  memory _ _ := ⟨rfl, fun _ => rfl⟩
  client _ _ _ := ⟨rfl, fun _ => rfl⟩
  segments f same s := ⟨congrFun (same s.scp) r, fun _ => rfl⟩
  rmDs v s := ⟨rfl, fun _ => by simp [setRmDs, State.handed, RealModeCallStructure.lword]⟩
  rmEs v s := ⟨rfl, fun _ => by simp [setRmEs, State.handed, RealModeCallStructure.lword]⟩
  target _ _ _ := ⟨rfl, fun _ => rfl⟩
  targetKept s := ⟨rfl, fun _ => by simp [rmPreserveCsIp, State.handed]⟩
  frame flags cs ip s := ⟨rfl, fun _ => by simp [rmDoInt, State.handed, RealModeCallStructure.lword]⟩
  io _ _ := ⟨rfl, fun _ => rfl⟩
  table _ _ := ⟨rfl, fun _ => rfl⟩
  keepOther _ _ _ := ⟨rfl, fun _ => rfl⟩

end Passes

theorem brought_preReturn (intr : Nat) (altEnt : Bool) (s : State σ) (r : Gpr) :
    (final (preReturn h intr altEnt) s).scp.gpr r = s.scp.gpr r ∧
      (final (preReturn h intr altEnt) s).brought r = s.handed r := by
  have eff : ServiceEffect h (Passes True r) := passes_effect h
  have frame : Moves (Passes True r) (onlyIf (!altEnt) (rmInt h intr (loWord s.scp.eflags))) :=
    Moves.onlyIf fun _ => eff.rmInt _ _
  rw [preReturn, final_bind, final_bind]
  exact ⟨(frame s).1, (frame s).2 trivial⟩

theorem brought_preFinish (intr : Nat) (altEnt : Bool) (s : State σ) (r : Gpr) :
    (final (preFinish h intr altEnt) s).scp.gpr r = s.scp.gpr r ∧
      (final (preFinish h intr altEnt) s).brought r = s.handed r := by
  have eff : ServiceEffect h (Passes True r) := passes_effect h
  have copies := IsTrans.trans _ _ _ (eff.copyDsegIn passes_transBufferSeg intr s)
    (eff.copyEsegIn passes_transBufferSeg intr _)
  obtain ⟨client, word⟩ := brought_preReturn h intr altEnt
    (final (copyEsegIn h intr) (final (copyDsegIn h intr) s)) r
  rw [preFinish, final_bind, final_bind]
  exact ⟨client.trans copies.1, word.trans (copies.2 trivial)⟩

theorem preSwitch_ret (intr : Nat) (ax : Word) (act : Bool) (s : State σ) :
    result (preSwitch h intr ax act) s ≠ .ret .rm := by
  have leaves : Returns (· ≠ .ret .rm) (preSwitch h intr ax act) :=
    returns_preSwitch h s nofun nofun fun _ => nofun
  exact leaves s

def arrival (s : State σ) :
    Sigcontext × (Gpr → Option Word) × (Nat → MsdosStruct) × Nat × MsdosOps :=
  (s.scp, s.handed, tables s)

theorem arrival_dtaCopyIn (intr : Nat) : Moves (Keeps arrival) (dtaCopyIn h intr) := by
  unfold dtaCopyIn
  exact Moves.bind (moves_reads _) fun s => Moves.onlyIf fun _ _ => rfl

theorem arrival_preMap (intr : Nat) : Moves (Keeps arrival) (preMap h intr) := by
  have call (c : DpmiCall) :
      @Moves (State σ) (no_index c.Reply) (Keeps arrival) (hostCall h c) := fun _ => rfl
  unfold preMap prepareEmsFrame
  refine Moves.bind (moves_reads _) fun ax => Moves.bind (Moves.onlyIf fun _ => ?_) fun _ => moves_pure _
  refine Moves.bind (moves_reads _) fun mapped => Moves.ite (fun _ _ => rfl) fun _ => ?_
  refine Moves.bind (moves_reads _) fun handle => Moves.bind (call _) fun _ => ?_
  exact Moves.bind (call _) fun _ _ => rfl

/-- The state in which the service switch is reached. -/
def State.atSwitch (intr : Nat) (s : State σ) : State σ :=
  final (preMap h intr) (final (preEnter h intr) s)

theorem arrival_atSwitch (intr : Nat) (s : State σ) : arrival (s.atSwitch h intr) = arrival s.entered := by
  have enter : arrival (final (preEnter h intr) s) = arrival s.entered :=
    arrival_dtaCopyIn h intr s.entered
  exact Eq.trans (arrival_preMap h intr (final (preEnter h intr) s)) enter

theorem msdosPreExtender_eq (intr : Nat) (s : State σ) :
    msdosPreExtender h intr s =
      (preSwitch h intr (s.scp.lword .eax) (needXbuf intr (s.scp.lword .eax)) >>= preLeave h intr)
        (s.atSwitch h intr) := by
  have entered : (final (preEnter h intr) s).scp = s.scp :=
    congrArg Prod.fst (arrival_dtaCopyIn h intr s.entered)
  have act : result (preMap h intr) (final (preEnter h intr) s) =
      needXbuf intr (s.scp.lword .eax) := by
    rw [← entered]
    rfl
  have sameAx : (s.atSwitch h intr).scp.lword .eax = s.scp.lword .eax :=
    congrArg (fun a => a.1.lword .eax) (arrival_atSwitch h intr s)
  rw [← act, ← sameAx]
  rfl

def State.outcome (intr : Nat) (s : State σ) : Outcome :=
  result (preSwitch h intr (s.scp.lword .eax) (needXbuf intr (s.scp.lword .eax))) (s.atSwitch h intr)

def State.switched (intr : Nat) (s : State σ) : State σ :=
  final (preSwitch h intr (s.scp.lword .eax) (needXbuf intr (s.scp.lword .eax))) (s.atSwitch h intr)

theorem result_pre (intr : Nat) (s : State σ) : result (msdosPreExtender h intr) s =
    result (preLeave h intr (s.outcome h intr)) (s.switched h intr) :=
  congrArg Prod.fst (msdosPreExtender_eq h intr s)

theorem final_pre (intr : Nat) (s : State σ) : final (msdosPreExtender h intr) s =
    final (preLeave h intr (s.outcome h intr)) (s.switched h intr) :=
  congrArg Prod.snd (msdosPreExtender_eq h intr s)

theorem pre_goes {intr : Nat} {s : State σ} (goes : result (msdosPreExtender h intr) s = .rm) :
    ∃ altEnt, s.outcome h intr = .go altEnt ∧
      final (msdosPreExtender h intr) s = final (preFinish h intr altEnt) (s.switched h intr) := by
  rw [result_pre] at goes
  rw [final_pre]
  cases outcome : s.outcome h intr with
  | ret r =>
    rw [outcome] at goes
    have ends : r = .rm := goes
    exact absurd (ends ▸ outcome) (preSwitch_ret h _ _ _ _)
  | go altEnt => exact ⟨altEnt, rfl, rfl⟩

theorem pre_ends {intr : Nat} {s : State σ} (ends : result (msdosPreExtender h intr) s ≠ .rm) :
    s.outcome h intr = .ret (result (msdosPreExtender h intr) s) ∧
      final (msdosPreExtender h intr) s = s.switched h intr := by
  rw [result_pre] at ends ⊢
  rw [final_pre]
  cases outcome : s.outcome h intr with
  | ret r => exact ⟨rfl, rfl⟩
  | go altEnt =>
    rw [outcome] at ends
    exact absurd rfl ends

theorem passes_preSwitch {intr : Nat} {ax : Word} {r : Gpr}
    (unswapped : ¬(intr = 0x33 ∧ ax = 0x14 ∧ r = .edx)) (act : Bool) :
    Going (Passes (r ∉ replaced intr ax) r) (preSwitch h intr ax act) := by
  apply (passes_effect h).preSwitch passes_transBufferSeg act
  · intro q listed v
    exact passes_setRmLword v fun unlisted same => unlisted (same ▸ listed)
  · intro dos setDta
    refine (passes_effect h).dosSetDta (fun _ _ => ⟨rfl, fun _ => rfl⟩) fun v => ?_
    have edx : .edx ∈ replaced intr ax := by
      rw [replaced, if_neg (by omega), if_pos dos, setDta]
      exact List.mem_cons_self
    exact passes_setRmLword v fun unlisted same => unlisted (same ▸ edx)
  · intro mouse swap f others _ t
    refine ⟨others t.scp r fun same => unswapped ⟨mouse, swap, same⟩, fun _ => rfl⟩

section Down

variable {h} {intr : Nat} {s : State σ} (goes : result (msdosPreExtender h intr) s = .rm)
include goes

theorem down_parts (r : Gpr) :
    ∃ u act altEnt, arrival u = arrival s.entered ∧
      result (preSwitch h intr (s.scp.lword .eax) act) u = .go altEnt ∧
      let t := final (preSwitch h intr (s.scp.lword .eax) act) u
      (final (msdosPreExtender h intr) s).scp.gpr r = t.scp.gpr r ∧
      (final (msdosPreExtender h intr) s).filled.rmreg.lword r =
        (t.handed r).getD (t.scp.lword r) := by
  obtain ⟨altEnt, outcome, parts⟩ := pre_goes h goes
  refine ⟨s.atSwitch h intr, _, altEnt, arrival_atSwitch h intr s, outcome, ?_⟩
  obtain ⟨client, word⟩ := brought_preFinish h intr altEnt (s.switched h intr) r
  have lword : (final (preFinish h intr altEnt) (s.switched h intr)).scp.lword r =
      (s.switched h intr).scp.lword r := congrArg loWord client
  rw [State.filled_lword, parts, word, lword]
  exact ⟨client, rfl⟩

/-- The client keeps every register but the one the mouse swap answers in. -/
theorem down_client {r : Gpr}
    (unswapped : ¬(intr = 0x33 ∧ s.scp.lword .eax = 0x14 ∧ r = .edx)) :
    (final (msdosPreExtender h intr) s).scp.gpr r = s.scp.gpr r := by
  obtain ⟨u, act, altEnt, arrives, outcome, client, -⟩ := down_parts goes r
  rw [client, (passes_preSwitch h unswapped act u altEnt outcome).1]
  exact congrArg (fun a => a.1.gpr r) arrives

/-- A register that the branch leaves alone goes down as its caller set it, or as the client's. -/
theorem down_word {r : Gpr} (alone : r ∉ replaced intr (s.scp.lword .eax)) :
    (final (msdosPreExtender h intr) s).filled.rmreg.lword r =
      (s.brought r).getD (s.scp.lword r) := by
  have unswapped : ¬(intr = 0x33 ∧ s.scp.lword .eax = 0x14 ∧ r = .edx) := by
    rintro ⟨mouse, swap, rfl⟩
    apply alone
    simp [replaced, mouse, swap]
  obtain ⟨u, act, altEnt, arrives, outcome, -, word⟩ := down_parts goes r
  obtain ⟨client, handed⟩ := passes_preSwitch h unswapped act u altEnt outcome
  rw [word, handed alone, Sigcontext.lword, client]
  have same := congrArg (fun a => (a.2.1 r).getD (a.1.lword r)) arrives
  exact same

theorem down_set {r : Gpr} {v : Word}
    (set : ∀ u act, arrival u = arrival s.entered →
      (final (preSwitch h intr (s.scp.lword .eax) act) u).handed r = some v) :
    (final (msdosPreExtender h intr) s).filled.rmreg.lword r = v := by
  obtain ⟨u, act, altEnt, arrives, -, -, word⟩ := down_parts goes r
  rw [word, set u act arrives]
  rfl

end Down

section Values

theorem handed_setRmLword (r : Gpr) (v : Word) (s : State σ) :
    (final (setRmLword r v) s).handed r = some v := by
  simp [setRmLword, State.handed, RealModeCallStructure.lword]

theorem handed_passDs (r : Gpr) (s : State σ) : (final (passDs r) s).handed r = some 0 := by
  rw [passDs, final_bind, final_bind]
  exact handed_setRmLword r 0 _

theorem handed_passTwoWindows {si di : Gpr} (different : di ≠ si) (n k : Nat) (paras : Word)
    (s : State σ) : (final (passTwoWindows h si di n k paras) s).handed si = some 0 := by
  rw [passTwoWindows, final_bind, final_bind, final_bind]
  have eff : ServiceEffect h (Passes True si) := passes_effect h
  refine ((?_ : Moves (Passes True si) _) _).2 trivial |>.trans (handed_setRmLword si 0 _)
  refine Moves.bind (moves_reads _) fun src => Moves.bind (eff.memory _) fun _ => ?_
  refine Moves.bind (eff.rmEs _) fun _ => Moves.bind (passes_setRmLword 0 fun _ => different) fun _ => ?_
  exact Moves.bind (moves_reads _) fun dst => eff.memory _

theorem loWord_d16_32 (s : State σ) (v : Dword) : loWord (s.d16_32 v) = loWord v := by
  unfold State.d16_32
  split
  · rfl
  · rw [loWord, BitVec.setWidth_and]
    exact BitVec.and_allOnes

theorem handed_dosLongIo (helper : Far → Far) (s : State σ) :
    (final (dosLongIo h helper) s).handed .ecx = some (s.scp.lword .ecx) := by
  simp only [dosLongIo, final_bind, final_reads, result_reads]
  have eff : ServiceEffect h (Passes True .ecx) := passes_effect h
  rw [Sigcontext.lword, ← loWord_d16_32 s (s.scp.gpr .ecx)]
  refine ((?_ : Moves (Passes True .ecx) _) _).2 trivial |>.trans (handed_setRmLword .ecx _ _)
  exact eff.rmDoIntTo _ _ _

def State.mouseOffset (s : State σ) : Word :=
  if s.scp.es ≠ 0 then (s.client.rmcbs .ms).offset else 0

def State.ps2Offset (s : State σ) : Word :=
  if s.scp.es ≠ 0 ∧ s.d16_32 (s.scp.gpr .ebx) ≠ 0 then (s.client.rmcbs .ps2ms).offset else 0

theorem handed_passMouseCallback (es : Word) (cbk : Far) (s : State σ) :
    (final (passMouseCallback es cbk) s).handed .edx = some (if es ≠ 0 then cbk.offset else 0) := by
  rw [passMouseCallback, final_ite]
  split
  · exact handed_setRmLword .edx _ _
  · exact handed_setRmLword .edx _ _

theorem handed_mouseSetHandler (s : State σ) :
    (final (mouseSetHandler false) s).handed .edx = some s.mouseOffset := by
  rw [mouseSetHandler, final_bind, final_reads, result_reads, final_bind, final_bind]
  exact handed_passMouseCallback _ _ _

theorem handed_ps2SetHandler (s : State σ) :
    (final ps2SetHandler s).handed .ebx = some s.ps2Offset := by
  rw [ps2SetHandler, final_bind, final_reads, result_reads, final_ite, id, State.ps2Offset]
  split
  · exact handed_setRmLword .ebx _ _
  · exact handed_setRmLword .ebx _ _

end Values

section Down

variable {h} {s : State σ}

theorem down_longIo (goes : result (msdosPreExtender h 0x21) s = .rm)
    (ah : hiByte (s.scp.lword .eax) = 0x3f ∨ hiByte (s.scp.lword .eax) = 0x40) :
    (final (msdosPreExtender h 0x21) s).filled.rmreg.lword .ecx = s.scp.lword .ecx := by
  apply down_set goes
  intro u act arrives
  have count : u.scp.lword .ecx = s.scp.lword .ecx := congrArg (fun a => a.1.lword .ecx) arrives
  have branch : ∃ helper, preSwitch h 0x21 (s.scp.lword .eax) act =
      goOn (dosLongIo h helper) true := by
    rcases ah with ah | ah
    · exact ⟨getLrHelper, by simp [preSwitch, dosFn, preDos, ah]⟩
    · exact ⟨getLwHelper, by simp [preSwitch, dosFn, preDos, ah]⟩
  obtain ⟨helper, branch⟩ := branch
  rw [branch, ← count]
  exact handed_dosLongIo h helper u

theorem down_parseFcb (goes : result (msdosPreExtender h 0x21) s = .rm)
    (ah : hiByte (s.scp.lword .eax) = 0x29) :
    (final (msdosPreExtender h 0x21) s).filled.rmreg.lword .esi = 0 := by
  apply down_set goes
  intro u act arrives
  have branch : preSwitch h 0x21 (s.scp.lword .eax) act =
      goOn (passTwoWindows h .esi .edi 0x100 0x50 0x10) := by
    simp [preSwitch, dosFn, preDos, ah]
  rw [branch]
  exact handed_passTwoWindows h (by decide) _ _ _ u

theorem down_country (goes : result (msdosPreExtender h 0x21) s = .rm)
    (ah : hiByte (s.scp.lword .eax) = 0x38) :
    (final (msdosPreExtender h 0x21) s).filled.rmreg.lword .edx = 0 := by
  apply down_set goes
  intro u act arrives
  have branch : preSwitch h 0x21 (s.scp.lword .eax) act = goOn (passDs .edx) := by
    simp [preSwitch, dosFn, preDos, ah]
  rw [branch]
  exact handed_passDs .edx u

theorem down_mouse (goes : result (msdosPreExtender h 0x33) s = .rm)
    (ax : s.scp.lword .eax = 0x0c) :
    (final (msdosPreExtender h 0x33) s).filled.rmreg.lword .edx = s.mouseOffset := by
  apply down_set goes
  intro u act arrives
  have same : u.mouseOffset = s.mouseOffset := congrArg (fun a : Sigcontext × (Gpr → Option Word) ×
    (Nat → MsdosStruct) × Nat × MsdosOps =>
    if a.1.es ≠ 0 then ((a.2.2.1 (a.2.2.2.1 - 1)).rmcbs .ms).offset else 0) arrives
  rw [ax, ← same]
  exact handed_mouseSetHandler u

theorem down_ps2 (goes : result (msdosPreExtender h 0x15) s = .rm)
    (ax : s.scp.lword .eax = 0xc207) :
    (final (msdosPreExtender h 0x15) s).filled.rmreg.lword .ebx = s.ps2Offset := by
  apply down_set goes
  intro u act arrives
  have scp : u.scp = s.scp := congrArg (·.1) arrives
  have client : u.client = s.client := congrArg (fun a => a.2.2.1 (a.2.2.2.1 - 1)) arrives
  have same : u.ps2Offset = s.ps2Offset := by
    rw [State.ps2Offset, State.ps2Offset, State.d16_32, State.d16_32, scp, client]
  rw [ax, ← same]
  exact handed_ps2SetHandler u

end Down

/-! ## The way back -/

abbrev Opens (r : Gpr) : State σ → State σ → Prop :=
  Keeps fun s => (maskHas s.updateMask (.gpr r), s.rmreg.lword r)

abbrev Holds (r : Gpr) : State σ → State σ → Prop := Keeps fun s => s.scp.gpr r

def Shuts (r : Gpr) (s t : State σ) : Prop :=
  maskHas s.updateMask (.gpr r) = false → maskHas t.updateMask (.gpr r) = false

instance (r : Gpr) : IsPreorder (State σ) (Shuts r) where
  refl _ := id
  trans _ _ _ first second := fun shut => second (first shut)

section Effects

variable (r : Gpr)

theorem opens_effect : ServiceEffect h (Opens r) where
  call _ _ _ _ := rfl
  memory _ _ := rfl
  client _ _ _ := rfl
  segments _ _ _ := rfl
  rmDs _ _ := rfl
  rmEs _ _ := rfl
  target _ _ _ := rfl
  targetKept _ := rfl
  frame _ _ _ _ := rfl
  io _ _ := rfl
  table _ _ := rfl
  keepOther i other s := by simp [Keeps, preserve, other r]

theorem holds_effect : ServiceEffect h (Holds r) where
  call _ _ _ _ := rfl
  memory _ _ := rfl
  client _ _ _ := rfl
  segments _ same s := congrFun (same s.scp) r
  rmDs _ _ := rfl
  rmEs _ _ := rfl
  target _ _ _ := rfl
  targetKept _ := rfl
  frame _ _ _ _ := rfl
  io _ _ := rfl
  table _ _ := rfl
  keepOther _ _ _ := rfl

theorem shuts_effect : ServiceEffect h (Shuts r) where
  call _ _ _ _ := id
  memory _ _ := id
  client _ _ _ := id
  segments _ _ _ := id
  rmDs _ _ := id
  rmEs _ _ := id
  target _ _ _ := id
  targetKept _ := id
  frame _ _ _ _ := id
  io _ _ := id
  table _ _ := id
  keepOther i other s := fun shut => by simp [preserve, shut]

variable {r}

theorem opens_preserveGpr {q : Gpr} (other : q ≠ r) : Moves (Opens r) (preserveGpr q : M σ Unit) :=
  fun s => by simp [Keeps, preserveGpr, preserve, other]

theorem holds_setReg32 {q : Gpr} (v : Dword) (other : q ≠ r) :
    Moves (Holds r) (setReg32 q v : M σ Unit) := fun _ => setGpr_of_ne _ _ other.symm

theorem shuts_preserveGpr (q : Gpr) : Moves (Shuts r) (preserveGpr q : M σ Unit) :=
  fun s shut => by simp [preserveGpr, preserve, shut]

theorem shuts_setReg (q : Gpr) (v : Dword) : Moves (Shuts r) (setReg q v : M σ Unit) :=
  Moves.bind (shuts_preserveGpr q) fun _ _ => id

end Effects

def Closes (r : Gpr) (m : M σ Unit) : Prop :=
  ∀ s, maskHas (final m s).updateMask (.gpr r) = false

section Closes

variable {r : Gpr}

theorem closes_preserveGpr : Closes r (preserveGpr r : M σ Unit) := fun s => by
  simp [preserveGpr, preserve]

theorem Closes.first {m : M σ Unit} {k : Unit → M σ Unit} (closes : Closes r m)
    (shuts : Moves (Shuts r) (k ())) : Closes r (m >>= k) :=
  fun s => shuts (final m s) (closes s)

theorem Closes.later {α : Type} {m : M σ α} {k : α → M σ Unit} (closes : ∀ a, Closes r (k a)) :
    Closes r (m >>= k) :=
  fun s => closes (result m s) (final m s)

theorem Closes.ite {c : Prop} [Decidable c] {m n : M σ Unit} (hm : Closes r m) (hn : Closes r n) :
    Closes r (if c then m else n) := by
  split
  · exact hm
  · exact hn

theorem closes_setReg (v : Dword) : Closes r (setReg r v : M σ Unit) :=
  closes_preserveGpr.first fun _ => id

theorem closes_one {q : Gpr} {k : Unit → M σ Unit} (listed : r ∈ [q]) (shuts : Moves (Shuts r) (k ())) :
    Closes r (preserveGpr q >>= k) := by
  obtain rfl := List.mem_singleton.mp listed
  exact closes_preserveGpr.first shuts

theorem closes_two {p q : Gpr} {k : Unit → M σ Unit} (listed : r ∈ [p, q])
    (shuts : Moves (Shuts r) (k ())) :
    Closes r (preserveGpr p >>= fun _ => preserveGpr q >>= k) := by
  rcases List.mem_pair.mp listed with rfl | rfl
  · exact closes_preserveGpr.first (Moves.bind (shuts_preserveGpr q) fun _ => shuts)
  · exact .later fun _ => closes_preserveGpr.first shuts

theorem closes_retLfn {al : Byte} (listed : r ∈ lfnRegs al) : Closes r (retLfn h al) := by
  have eff := shuts_effect h r
  unfold lfnRegs at listed
  unfold retLfn
  split_ifs at listed ⊢ with file findFirst findNext getCwd canonicalize extendedOpen volume info
  · exact List.mem_singleton.mp listed ▸ closes_preserveGpr
  · exact closes_two listed (ServiceEffect.unlessFailed (eff.copyToEs _ _))
  · exact closes_one listed (ServiceEffect.unlessFailed (eff.copyToEs _ _))
  · exact closes_one listed (ServiceEffect.unlessFailed (eff.stringToDs _ _))
  · exact closes_two listed (ServiceEffect.unlessFailed (eff.stringToEs _ _))
  · exact List.mem_singleton.mp listed ▸ closes_preserveGpr
  · refine closes_two listed (Moves.bind (moves_reads _) fun cx => ?_)
    exact ServiceEffect.unlessFailed (eff.stringToEs _ _)
  · exact closes_one listed (ServiceEffect.unlessFailed (eff.copyToDs _ _))
  · cases listed

/-- Every listed register is kept from the service: in 38h not always, in a long read or write EAX not
always. -/
theorem closes_postDos {f : DosRet} {al : Byte} (listed : r ∈ f.keeps al) (other : r ≠ .eax)
    (unconditional : f ≠ .country) : Closes r (postDos h f al) := by
  have eff := shuts_effect h r
  cases f with
  | terminate => exact absurd (List.mem_singleton.mp listed) other
  | keepEdx | setPsp | extendedOpen => exact List.mem_singleton.mp listed ▸ closes_preserveGpr
  | fcb => exact closes_one listed (eff.copyToDs _ _)
  | parseFcb =>
    refine closes_two listed (Moves.bind (moves_reads _) fun dst => ?_)
    refine Moves.bind (moves_reads _) fun src => Moves.bind (eff.memory _) fun _ => ?_
    refine Moves.bind (moves_reads _) fun sum => Moves.bind (shuts_setReg _ _) fun _ => ?_
    exact eff.copyToEs _ _
  | getDta =>
    obtain rfl := List.mem_singleton.mp listed
    refine .later fun s => Closes.ite ?_ ?_
    · exact .later fun _ => closes_setReg _
    · exact .later fun _ => closes_setReg _
  | getPsp =>
    obtain rfl := List.mem_singleton.mp listed
    refine .later fun s => Closes.ite (closes_setReg _) ?_
    exact .later fun sel => closes_setReg _
  | createSetPsp =>
    refine closes_one listed (Moves.bind (moves_reads _) fun inDos => Moves.onlyIf fun _ => ?_)
    exact Moves.bind (moves_reads _) fun s => eff.memory _
  | createPsp => exact closes_one listed (Moves.bind (moves_reads _) fun s => eff.memory _)
  | country => exact absurd rfl unconditional
  | getCwd => exact closes_one listed (ServiceEffect.unlessFailed (eff.stringToDs _ _))
  | driveParams => exact closes_two listed (eff.copyToEs _ _)
  | rename => exact closes_two listed (k := pure) (moves_pure _)
  | longIo =>
    rcases List.mem_pair.mp listed with rfl | rfl
    · exact absurd rfl other
    · exact .later fun io => .later fun _ => .later fun _ => closes_preserveGpr
  | redirection =>
    cases taken : 2 ≤ al && al ≤ 6 with
    | true =>
      simp only [DosRet.keeps, redirectionRegs, taken, if_true] at listed
      simp only [postDos, taken, onlyIf, if_true]
      exact closes_two listed (Moves.bind (eff.copyToDs _ _) fun _ => eff.copyToEs _ _)
    | false =>
      simp only [DosRet.keeps, redirectionRegs, taken, Bool.false_eq_true, if_false] at listed
      cases listed
  | canonicalize => exact closes_two listed (eff.copyToEs _ _)
  | international =>
    have swapped : r ∈ [.edi, .edx] := by
      rcases List.mem_pair.mp listed with rfl | rfl
      all_goals decide
    refine closes_two swapped (Moves.bind (moves_reads _) fun s => ServiceEffect.unlessFailed ?_)
    split_ifs
    · exact eff.copyToEs _ _
    · exact eff.copyToDs _ _
    · exact eff.memory _
    · exact moves_pure _
  | lfn => exact closes_retLfn h listed
  | farPointer | extendedError | exec | serverCall | leadByte | other => cases listed

theorem dosRet_country : ∀ {ah}, dosRet ah = .country → ah = 0x38 := by decide +kernel

theorem mem_kept {intr : Nat} {ax : Word} (listed : r ∈ kept intr ax) (other : intr ≠ 0x21) :
    intr = 0x2f ∧ ax = 0x4310 ∧ r = .ebx ∨ intr = 0x33 ∧ ax = 0x19 ∧ r = .ebx ∨
      intr = 0x33 ∧ (ax = 0x09 ∨ ax = 0x14) ∧ r = .edx := by
  simp only [kept, other, if_false] at listed
  split_ifs at listed with int2f entry int33 edx driver
  · exact .inl ⟨int2f, entry, List.mem_singleton.mp listed⟩
  · cases listed
  · exact .inr (.inr ⟨int33, by simpa using edx, List.mem_singleton.mp listed⟩)
  · exact .inr (.inl ⟨int33, driver, List.mem_singleton.mp listed⟩)
  · cases listed
  · cases listed

/-- 38h with DX = FFFFh sets the country and returns nothing in the buffer. -/
theorem closed_postSwitch {intr : Nat} {ax : Word} {s : State σ} (listed : r ∈ kept intr ax)
    (other : r ≠ .eax)
    (reads : intr = 0x21 → hiByte ax = 0x38 → s.scp.lword .edx ≠ 0xffff) :
    maskHas (final (postSwitch h intr ax) s).updateMask (.gpr r) = false := by
  have eff := shuts_effect h r
  by_cases int21 : intr = 0x21
  · subst int21
    have branch : postSwitch h 0x21 ax = postDos h (dosRet (hiByte ax)) (loByte ax) := rfl
    rw [branch]
    by_cases country : dosRet (hiByte ax) = .country
    · have given := reads rfl (dosRet_country country)
      rw [kept, if_pos rfl, country] at listed
      rw [country, postDos, final_bind, final_reads, result_reads, final_onlyIf,
        if_pos (decide_eq_true given)]
      have closes : Closes r (preserveGpr .edx >>= fun _ => unlessFailed (copyToDs h .edx 0x18)) :=
        closes_one listed (ServiceEffect.unlessFailed (eff.copyToDs _ _))
      exact closes s
    · exact closes_postDos h listed other country s
  · rcases mem_kept listed int21 with ⟨rfl, rfl, rfl⟩ | ⟨rfl, rfl, rfl⟩ | ⟨rfl, edx, rfl⟩
    · have closes : Closes .ebx (retXmsEntry : M σ Unit) :=
        .later fun s => .later fun _ => .later fun pma => .later fun _ => closes_setReg _
      exact closes s
    · have closes : Closes .ebx (retMouse h 0x19) :=
        .later fun seg => .later fun sel => closes_setReg _
      exact closes s
    · have branch : postSwitch h 0x33 ax = preserveGpr .edx := by
        rcases edx with rfl | rfl
        all_goals rfl
      rw [branch]
      exact closes_preserveGpr s

end Closes

section Up

variable {h} {intr : Nat} {t : State σ} {r : Gpr}

theorem postRegs_gpr (s : State σ) : (final postRegs s).scp.gpr r =
    if maskHas s.updateMask (.gpr r) then zext (s.rmreg.lword r) else s.scp.gpr r := rfl

def unpacked (h : DpmiHost σ) (intr : Nat) (t : State σ) : State σ :=
  final (postCopies h intr (t.scp.lword .eax)) t

theorem unpacked_gpr (r : Gpr) : (unpacked h intr t).scp.gpr r = t.scp.gpr r :=
  (holds_effect h r).postCopies intr _ (Moves.transBufferSeg fun _ _ => rfl) t

theorem up_taken (opens : Opens r (unpacked h intr t)
      (final (postSwitch h intr (t.scp.lword .eax)) (unpacked h intr t))) :
    (final (msdosPostExtender h intr) t).scp.gpr r = zext (t.rmreg.lword r) := by
  have copies : Opens r { t with updateMask := ~~~0 } (unpacked h intr t) :=
    (opens_effect h r).postCopies intr _ (Moves.transBufferSeg fun _ _ => rfl) t
  have restore : Moves (Opens r) (restoreEmsFrame h) :=
    Moves.restoreEmsFrame h (fun _ _ => rfl) (fun _ _ => rfl) fun _ _ => rfl
  have whole := IsTrans.trans _ _ _ (IsTrans.trans _ _ _ copies opens)
    ((Moves.onlyIf (c := needXbuf intr (t.scp.lword .eax)) fun _ => restore) _)
  obtain ⟨mask, word⟩ := Prod.mk.inj whole
  have all : maskHas (~~~0) (.gpr r) = true := (maskHas_not 0 _).trans (by rw [maskHas_zero]; rfl)
  rw [msdosPostExtender, final_bind, final_bind, final_bind, final_bind, postRegs_gpr]
  refine (if_pos (mask.trans all)).trans (congrArg zext word)

theorem up_free_gpr (free : r ∉ kept intr (t.scp.lword .eax)) :
    (final (msdosPostExtender h intr) t).scp.gpr r = zext (t.rmreg.lword r) := by
  refine up_taken ((opens_effect h r).postSwitch (fun q listed => ?_) (fun _ _ _ _ => rfl) _)
  exact opens_preserveGpr fun same => free (same ▸ listed)

theorem up_free (free : r ∉ kept intr (t.scp.lword .eax)) :
    (final (msdosPostExtender h intr) t).scp.lword r = t.rmreg.lword r := by
  rw [Sigcontext.lword, up_free_gpr free]
  exact loWord_zext _

theorem up_country (dos : intr = 0x21) (ah : hiByte (t.scp.lword .eax) = 0x38)
    (unread : t.scp.lword .edx = 0xffff) :
    (final (msdosPostExtender h intr) t).scp.lword r = t.rmreg.lword r := by
  subst dos
  have dx : (unpacked h 0x21 t).scp.lword .edx = 0xffff :=
    (congrArg loWord (unpacked_gpr .edx)).trans unread
  have branch : final (postSwitch h 0x21 (t.scp.lword .eax)) (unpacked h 0x21 t) =
      unpacked h 0x21 t := by
    simp [postSwitch, dosRet, ah, postDos, dx]
  have taken : (final (msdosPostExtender h 0x21) t).scp.gpr r = zext (t.rmreg.lword r) := by
    apply up_taken
    rw [branch]
    rfl
  rw [Sigcontext.lword, taken]
  exact loWord_zext _

theorem up_shut (shut : maskHas (final (postSwitch h intr (t.scp.lword .eax))
      (unpacked h intr t)).updateMask (.gpr r) = false) :
    (final (msdosPostExtender h intr) t).scp.gpr r =
      (final (postSwitch h intr (t.scp.lword .eax)) (unpacked h intr t)).scp.gpr r := by
  have holds : Moves (Holds r) (restoreEmsFrame h) :=
    Moves.restoreEmsFrame h (fun _ _ => rfl) (fun _ _ => rfl) fun _ _ => rfl
  have shuts : Moves (Shuts r) (restoreEmsFrame h) :=
    Moves.restoreEmsFrame h (fun _ _ => id) (fun _ _ => id) fun _ _ => id
  have client := (Moves.onlyIf (c := needXbuf intr (t.scp.lword .eax)) fun _ => holds)
    (final (postSwitch h intr (t.scp.lword .eax)) (unpacked h intr t))
  have mask := (Moves.onlyIf (c := needXbuf intr (t.scp.lword .eax)) fun _ => shuts) _ shut
  rw [msdosPostExtender, final_bind, final_bind, final_bind, final_bind, postRegs_gpr]
  refine (if_neg ?_).trans client
  exact Bool.not_eq_true _ ▸ mask

theorem unpacked_shut (listed : r ∈ kept intr (t.scp.lword .eax)) (other : r ≠ .eax)
    (reads : intr = 0x21 → hiByte (t.scp.lword .eax) = 0x38 → t.scp.lword .edx ≠ 0xffff) :
    maskHas (final (postSwitch h intr (t.scp.lword .eax)) (unpacked h intr t)).updateMask (.gpr r) =
      false := by
  have dx : (unpacked h intr t).scp.lword .edx = t.scp.lword .edx := congrArg loWord (unpacked_gpr .edx)
  exact closed_postSwitch h listed other fun dos country => dx ▸ reads dos country

theorem up_kept (listed : r ∈ kept intr (t.scp.lword .eax)) (other : r ≠ .eax)
    (unassigned : r ∉ assigned intr (t.scp.lword .eax))
    (reads : intr = 0x21 → hiByte (t.scp.lword .eax) = 0x38 → t.scp.lword .edx ≠ 0xffff) :
    (final (msdosPostExtender h intr) t).scp.lword r = t.scp.lword r := by
  have switch : Moves (Holds r) (postSwitch h intr (t.scp.lword .eax)) := by
    refine (holds_effect h r).postSwitch (fun _ _ _ => rfl) fun q assigns v => ?_
    exact holds_setReg32 v fun same => unassigned (same ▸ assigns)
  rw [Sigcontext.lword, up_shut (unpacked_shut listed other reads)]
  exact congrArg loWord ((switch _).trans (unpacked_gpr r))

theorem retParseFcb_esi (s : State σ) :
    (final (retParseFcb h) s).scp.gpr .esi = s.scp.gpr .esi + zext (s.rmreg.lword .esi) := by
  simp only [retParseFcb, final_bind, final_reads, result_reads]
  refine ((holds_effect h .esi).copyToEs _ _ _).trans ?_
  simp only [setReg, setReg32, setScp, final_bind, final_updates, setGpr_self]
  rfl

/-- 29h moves SI on by what the service has moved it from the start of the buffer. -/
theorem up_parseFcb (ah : hiByte (t.scp.lword .eax) = 0x29) (unmoved : t.rmreg.lword .esi = 0) :
    (final (msdosPostExtender h 0x21) t).scp.lword .esi = t.scp.lword .esi := by
  have branch : postSwitch h 0x21 (t.scp.lword .eax) = retParseFcb h := by
    simp [postSwitch, dosRet, ah, postDos]
  have listed : Gpr.esi ∈ kept 0x21 (t.scp.lword .eax) := by
    simp [kept, dosRet, ah, DosRet.keeps]
  have word : (unpacked h 0x21 t).rmreg.lword .esi = t.rmreg.lword .esi :=
    (Prod.mk.inj ((opens_effect h .esi).postCopies 0x21 _ (Moves.transBufferSeg fun _ _ => rfl) t)).2
  rw [Sigcontext.lword, up_shut (unpacked_shut listed (by decide) fun _ country => by simp [ah] at country),
    branch, retParseFcb_esi, unpacked_gpr, word, unmoved]
  simp [zext, Sigcontext.lword]

end Up

/-! ## The two tables against each other -/

def resultRegs (intr : Nat) (ax : Word) : List Gpr :=
  if intr = 0x21 then
    if hiByte ax = 0x2f || hiByte ax = 0x51 || hiByte ax = 0x62 then [.ebx] else []
  else if intr = 0x2f then if ax = 0x4310 then [.ebx] else []
  else if intr = 0x33 then if ax = 0x14 then [.edx] else if ax = 0x19 then [.ebx] else []
  else []

section Tables

variable {r : Gpr}

theorem DosFn.replaces_al {f : DosFn} (al : Byte) (lfn : f ≠ .lfn) (network : f ≠ .redirection) :
    f.replaces al = f.replaces 0 := by
  cases f with
  | lfn => exact absurd rfl lfn
  | redirection => exact absurd rfl network
  | _ => rfl

theorem DosRet.keeps_al {f : DosRet} (al : Byte) (lfn : f ≠ .lfn) (network : f ≠ .redirection) :
    f.keeps al = f.keeps 0 := by
  cases f with
  | lfn => exact absurd rfl lfn
  | redirection => exact absurd rfl network
  | _ => rfl

/-- int 21h gives every register back that it replaces, but EAX in 00h, CX in the long reads and writes,
and those of EXEC. -/
theorem dos_matched {ah al : Byte} (replaces : r ∈ (dosFn ah).replaces al)
    (lost : r ∉ (dosRet ah).keeps al) : ah = 0x4b ∨ (ah = 0x3f ∨ ah = 0x40) ∧ r = .ecx := by
  by_cases lfn : ah = 0x71
  · subst lfn
    exact absurd replaces lost
  by_cases network : ah = 0x5f
  · subst network
    exact absurd replaces lost
  have table : ∀ ah : Byte, ah ≠ 0x71 → ah ≠ 0x5f →
      (dosFn ah ≠ .lfn ∧ dosFn ah ≠ .redirection ∧ dosRet ah ≠ .lfn ∧ dosRet ah ≠ .redirection) ∧
      ∀ r ∈ (dosFn ah).replaces 0, r ∈ (dosRet ah).keeps 0 ∨ ah = 0x4b ∨
        (ah = 0x3f ∨ ah = 0x40) ∧ r = .ecx := by decide +kernel
  obtain ⟨⟨fn, fn', ret, ret'⟩, matched⟩ := table ah lfn network
  rw [DosFn.replaces_al al fn fn'] at replaces
  rw [DosRet.keeps_al al ret ret'] at lost
  exact (matched r replaces).resolve_left lost

theorem word_of_bytes {ax : Word} (high : hiByte ax = 0xc2) (low : loByte ax = 0x07) : ax = 0xc207 := by
  have high' := congrArg BitVec.toNat high
  have low' := congrArg BitVec.toNat low
  simp only [hiByte, loByte, BitVec.extractLsb'_toNat, BitVec.toNat_setWidth,
    Nat.shiftRight_eq_div_pow] at high' low'
  have bound := ax.isLt
  apply BitVec.eq_of_toNat_eq
  simp only [BitVec.ofNat_eq_ofNat, BitVec.toNat_ofNat] at high' low' ⊢
  omega

theorem replaced_lost {intr : Nat} {ax : Word} (replaces : r ∈ replaced intr ax)
    (lost : r ∉ kept intr ax) (noExec : ¬(intr = 0x21 ∧ hiByte ax = 0x4b)) :
    intr = 0x15 ∧ ax = 0xc207 ∧ r = .ebx ∨ intr = 0x33 ∧ ax = 0x0c ∧ r = .edx ∨
      intr = 0x21 ∧ (hiByte ax = 0x3f ∨ hiByte ax = 0x40) ∧ r = .ecx := by
  unfold replaced at replaces
  split_ifs at replaces with int15 ps2 int21 int33 mouse
  · refine .inl ⟨int15, ?_, List.mem_singleton.mp replaces⟩
    simp only [Bool.and_eq_true, decide_eq_true_eq] at ps2
    exact word_of_bytes ps2.1 ps2.2
  · cases replaces
  · rw [kept, if_pos int21] at lost
    rcases dos_matched replaces lost with exec | ⟨long, count⟩
    · exact absurd ⟨int21, exec⟩ noExec
    · exact .inr (.inr ⟨int21, long, count⟩)
  · obtain rfl := List.mem_singleton.mp replaces
    subst int33
    by_cases set : ax = 0x0c
    · exact .inr (.inl ⟨rfl, set, rfl⟩)
    · exact absurd (by simp_all [kept]) lost
  · cases replaces
  · cases replaces

/-- A register that the translator assigns is a result, or the pointer that 29h moves on. -/
theorem assigned_result {intr : Nat} {ax : Word} (assigns : r ∈ assigned intr ax) (other : r ≠ .eax)
    (noResult : r ∉ resultRegs intr ax) : intr = 0x21 ∧ hiByte ax = 0x29 ∧ r = .esi := by
  have table : ∀ ah : Byte, ∀ r ∈ (dosRet ah).assigns, r = .eax ∨ (ah = 0x29 ∧ r = .esi) ∨
      (ah = 0x2f ∨ ah = 0x51 ∨ ah = 0x62) ∧ r = .ebx := by decide +kernel
  unfold assigned at assigns
  split_ifs at assigns with int21 int2f entry int33 driver
  · rcases table _ r assigns with eax | pointer | ⟨answers, rfl⟩
    · exact absurd eax other
    · exact ⟨int21, pointer⟩
    · refine absurd ?_ noResult
      rcases answers with ah | ah | ah
      all_goals simp [resultRegs, int21, ah]
  · exact absurd (by simpa [resultRegs, int2f, entry] using assigns) noResult
  · cases assigns
  · refine absurd ?_ noResult
    simpa [resultRegs, int33, driver] using assigns
  · cases assigns
  · cases assigns

end Tables

/-! ## The whole call -/

/-- A call that goes to real mode, its registers filled in by the caller, to a service that changes none
of BX, CX, DX, SI, DI and BP. -/
structure RealModeCall (intr : Nat) (s t : State σ) : Prop where
  target : maskHas s.rMask .cs = true ∧ maskHas s.rMask .eip = true
  goes : result (msdosPreExtender h intr) s = .rm
  client : t.scp = (final (msdosPreExtender h intr) s).scp
  words : ∀ r, r ≠ .eax →
    t.rmreg.lword r = (final (msdosPreExtender h intr) s).filled.rmreg.lword r

/-- The client finds in every register what it had there, but where the service answers. -/
def Transparent (intr : Nat) (s u : State σ) : Prop :=
  ∀ r, r ≠ .eax → r ∉ resultRegs intr (s.scp.lword .eax) → u.scp.lword r = s.scp.lword r

structure GivesBack (intr : Nat) (s : State σ) : Prop where
  country : intr = 0x21 → hiByte (s.scp.lword .eax) = 0x38 → s.scp.lword .edx ≠ 0xffff
  mouse : intr = 0x33 → s.scp.lword .eax = 0x0c → s.scp.lword .edx = s.mouseOffset
  ps2 : intr = 0x15 → s.scp.lword .eax = 0xc207 → s.scp.lword .ebx = s.ps2Offset
  caller : ∀ r, r ≠ .eax → r ∉ resultRegs intr (s.scp.lword .eax) →
    r ∉ replaced intr (s.scp.lword .eax) → r ∉ kept intr (s.scp.lword .eax) →
    maskHas s.rMask (.gpr r) = true → s.rmreg.lword r = s.scp.lword r

section Call

variable {h} {intr : Nat} {s t : State σ} (call : RealModeCall h intr s t)
include call

theorem RealModeCall.lword {r : Gpr}
    (unswapped : ¬(intr = 0x33 ∧ s.scp.lword .eax = 0x14 ∧ r = .edx)) :
    t.scp.lword r = s.scp.lword r := by
  rw [call.client]
  exact congrArg loWord (down_client call.goes unswapped)

theorem RealModeCall.ax : t.scp.lword .eax = s.scp.lword .eax := call.lword nofun

theorem RealModeCall.returned (r : Gpr) (other : r ≠ .eax)
    (free : r ∉ kept intr (s.scp.lword .eax)) :
    (final (msdosPostExtender h intr) t).scp.lword r =
      (final (msdosPreExtender h intr) s).filled.rmreg.lword r :=
  (up_free (call.ax.symm ▸ free)).trans (call.words r other)

end Call

section Special

variable {h} {s t : State σ}

theorem returned_country (call : RealModeCall h 0x21 s t) (ah : hiByte (s.scp.lword .eax) = 0x38)
    (unread : s.scp.lword .edx = 0xffff) :
    (final (msdosPostExtender h 0x21) t).scp.lword .edx = 0 := by
  have dx : t.scp.lword .edx = 0xffff := (call.lword nofun).trans unread
  rw [up_country rfl (call.ax.symm ▸ ah) dx, call.words .edx nofun, down_country call.goes ah]

theorem returned_mouse (call : RealModeCall h 0x33 s t) (ax : s.scp.lword .eax = 0x0c) :
    (final (msdosPostExtender h 0x33) t).scp.lword .edx = s.mouseOffset := by
  rw [call.returned .edx nofun (by rw [ax]; decide), down_mouse call.goes ax]

theorem returned_ps2 (call : RealModeCall h 0x15 s t) (ax : s.scp.lword .eax = 0xc207) :
    (final (msdosPostExtender h 0x15) t).scp.lword .ebx = s.ps2Offset := by
  rw [call.returned .ebx nofun (by rw [ax]; decide), down_ps2 call.goes ax]

theorem returned_longIo (call : RealModeCall h 0x21 s t)
    (ah : hiByte (s.scp.lword .eax) = 0x3f ∨ hiByte (s.scp.lword .eax) = 0x40) :
    (final (msdosPostExtender h 0x21) t).scp.lword .ecx = s.scp.lword .ecx := by
  rw [call.returned .ecx nofun, down_longIo call.goes ah]
  rcases ah with ah | ah
  all_goals simp [kept, dosRet, ah, DosRet.keeps]

theorem returned_parseFcb (call : RealModeCall h 0x21 s t) (ah : hiByte (s.scp.lword .eax) = 0x29) :
    (final (msdosPostExtender h 0x21) t).scp.lword .esi = s.scp.lword .esi := by
  have unmoved : t.rmreg.lword .esi = 0 := (call.words .esi nofun).trans (down_parseFcb call.goes ah)
  rw [up_parseFcb (call.ax.symm ▸ ah) unmoved, call.lword nofun]

end Special

/-- A call gives the client its registers back just in the calls of `GivesBack`. -/
theorem register_transparency {intr : Nat} {s t : State σ} (call : RealModeCall h intr s t)
    (noExec : ¬(intr = 0x21 ∧ hiByte (s.scp.lword .eax) = 0x4b)) :
    Transparent intr s (final (msdosPostExtender h intr) t) ↔ GivesBack intr s := by
  constructor
  · intro transparent
    constructor
    · rintro rfl ah unread
      have kept := transparent .edx nofun (by simp [resultRegs, ah])
      rw [returned_country call ah unread, unread] at kept
      exact absurd kept (by decide)
    · rintro rfl ax
      have kept := transparent .edx nofun (by simp [resultRegs, ax])
      rw [← kept, returned_mouse call ax]
    · rintro rfl ax
      have kept := transparent .ebx nofun (by simp [resultRegs])
      rw [← kept, returned_ps2 call ax]
    · intro r other noResult alone free set
      have brought : s.brought r = some (s.rmreg.lword r) := if_pos set
      have word := (call.returned r other free).trans (down_word call.goes alone)
      rw [brought] at word
      exact word.symm.trans (transparent r other noResult)
  · intro back r other noResult
    have unswapped : ¬(intr = 0x33 ∧ s.scp.lword .eax = 0x14 ∧ r = .edx) := by
      rintro ⟨mouse, swap, rfl⟩
      apply noResult
      simp [resultRegs, mouse, swap]
    by_cases listed : r ∈ kept intr (s.scp.lword .eax)
    · by_cases assigns : r ∈ assigned intr (s.scp.lword .eax)
      · obtain ⟨rfl, ah, rfl⟩ := assigned_result assigns other noResult
        exact returned_parseFcb call ah
      · rw [← call.ax] at listed assigns
        rw [up_kept listed other assigns, call.lword unswapped]
        intro dos ah
        rw [call.ax] at ah
        rw [call.lword (by simp [dos])]
        exact back.country dos ah
    · by_cases replaces : r ∈ replaced intr (s.scp.lword .eax)
      · rcases replaced_lost replaces listed noExec with ⟨rfl, ax, rfl⟩ | ⟨rfl, ax, rfl⟩ | ⟨rfl, ah, rfl⟩
        · rw [returned_ps2 call ax, back.ps2 rfl ax]
        · rw [returned_mouse call ax, back.mouse rfl ax]
        · exact returned_longIo call ah
      · rw [call.returned r other listed, down_word call.goes replaces, State.brought]
        split
        next set => exact back.caller r other noResult replaces listed set
        next => rfl

/-! ## On a host -/

@[irreducible] def mouseClient (ax : Dword) : State Bump :=
  let s := final (msdosInit bumpHost true 0x1000) bumpStart
  { s with
    rMask := regBit .cs ||| regBit .eip
    scp := { s.scp with
      gpr := fun | .eax => ax | .edx => 0x500 | _ => 0
      es := 0x87 } }

def mouseServed (ax : Dword) : State Bump :=
  (final (msdosPreExtender bumpHost 0x33) (mouseClient ax)).filled

theorem realModeCall_mouse (ax : Dword) (goes : result (msdosPreExtender bumpHost 0x33) (mouseClient ax) = .rm)
    (target : maskHas (mouseClient ax).rMask .cs = true ∧ maskHas (mouseClient ax).rMask .eip = true) :
    RealModeCall bumpHost 0x33 (mouseClient ax) (mouseServed ax) where
  target := target
  goes := goes
  client := rfl
  words _ _ := rfl

theorem register_transparency_cursor :
    Transparent 0x33 (mouseClient 0x09)
      (final (msdosPostExtender bumpHost 0x33) (mouseServed 0x09)) := by
  have call := realModeCall_mouse 0x09 (by decide +kernel) (by decide +kernel)
  have untouched : ∀ r, maskHas (mouseClient 0x09).rMask (.gpr r) = false := by
    intro r
    cases r
    all_goals decide +kernel
  refine (register_transparency bumpHost call (by decide)).mpr ⟨nofun, fun _ ax => ?_, nofun, ?_⟩
  · exact absurd ax (by decide +kernel)
  · intro r _ _ _ _ set
    rw [untouched r] at set
    cases set

/-- The driver is given the callback in DX, and the client gets it back in its own DX. -/
theorem register_transparency_misses_mouse :
    RealModeCall bumpHost 0x33 (mouseClient 0x0c) (mouseServed 0x0c) ∧
      ¬Transparent 0x33 (mouseClient 0x0c)
        (final (msdosPostExtender bumpHost 0x33) (mouseServed 0x0c)) := by
  refine ⟨realModeCall_mouse 0x0c (by decide +kernel) (by decide +kernel), fun transparent => ?_⟩
  have kept := transparent .edx nofun (by decide +kernel)
  exact absurd kept (by decide +kernel)

end Pmdapi
