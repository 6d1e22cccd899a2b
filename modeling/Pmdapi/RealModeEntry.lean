import Pmdapi.MemoryEffects
import Pmdapi.RegisterTransparency

/-! What `msdos_pre_extender` gives its caller: the registers with the mask that says which of them are
set, and the interrupt frame. -/

namespace Pmdapi
open Bytes Effect

def RealModeCallStructure.field (rmreg : RealModeCallStructure) : RegIndex → Dword
  | .es => zext rmreg.es
  | .cs => zext rmreg.cs
  | .ss => zext rmreg.ss
  | .ds => zext rmreg.ds
  | .fs => zext rmreg.fs
  | .gs => zext rmreg.gs
  | .gpr r => rmreg.gpr r
  | .esp => zext rmreg.sp
  | .eip => zext rmreg.ip
  | .eflags => zext rmreg.flags

variable {σ : Type} (h : DpmiHost σ)

/-! ## The mask -/

/-- The mask has grown, and has the bit of every field that was changed. -/
structure Accounts (before after : RegMask) (old new : RealModeCallStructure) : Prop where
  grows : before ||| after = after
  changed : ∀ i, new.field i ≠ old.field i → maskHas after i = true

theorem Accounts.refl (mask : RegMask) (rmreg : RealModeCallStructure) : Accounts mask mask rmreg rmreg :=
  ⟨BitVec.or_self, fun _ differs => absurd rfl differs⟩

theorem maskHas_of_grows {before after : RegMask} (grows : before ||| after = after) {i : RegIndex}
    (set : maskHas before i = true) : maskHas after i = true := by
  rw [← grows, maskHas, BitVec.getLsbD_or]
  exact Bool.or_eq_true_iff.mpr (.inl set)

theorem Accounts.trans {first second third : RegMask} {a b c : RealModeCallStructure}
    (one : Accounts first second a b) (two : Accounts second third b c) : Accounts first third a c := by
  refine ⟨?_, fun i differs => ?_⟩
  · rw [← two.grows, ← BitVec.or_assoc, one.grows]
  · by_cases same : c.field i = b.field i
    · exact maskHas_of_grows two.grows (one.changed i (same ▸ differs))
    · exact two.changed i same

/-- Code that sets fields together with their bits, CS and IP apart: their bits are the caller's. -/
def Masked (s t : State σ) : Prop :=
  maskHas s.rmMask .cs = true → maskHas s.rmMask .eip = true →
    Accounts s.rmMask t.rmMask s.rmreg t.rmreg

instance : IsPreorder (State σ) Masked where
  refl _ _ _ := .refl _ _
  trans _ _ _ first second cs eip := by
    have one := first cs eip
    exact one.trans (second (maskHas_of_grows one.grows cs) (maskHas_of_grows one.grows eip))

theorem masked_same {s t : State σ} (mask : t.rmMask = s.rmMask) (rmreg : t.rmreg = s.rmreg) :
    Masked s t := by
  intro cs eip
  rw [mask, rmreg]
  exact .refl _ _

theorem masked_set {s t : State σ} (i : RegIndex) (mask : t.rmMask = s.rmMask ||| regBit i)
    (others : ∀ j, j ≠ i → t.rmreg.field j = s.rmreg.field j) : Masked s t := by
  intro cs eip
  rw [mask]
  refine ⟨by rw [← BitVec.or_assoc, BitVec.or_self], fun j differs => ?_⟩
  have same : i = j := by
    by_contra different
    exact differs (others j (Ne.symm different))
  simp [same]

theorem masked_setRmLword (r : Gpr) (v : Word) : Moves Masked (setRmLword r v : M σ Unit) := by
  refine fun s => masked_set (.gpr r) rfl fun j other => ?_
  cases j with
  | gpr q =>
    have different : q ≠ r := fun same => other (congrArg _ same)
    exact setGpr_of_ne _ _ different
  | _ => rfl

theorem masked_rmDoInt (flags cs ip : Word) : Moves Masked (rmDoInt flags cs ip : M σ Unit) := by
  refine fun s => masked_set .eflags rfl fun j other => ?_
  cases j with
  | eflags => exact absurd rfl other
  | _ => rfl

theorem masked_target (cs ip : Word) :
    Moves Masked (setRmregs fun r => { r with cs := cs, ip := ip } : M σ Unit) := by
  intro s csSet eipSet
  refine ⟨BitVec.or_self, fun i differs => ?_⟩
  cases i with
  | cs => exact csSet
  | eip => exact eipSet
  | _ => exact absurd rfl differs

theorem masked_effect : ServiceEffect h Masked where
  call _ _ _ _ := masked_same rfl rfl
  memory _ _ := masked_same rfl rfl
  client _ _ _ := masked_same rfl rfl
  segments _ _ _ := masked_same rfl rfl
  rmDs v s := masked_set .ds rfl fun j other => by
    cases j with
    | ds => exact absurd rfl other
    | _ => rfl
  rmEs v s := masked_set .es rfl fun j other => by
    cases j with
    | es => exact absurd rfl other
    | _ => rfl
  target := masked_target
  targetKept s csSet eipSet := by
    refine ⟨?_, fun _ differs => absurd rfl differs⟩
    show s.rmMask ||| (s.rmMask ||| regBit .cs ||| regBit .eip) = s.rmMask ||| regBit .cs ||| regBit .eip
    rw [← BitVec.or_assoc, ← BitVec.or_assoc, BitVec.or_self]
  frame := masked_rmDoInt
  io _ _ := masked_same rfl rfl
  table _ _ := masked_same rfl rfl
  keepOther _ _ _ := masked_same rfl rfl

theorem masked_transBufferSeg : Moves Masked (transBufferSeg : M σ Word) :=
  Moves.transBufferSeg fun _ _ => masked_same rfl rfl

theorem masked_preSwitch (intr : Nat) (ax : Word) (act : Bool) :
    Going Masked (preSwitch h intr ax act) :=
  (masked_effect h).preSwitch masked_transBufferSeg act (fun r _ => masked_setRmLword r)
    (fun _ _ => (masked_effect h).dosSetDta (fun _ _ => masked_same rfl rfl) (masked_setRmLword _))
    fun _ _ _ _ _ _ => masked_same rfl rfl

/-- The EMS frame mapped or not, only the host, its trace and the flag have changed. -/
theorem atSwitch_eq (intr : Nat) (s : State σ) : ∃ host trace mapped,
    s.atSwitch h intr =
      { final (preEnter h intr) s with host := host, trace := trace, emsFrameMapped := mapped } := by
  unfold State.atSwitch
  generalize final (preEnter h intr) s = t
  cases listed : needXbuf intr (t.scp.lword .eax) with
  | false =>
    rw [final, preMap_unlisted h listed]
    exact ⟨t.host, t.trace, t.emsFrameMapped, rfl⟩
  | true =>
    rw [final, preMap_listed h listed, prepareEmsFrame, final_reads_bind, final_ite]
    split
    · exact ⟨_, _, _, rfl⟩
    · exact ⟨_, _, _, rfl⟩

theorem atSwitch_unlisted {intr : Nat} {s : State σ}
    (unlisted : needXbuf intr (s.scp.lword .eax) = false) :
    s.atSwitch h intr = final (preEnter h intr) s := by
  have same : (final (preEnter h intr) s).scp = s.scp := by
    rw [preEnter_eq]
    rfl
  rw [← same] at unlisted
  rw [State.atSwitch, final, preMap_unlisted h unlisted]

theorem atSwitch_entered {intr : Nat} {s : State σ} (unlisted : needXbuf intr (s.scp.lword .eax) = false)
    (noDta : mirrorsDta intr s = false) : s.atSwitch h intr = s.entered := by
  rw [atSwitch_unlisted h unlisted, preEnter_eq, noDta]
  rfl

theorem unpacked_eq {intr : Nat} {t : State σ} (dseg : needCopyDseg intr (t.scp.lword .eax) = false)
    (eseg : needCopyEseg intr (t.scp.lword .eax) = false) (noDta : mirrorsDta intr t = false) :
    unpacked h intr t = { t with updateMask := ~~~0 } := by
  rw [unpacked, postCopies_unsegmented h dseg eseg, noDta]
  rfl

def State.returned (s : State σ) : State σ := { s with rMask := s.rmMask, rStkUsed := s.stkUsed }

def frameUp (intr : Nat) (altEnt : Bool) : M σ Unit := do
  copyDsegIn h intr
  copyEsegIn h intr
  let flags ← reads fun s => loWord s.scp.eflags
  onlyIf (!altEnt) (rmInt h intr flags)

theorem final_preFinish (intr : Nat) (altEnt : Bool) (s : State σ) :
    final (preFinish h intr altEnt) s = (final (frameUp h intr altEnt) s).returned := rfl

theorem masked_frameUp (intr : Nat) (altEnt : Bool) : Moves Masked (frameUp h intr altEnt) := by
  have eff := masked_effect h
  refine Moves.bind (eff.copyDsegIn masked_transBufferSeg intr) fun _ => ?_
  refine Moves.bind (eff.copyEsegIn masked_transBufferSeg intr) fun _ => ?_
  exact Moves.bind (moves_reads _) fun flags => Moves.onlyIf fun _ => eff.rmInt _ _

theorem accounts_pre {intr : Nat} {s : State σ} (goes : result (msdosPreExtender h intr) s = .rm)
    (cs : maskHas s.rMask .cs = true) (eip : maskHas s.rMask .eip = true) :
    Accounts s.rMask (final (msdosPreExtender h intr) s).rMask s.rmreg
      (final (msdosPreExtender h intr) s).rmreg := by
  obtain ⟨altEnt, outcome, parts⟩ := pre_goes h goes
  obtain ⟨host, trace, mapped, arrived⟩ := atSwitch_eq h intr s
  have mask : (s.atSwitch h intr).rmMask = s.rMask := by rw [arrived, preEnter_eq]; rfl
  have rmreg : (s.atSwitch h intr).rmreg = s.rmreg := by rw [arrived, preEnter_eq]; rfl
  have branch : Masked (s.atSwitch h intr) (s.switched h intr) :=
    masked_preSwitch h intr _ _ _ altEnt outcome
  have whole := IsTrans.trans _ _ _ branch (masked_frameUp h intr altEnt (s.switched h intr))
  rw [parts, final_preFinish, ← mask, ← rmreg]
  rw [← mask] at cs eip
  exact whole cs eip

/-! ## What is handed on -/

/-- A state the real-mode side starts from, as the branch left it. -/
structure FilledFrom (v u : State σ) : Prop where
  mem : u.mem = v.mem
  scp : u.scp = v.scp
  host : u.host = v.host
  client : u.client = v.client
  ds : u.rmreg.ds = v.rmreg.ds
  es : u.rmreg.es = v.rmreg.es
  words : ∀ r, u.rmreg.lword r = (v.handed r).getD (v.scp.lword r)

theorem eax_switched {intr : Nat} {s : State σ} {altEnt : Bool} (outcome : s.outcome h intr = .go altEnt) :
    (s.switched h intr).scp.lword .eax = s.scp.lword .eax := by
  have branch := (passes_preSwitch h (r := .eax) (by simp) _ _ altEnt outcome).1
  have arrived := congrArg (fun a => a.1.gpr .eax) (arrival_atSwitch h intr s)
  exact congrArg loWord (branch.trans arrived)

theorem filledFrom_preReturn (intr : Nat) (altEnt : Bool) (v : State σ) :
    FilledFrom v (final (preReturn h intr altEnt) v).filled := by
  have words (r : Gpr) : (final (preReturn h intr altEnt) v).filled.rmreg.lword r =
      (v.handed r).getD (v.scp.lword r) := by
    obtain ⟨client, word⟩ := brought_preReturn h intr altEnt v r
    rw [State.filled_lword, word, Sigcontext.lword, client]
    rfl
  cases altEnt with
  | true => exact ⟨rfl, rfl, rfl, rfl, rfl, rfl, words⟩
  | false => exact ⟨rfl, rfl, rfl, rfl, rfl, rfl, words⟩

/-- Where no segment is copied, the branch is the last to set anything but the frame. -/
theorem filledFrom_pre {intr : Nat} {s : State σ} {altEnt : Bool} (outcome : s.outcome h intr = .go altEnt)
    (dseg : needCopyDseg intr (s.scp.lword .eax) = false)
    (eseg : needCopyEseg intr (s.scp.lword .eax) = false) :
    FilledFrom (s.switched h intr) (final (msdosPreExtender h intr) s).filled := by
  rw [← eax_switched h outcome] at dseg eseg
  have leaves : final (msdosPreExtender h intr) s =
      final (preFinish h intr altEnt) (s.switched h intr) := by
    rw [final_pre, outcome]
    rfl
  rw [leaves, preFinish, final_bind, final_bind, copyDsegIn_skipped h dseg, copyEsegIn_skipped h eseg]
  exact filledFrom_preReturn h intr altEnt _

/-! ## Calls that do not go on -/

def handedBack (s : State σ) : RealModeCallStructure × RegMask × (Nat → Byte) × Nat × Bool :=
  (s.rmreg, s.rMask, s.stk, s.rStkUsed, s.emsFrameMapped)

theorem handedBack_ending : EndingEffect h (Keeps handedBack) where
  call _ _ _ _ := rfl
  client _ _ _ := rfl
  scp _ _ := rfl
  table _ _ := rfl

def Outcome.Ends (o : Outcome) : Prop := ∃ r, o = .ret r

theorem never_goOn {R : State σ → State σ → Prop} (m : M σ Unit) {altEnt : Bool} :
    MovesWhen Outcome.Ends R (goOn m altEnt) := by
  refine Returns.never (returns_goOn m ?_)
  rintro ⟨r, same⟩
  cases same

section Ending

variable {h} {R : State σ → State σ → Prop} [IsPreorder (State σ) R] (eff : EndingEffect h R)
include eff

theorem ending_dosLfn (al : Byte) : MovesWhen Outcome.Ends R (dosLfn h al) := by
  rintro s ⟨r, ends⟩
  cases listed : needXbufDos 0x71 al with
  | true =>
    rw [dosLfn_goes h listed] at ends
    cases ends
  | false =>
    rw [dosLfn_unlisted h listed, final_ite]
    split
    · exact refl s
    · exact Moves.bind (eff.scp _) (fun _ => Moves.bind (eff.scp _) fun _ => moves_pure _) s

theorem ends_preDos (f : DosFn) (al : Byte) : MovesWhen Outcome.Ends R (preDos h f al) := by
  cases listed : f.ends with
  | true => exact (ending_preDos eff listed al).when
  | false =>
    cases f with
    | lfn => exact ending_dosLfn eff al
    | plain => exact (moves_pure _).when
    | setVector | getVector | allocate | free | resize | unsupportedFcb => cases listed
    | _ => exact never_goOn _

end Ending

theorem never_preMouse {R : State σ → State σ → Prop} [IsPreorder (State σ) R] (ax : Word) :
    MovesWhen Outcome.Ends R (preMouse h ax) := by
  unfold preMouse
  refine .ite (fun _ => never_goOn _) fun _ => .ite (fun _ => never_goOn _) fun _ => ?_
  exact .ite (fun _ => never_goOn _) fun _ => (moves_pure _).when

theorem handedBack_preSwitch (intr : Nat) (ax : Word) (act : Bool) :
    MovesWhen Outcome.Ends (Keeps handedBack) (preSwitch h intr ax act) := by
  have eff := handedBack_ending h
  unfold preSwitch
  refine .ite (fun _ => (moves_pure _).when) fun _ => .ite (fun _ => never_goOn _) fun _ => ?_
  refine .ite (fun _ => never_goOn _) fun _ => .ite (fun _ => ends_preDos eff _ _) fun _ => ?_
  refine .ite (fun _ => ?_) fun _ => .ite (fun _ => never_preMouse h ax) fun _ => ?_
  · unfold preMultiplex
    refine .ite (fun _ _ _ => rfl) fun _ => ?_
    refine .ite (fun _ => (Moves.done eff.getExtApi).when) fun _ => ?_
    refine .ite (fun _ => (moves_pure _).when) fun _ => ?_
    exact .ite (fun _ => (moves_pure _).when) fun _ => (moves_pure _).when
  · exact .ite (fun _ => (moves_pure _).when) fun _ => (moves_pure _).when

theorem int_of_none {intr : Nat} {ax : Word} {act : Bool} {s : State σ}
    (ends : result (preSwitch h intr ax act) s = .ret .none) : intr ≠ 0x21 := by
  have leaves : Returns (fun o => o = .ret .none → intr ≠ 0x21) (preSwitch h intr ax act) :=
    returns_preSwitch h s nofun nofun fun other _ => other
  exact leaves s ends

theorem preSwitch_none (intr : Nat) (ax : Word) (act : Bool) :
    MovesWhen (· = .ret .none) (Keeps id) (preSwitch h intr ax act) := by
  have goes (m : M σ Unit) {altEnt : Bool} : MovesWhen (· = .ret .none) (Keeps id) (goOn m altEnt) :=
    Returns.never (returns_goOn m nofun)
  have answered (m : M σ Unit) : MovesWhen (· = .ret .none) (Keeps id) (done m) :=
    Returns.never (returns_done m nofun)
  by_cases int21 : intr = 0x21
  · exact fun s none => absurd int21 (int_of_none h none)
  unfold preSwitch
  rw [if_neg int21]
  refine .ite (fun _ => (moves_pure _).when) fun _ => .ite (fun _ => goes _) fun _ => ?_
  refine .ite (fun _ => goes _) fun _ => .ite (fun _ => ?_) fun _ => .ite (fun _ => ?_) fun _ => ?_
  · unfold preMultiplex
    refine .ite (fun _ => answered _) fun _ => .ite (fun _ => answered _) fun _ => ?_
    refine .ite (fun _ => (moves_pure _).when) fun _ => ?_
    exact .ite (fun _ => (moves_pure _).when) fun _ => (moves_pure _).when
  · unfold preMouse
    refine .ite (fun _ => goes _) fun _ => .ite (fun _ => goes _) fun _ => ?_
    exact .ite (fun _ => goes _) fun _ => (moves_pure _).when
  · exact .ite (fun _ => (moves_pure _).when) fun _ => (moves_pure _).when

theorem unlisted_of_ends {intr : Nat} {s : State σ}
    (ends : result (msdosPreExtender h intr) s ≠ .rm) :
    needXbuf intr (s.scp.lword .eax) = false := by
  apply Bool.eq_false_iff.mpr
  intro listed
  have outcome := (pre_ends h ends).1
  obtain ⟨altEnt, goes⟩ := preSwitch_goes h listed (s.atSwitch h intr)
  rw [State.outcome, listed, goes] at outcome
  cases outcome

theorem handedBack_pre {intr : Nat} {s : State σ} (ends : result (msdosPreExtender h intr) s ≠ .rm) :
    handedBack (final (msdosPreExtender h intr) s) = handedBack s := by
  obtain ⟨outcome, parts⟩ := pre_ends h ends
  have branch : handedBack (s.switched h intr) = handedBack (s.atSwitch h intr) :=
    handedBack_preSwitch h intr _ _ _ ⟨_, outcome⟩
  rw [parts, branch, atSwitch_unlisted h (unlisted_of_ends h ends), preEnter_eq]
  rfl

theorem pre_none {intr : Nat} {s : State σ} (none : result (msdosPreExtender h intr) s = .none) :
    final (msdosPreExtender h intr) s = s.entered := by
  have ends : result (msdosPreExtender h intr) s ≠ .rm := by
    rw [none]
    exact nofun
  obtain ⟨outcome, parts⟩ := pre_ends h ends
  rw [none] at outcome
  have other := int_of_none h outcome
  have same : s.switched h intr = s.atSwitch h intr := preSwitch_none h intr _ _ _ outcome
  have undone : mirrorsDta intr s = false := by simp [mirrorsDta, other]
  have arrived := atSwitch_unlisted h (unlisted_of_ends h ends)
  rw [parts, same, arrived, preEnter_eq, undone]
  rfl

/-- The mask covers what is changed, and a call that does not go on changes nothing of its caller's. -/
theorem register_mask_sound (intr : Nat) (s : State σ) (cs : maskHas s.rMask .cs = true)
    (eip : maskHas s.rMask .eip = true) :
    let r := result (msdosPreExtender h intr) s
    let t := final (msdosPreExtender h intr) s
    (r = .rm → s.rMask ||| t.rMask = t.rMask ∧
      ∀ i, t.rmreg.field i ≠ s.rmreg.field i → maskHas t.rMask i = true) ∧
    (r = .done ∨ r = .none → t.rmreg = s.rmreg ∧ t.rMask = s.rMask ∧ t.stk = s.stk ∧
      t.rStkUsed = s.rStkUsed ∧ t.emsFrameMapped = s.emsFrameMapped) ∧
    (r = .none → t.scp = s.scp ∧ t.mem = s.mem ∧ t.clients = s.clients ∧
      t.clientNum = s.clientNum) := by
  intro r t
  refine ⟨fun goes => ?_, fun early => ?_, fun none => ?_⟩
  · obtain ⟨grows, changed⟩ := accounts_pre h goes cs eip
    exact ⟨grows, changed⟩
  · have ends : r ≠ .rm := by
      rcases early with early | early
      all_goals rw [early]; exact nofun
    have same : handedBack t = handedBack s := handedBack_pre h ends
    simpa only [handedBack, Prod.mk.injEq] using same
  · have same : t = s.entered := pre_none h none
    rw [same]
    exact ⟨rfl, rfl, rfl, rfl⟩

/-- A client that makes a directory, called as the switcher calls: CS and IP are set. -/
def mkdirCall : State Bump := { mkdirClient with rMask := regBit .cs ||| regBit .eip }

theorem register_mask_sound_mkdir :
    maskHas (final (msdosPreExtender bumpHost 0x21) mkdirCall).rMask .ds = true := by
  have sound := register_mask_sound bumpHost 0x21 mkdirCall (by decide) (by decide)
  have goes : result (msdosPreExtender bumpHost 0x21) mkdirCall = .rm := by decide
  exact (sound.1 goes).2 .ds (by decide)

/-! ## The interrupt frame -/

def stkWord (stk : Nat → Byte) (i : Nat) : Word := stk (i + 1) ++ stk i

def unframed (s : State σ) : (Nat → Byte) × Nat × Nat × Word × Word × Dword :=
  (s.stk, s.stkLen, s.stkUsed, s.rmreg.cs, s.rmreg.ip, s.scp.eflags)

theorem unframed_fill : FillEffect h (Keeps unframed) where
  call _ _ _ _ := rfl
  memory _ _ := rfl
  client _ _ _ := rfl
  rmDs _ _ := rfl
  rmEs _ _ := rfl
  targetKept _ := rfl
  io _ _ := rfl
  table _ _ := rfl

theorem unframed_setRmLword (r : Gpr) (v : Word) :
    Moves (Keeps unframed) (setRmLword r v : M σ Unit) := fun _ => rfl

theorem unframed_transBufferSeg : Moves (Keeps unframed) (transBufferSeg : M σ Word) :=
  Moves.transBufferSeg fun _ _ => rfl

theorem unframed_preSwitch {intr : Nat} {ax : Word} (act : Bool) (plain : jumps intr ax = false) :
    Going (Keeps unframed) (preSwitch h intr ax act) := by
  have eff := unframed_fill h
  apply eff.preSwitch unframed_transBufferSeg act plain
  · exact fun r _ => unframed_setRmLword r
  · exact fun _ _ => eff.dosSetDta (fun _ _ => rfl) (unframed_setRmLword _)
  · intro _ _ f _ flags s
    show unframed { s with scp := f s.scp } = unframed s
    simp only [unframed, flags]

def terminates (intr : Nat) (ax : Word) : Bool :=
  intr = 0x20 || intr = 0x21 && hiByte ax = 0x00

def returnAddress (intr : Nat) (s : State σ) : Far :=
  if terminates intr (s.scp.lword .eax) then ⟨0x100, dosGetPsp h s⟩ else ⟨s.rmreg.ip, s.rmreg.cs⟩

def entryAddressOf (intr : Nat) (s t : State σ) : Far :=
  (helperOf intr (s.scp.lword .eax) s).getD (h.getRealModeInterruptVector t.host intr)

/-- The flags that an IRET of the service should bring back: IF as VIF says. -/
def resumeFlags (eflags : Dword) : Word :=
  if eflags &&& VIF ≠ 0 then loWord eflags ||| loWord IF else loWord eflags &&& ~~~loWord IF

/-- A frame of three words on the stack, and the registers the service starts with. -/
structure Framed (s t : State σ) (ret entry : Far) (eflags : Dword) (flags : Word) : Prop where
  used : t.rStkUsed = 6
  below : ∀ i, i < s.stkLen - 6 ∨ s.stkLen ≤ i → t.stk i = s.stk i
  ip : stkWord t.stk (s.stkLen - 6) = ret.offset
  cs : stkWord t.stk (s.stkLen - 4) = ret.segment
  flags : stkWord t.stk (s.stkLen - 2) = flags
  entry : (⟨t.rmreg.ip, t.rmreg.cs⟩ : Far) = entry
  entryFlags : t.rmreg.flags = loWord eflags &&& ~~~loWord (TF ||| NT ||| IF)

def ResumesClient (intr : Nat) (s t : State σ) : Prop :=
  Framed s t (returnAddress h intr s) (entryAddressOf h intr s t) s.scp.eflags (resumeFlags s.scp.eflags)

theorem and_VIF (flags : Word) : zext flags &&& VIF = 0 := by
  have single : VIF = BitVec.twoPow 32 19 := by decide
  rw [single, BitVec.and_twoPow, zext, BitVec.getLsbD_setWidth, BitVec.getLsbD_of_ge flags 19 (by decide)]
  rfl

theorem hiByte_append_loByte (v : Word) : hiByte v ++ loByte v = v := by
  apply BitVec.eq_of_getLsbD_eq
  intro i inside
  rw [BitVec.getLsbD_append, hiByte, loByte, BitVec.getLsbD_extractLsb', BitVec.getLsbD_setWidth]
  by_cases below : i < 8
  · simp [below]
  · have above : i - 8 < 8 := by omega
    have sum : 8 + (i - 8) = i := by omega
    simp [below, above, sum]

theorem stkWord_written (stk : Nat → Byte) (i : Nat) (v : Word) :
    stkWord (writeStkWord stk i v) i = v := by
  have low : i ≠ i + 1 := by omega
  rw [stkWord, writeStkWord, Function.update_self, Function.update_of_ne low, Function.update_self]
  exact hiByte_append_loByte v

theorem writeStkWord_of_ne (stk : Nat → Byte) {i j : Nat} (v : Word) (apart : i < j ∨ j + 2 ≤ i) :
    writeStkWord stk j v i = stk i := by
  rw [writeStkWord, Function.update_of_ne (by omega), Function.update_of_ne (by omega)]

theorem stkWord_other (stk : Nat → Byte) {i j : Nat} (v : Word) (apart : i + 2 ≤ j ∨ j + 2 ≤ i) :
    stkWord (writeStkWord stk j v) i = stkWord stk i := by
  rw [stkWord, stkWord, writeStkWord_of_ne _ _ (by omega), writeStkWord_of_ne _ _ (by omega)]

/-- Flags are pushed with IF clear, for a 16-bit value has no VIF. -/
theorem getFlags_word (flags : Word) : loWord (getFlags (zext flags)) = flags &&& ~~~loWord IF := by
  rw [getFlags, if_neg (not_not_intro (and_VIF flags))]
  have word : loWord (zext flags &&& ~~~IF) = loWord (zext flags) &&& loWord (~~~IF) := BitVec.setWidth_and
  rw [word, loWord_zext]
  rfl

theorem framed_rmDoIntTo {s u : State σ} (stk : u.stk = s.stk) (len : u.stkLen = s.stkLen)
    (used : u.stkUsed = 0) (room : 6 ≤ s.stkLen) (entry : Far) (eflags : Dword) :
    Framed s (final (rmDoIntTo (loWord eflags) entry.segment entry.offset) u).returned
      ⟨u.rmreg.ip, u.rmreg.cs⟩ entry eflags (loWord eflags &&& ~~~loWord IF) := by
  have pushed : (final (rmDoIntTo (loWord eflags) entry.segment entry.offset) u).returned.stk =
      writeStkWord (writeStkWord (writeStkWord s.stk (s.stkLen - 2) (loWord eflags &&& ~~~loWord IF))
        (s.stkLen - 4) u.rmreg.cs) (s.stkLen - 6) u.rmreg.ip := by
    rw [← getFlags_word, ← stk, ← len]
    show (final (rmDoInt _ _ _) u).stk = _
    simp [rmDoInt, used]
  constructor
  · show u.stkUsed + 6 = 6
    rw [used]
  · intro i outside
    rw [pushed, writeStkWord_of_ne _ _ (by omega), writeStkWord_of_ne _ _ (by omega),
      writeStkWord_of_ne _ _ (by omega)]
  · rw [pushed, stkWord_written]
  · rw [pushed, stkWord_other _ _ (by omega), stkWord_written]
  · rw [pushed, stkWord_other _ _ (by omega), stkWord_other _ _ (by omega), stkWord_written]
  · rfl
  · rfl

theorem resumeFlags_eq_iff (eflags : Dword) :
    loWord eflags &&& ~~~loWord IF = resumeFlags eflags ↔ eflags &&& VIF = 0 := by
  rw [resumeFlags]
  split
  next vif =>
    refine ⟨fun same => ?_, fun clear => absurd clear vif⟩
    have bit := congrArg (BitVec.getLsbD · 9) same
    simp [loWord, IF] at bit
  next clear =>
    have none : eflags &&& VIF = 0 := not_not.mp clear
    simp [none]

/-- PSP:100h becomes the return address of a program that ends. -/
theorem unframed_oldDosTerminate (s : State σ) : unframed (final (oldDosTerminate h) s) =
    (s.stk, s.stkLen, s.stkUsed, dosGetPsp h s, 0x100, s.scp.eflags) := by
  rw [oldDosTerminate, final_reads_bind, final_reads_bind, final_bind, final_bind, final_bind]
  refine Eq.trans (Moves.bind (R := Keeps unframed) (moves_reads _) (fun link => ?_) _) rfl
  exact Moves.bind (moves_reads _) fun found => Moves.onlyIf fun _ _ => rfl

theorem altEnt_eq {intr : Nat} {ax : Word} {act altEnt : Bool} {s : State σ} (u : State σ)
    (goes : result (preSwitch h intr ax act) s = .go altEnt) :
    altEnt = (helperOf intr ax u).isSome := by
  have leaves : Returns (fun o => ∀ b, o = .go b → b = (helperOf intr ax u).isSome)
      (preSwitch h intr ax act) := by
    refine returns_preSwitch h u (fun b same => ?_) nofun fun _ => nofun
    cases same
    rfl
  exact leaves s altEnt goes

theorem unframed_atSwitch (intr : Nat) (s : State σ) :
    unframed (s.atSwitch h intr) = unframed s.entered := by
  obtain ⟨host, trace, mapped, arrived⟩ := atSwitch_eq h intr s
  rw [arrived, preEnter_eq]
  rfl

theorem dosFn_terminate : ∀ {ah}, dosFn ah = .terminate → ah = 0x00 := by decide +kernel

theorem psp_atSwitch {intr : Nat} {s : State σ}
    (unlisted : needXbuf intr (s.scp.lword .eax) = false) :
    dosGetPsp h (s.atSwitch h intr) = dosGetPsp h s := by
  rw [atSwitch_unlisted h unlisted, preEnter_eq]
  rfl

theorem preSwitch_terminates {R : State σ → State σ → Prop} [IsPreorder (State σ) R] {intr : Nat}
    {ax : Word} (act : Bool) (ends : terminates intr ax = true)
    (kept : Moves R (rmPreserveCsIp : M σ Unit)) (word : Moves R (setRmLword .eax 0x4c00 : M σ Unit))
    (s : State σ) : R (final (oldDosTerminate h) s) (final (preSwitch h intr ax act) s) := by
  simp only [terminates, Bool.or_eq_true, Bool.and_eq_true, decide_eq_true_eq] at ends
  rcases ends with rfl | ⟨rfl, ah⟩
  · have branch : preSwitch h 0x20 ax act = goOn (do
        oldDosTerminate h
        rmPreserveCsIp) := rfl
    rw [branch, goOn, final_bind, final_pure, final_bind]
    exact kept _
  · have fn : dosFn (hiByte ax) = .terminate := by rw [ah]; rfl
    have branch : preSwitch h 0x21 ax act = preDos h (dosFn (hiByte ax)) (loByte ax) := rfl
    rw [branch, fn, preDos, goOn, final_bind, final_pure, final_bind]
    generalize final (oldDosTerminate h) s = t
    exact (Moves.bind kept fun _ => word : Moves R (do
      rmPreserveCsIp
      setRmLword .eax 0x4c00)) t

theorem unframed_terminates {intr : Nat} {ax : Word} (act : Bool) (ends : terminates intr ax = true)
    (s : State σ) : unframed (final (preSwitch h intr ax act) s) =
      (s.stk, s.stkLen, s.stkUsed, dosGetPsp h s, 0x100, s.scp.eflags) := by
  have rest : unframed (final (preSwitch h intr ax act) s) = unframed (final (oldDosTerminate h) s) :=
    preSwitch_terminates (R := Keeps unframed) h act ends (fun _ => rfl) (fun _ => rfl) s
  exact rest.trans (unframed_oldDosTerminate h s)

theorem needXbuf_terminates {intr : Nat} {ax : Word} (ends : terminates intr ax = true) :
    needXbuf intr ax = false := by
  simp only [terminates, Bool.or_eq_true, Bool.and_eq_true, decide_eq_true_eq] at ends
  rcases ends with rfl | ⟨rfl, ah⟩
  · rfl
  · simp [needXbuf, needCopyDseg, needCopyEseg, needXbufDos, ah]

theorem terminates_or_helped {intr : Nat} {ax : Word} (jump : jumps intr ax = true) (s : State σ) :
    terminates intr ax = true ∨ (helperOf intr ax s).isSome = true := by
  simp only [jumps, Bool.or_eq_true, Bool.and_eq_true, decide_eq_true_eq] at jump
  rcases jump with rfl | ⟨rfl, jump⟩
  · exact .inl rfl
  · cases fn : dosFn (hiByte ax) with
    | terminate =>
      have ah := dosFn_terminate fn
      exact .inl (by simp [terminates, ah])
    | exec | read | write => exact .inr (by simp [helperOf, DosFn.helper, fn])
    | _ =>
      rw [fn] at jump
      cases jump

/-- A service without a helper reaches the end with nothing on the stack, and the address it returns
to in CS:IP. -/
theorem unframed_switched {intr : Nat} {s : State σ} {altEnt : Bool}
    (outcome : s.outcome h intr = .go altEnt) (plain : helperOf intr (s.scp.lword .eax) s = none) :
    unframed (s.switched h intr) = (s.stk, s.stkLen, 0, (returnAddress h intr s).segment,
      (returnAddress h intr s).offset, s.scp.eflags) := by
  cases ends : terminates intr (s.scp.lword .eax) with
  | true =>
    have unlisted := needXbuf_terminates ends
    have arrived := unframed_atSwitch h intr s
    simp only [unframed, Prod.mk.injEq] at arrived
    obtain ⟨stk, len, used, -, -, eflags⟩ := arrived
    rw [State.switched, unframed_terminates h _ ends, psp_atSwitch h unlisted, stk, len, used, eflags]
    simp only [returnAddress, ends, if_true]
    rfl
  | false =>
    have stays : jumps intr (s.scp.lword .eax) = false := by
      by_contra jump
      rcases terminates_or_helped (Bool.not_eq_false _ ▸ jump) s with done | helped
      · rw [ends] at done
        cases done
      · rw [plain] at helped
        cases helped
    have branch : unframed (s.switched h intr) = unframed (s.atSwitch h intr) :=
      unframed_preSwitch h _ stays _ altEnt outcome
    rw [branch, unframed_atSwitch, returnAddress, if_neg (by rw [ends]; exact nofun)]
    rfl

theorem unframed_fillExec : Moves (Keeps unframed) (do
    let rma ← fillExec h
    restoreEnv h
    pure rma) := by
  have eff := unframed_fill h
  refine Moves.bind (eff.fillExec (unframed_setRmLword _) (unframed_setRmLword _)) fun _ => ?_
  exact Moves.bind eff.restoreEnv fun _ => moves_pure _

theorem dosLongIo_helped (helper : Far → Far) (u : State σ) : ∃ v, unframed v = unframed u ∧
    final (dosLongIo h helper) u = final (rmDoIntTo (loWord u.scp.eflags)
      (helper (u.client.rmcbs .io)).segment (helper (u.client.rmcbs .io)).offset) v := by
  have filled : unframed (final (fillLongIo h) u) = unframed u :=
    (unframed_fill h).fillLongIo unframed_transBufferSeg (unframed_setRmLword _)
      (unframed_setRmLword _) u
  refine ⟨_, filled, ?_⟩
  have eflags := congrArg (fun a => a.2.2.2.2.2) filled
  simp only [unframed] at eflags
  rw [← eflags, dosLongIo_eq]
  rfl

/-- A branch with a helper gets everything ready for it, then pushes the frame. -/
theorem preDos_helped {f : DosFn} {al : Byte} {s : State σ} {helper : Far}
    (helped : f.helper s = some helper) (u : State σ) : ∃ v, unframed v = unframed u ∧
      final (preDos h f al) u =
        final (rmDoIntTo (loWord u.scp.eflags) helper.segment helper.offset) v := by
  cases f with
  | exec =>
    cases helped
    have filled := unframed_fillExec h u
    refine ⟨_, filled, ?_⟩
    have eflags := congrArg (fun a => a.2.2.2.2.2) filled
    simp only [unframed] at eflags
    rw [← eflags, preDos, goOn, final_bind, final_pure, dosExec_eq]
    rfl
  | read =>
    cases helped
    exact dosLongIo_helped h getLrHelper u
  | write =>
    cases helped
    exact dosLongIo_helped h getLwHelper u
  | _ => cases helped

def framePart (s : State σ) : (Nat → Byte) × Nat × Word × Word × Word :=
  (s.stk, s.stkUsed, s.rmreg.cs, s.rmreg.ip, s.rmreg.flags)

theorem Framed.of_framePart {s u v : State σ} {ret entry : Far} {eflags : Dword} {flags : Word}
    (framed : Framed s u.returned ret entry eflags flags) (same : framePart v = framePart u) :
    Framed s v.returned ret entry eflags flags := by
  simp only [framePart, Prod.mk.injEq] at same
  obtain ⟨stk, used, cs, ip, rmFlags⟩ := same
  obtain ⟨fUsed, below, fIp, fCs, fFlags, entered, entryFlags⟩ := framed
  simp only [State.returned, ← stk, ← used, ← cs, ← ip, ← rmFlags] at *
  exact ⟨fUsed, below, fIp, fCs, fFlags, entered, entryFlags⟩

theorem framePart_copies (intr : Nat) : Moves (Keeps framePart) (do
    copyDsegIn h intr
    copyEsegIn h intr) := by
  have eff : FillEffect h (Keeps framePart) :=
    ⟨⟨fun _ _ _ _ => rfl, fun _ _ _ => rfl, fun _ _ => rfl, fun _ _ => rfl, fun _ => rfl, fun _ _ => rfl⟩,
      fun _ _ => rfl, fun _ _ => rfl⟩
  have buffer : Moves (Keeps framePart) (transBufferSeg : M σ Word) := Moves.transBufferSeg fun _ _ => rfl
  exact Moves.bind (eff.copyDsegIn buffer intr) fun _ => eff.copyEsegIn buffer intr

theorem unframed_copies (intr : Nat) : Moves (Keeps unframed) (do
    copyDsegIn h intr
    copyEsegIn h intr) :=
  Moves.bind ((unframed_fill h).copyDsegIn unframed_transBufferSeg intr) fun _ =>
    (unframed_fill h).copyEsegIn unframed_transBufferSeg intr

theorem final_frameUp (intr : Nat) (altEnt : Bool) (s : State σ) :
    final (frameUp h intr altEnt) s =
      let t := final (do copyDsegIn h intr; copyEsegIn h intr) s
      if altEnt then t else final (rmInt h intr (loWord t.scp.eflags)) t := by
  cases altEnt <;> rfl

theorem framed_plain {intr : Nat} {s : State σ} {altEnt : Bool}
    (outcome : s.outcome h intr = .go altEnt) (plain : helperOf intr (s.scp.lword .eax) s = none)
    (room : 6 ≤ s.stkLen) :
    let t := (final (frameUp h intr altEnt) (s.switched h intr)).returned
    Framed s t (returnAddress h intr s) (entryAddressOf h intr s t) s.scp.eflags
      (loWord s.scp.eflags &&& ~~~loWord IF) := by
  have left : altEnt = false := by
    rw [altEnt_eq h s outcome, plain]
    rfl
  have arrives := (unframed_copies h intr (s.switched h intr)).trans (unframed_switched h outcome plain)
  unfold entryAddressOf
  rw [final_frameUp, left, plain]
  generalize final (do copyDsegIn h intr; copyEsegIn h intr) (s.switched h intr) = u at arrives
  simp only [unframed, Prod.mk.injEq] at arrives
  obtain ⟨stk, len, used, cs, ip, eflags⟩ := arrives
  have framed := framed_rmDoIntTo stk len used room (h.getRealModeInterruptVector u.host intr) s.scp.eflags
  rw [cs, ip, ← eflags] at framed
  rw [← eflags]
  exact framed

theorem framed_helped {intr : Nat} {s : State σ} {altEnt : Bool} {helper : Far}
    (outcome : s.outcome h intr = .go altEnt) (helped : helperOf intr (s.scp.lword .eax) s = some helper)
    (room : 6 ≤ s.stkLen) :
    Framed s (final (frameUp h intr altEnt) (s.switched h intr)).returned (returnAddress h intr s) helper
      s.scp.eflags (loWord s.scp.eflags &&& ~~~loWord IF) := by
  have left : altEnt = true := by
    rw [altEnt_eq h s outcome, helped]
    rfl
  have int21 : intr = 0x21 := by
    by_contra other
    rw [helperOf, if_neg other] at helped
    cases helped
  subst int21
  rw [helperOf, if_pos rfl] at helped
  have returns : returnAddress h 0x21 s = ⟨s.rmreg.ip, s.rmreg.cs⟩ := by
    rw [returnAddress, if_neg]
    intro ends
    have ah : hiByte (s.scp.lword .eax) = 0x00 := by simpa [terminates] using ends
    rw [ah] at helped
    cases helped
  obtain ⟨v, ready, branch⟩ := @preDos_helped σ h _ (loByte (s.scp.lword .eax)) _ _ helped (s.atSwitch h 0x21)
  have switched : s.switched h 0x21 = final (preDos h (dosFn (hiByte (s.scp.lword .eax)))
      (loByte (s.scp.lword .eax))) (s.atSwitch h 0x21) := rfl
  have arrives := ready.trans (unframed_atSwitch h 0x21 s)
  have eflags : (s.atSwitch h 0x21).scp.eflags = s.scp.eflags :=
    congrArg (fun a => a.2.2.2.2.2) (unframed_atSwitch h 0x21 s)
  simp only [unframed, Prod.mk.injEq] at arrives
  obtain ⟨stk, len, used, cs, ip, -⟩ := arrives
  have framed := framed_rmDoIntTo (s := s) stk len used room helper s.scp.eflags
  rw [← eflags, ← branch, ← switched, eflags, cs, ip] at framed
  rw [final_frameUp, left, if_pos rfl, returns]
  exact framed.of_framePart (framePart_copies h 0x21 _)

theorem framed_pre {intr : Nat} {s : State σ} (goes : result (msdosPreExtender h intr) s = .rm)
    (room : 6 ≤ s.stkLen) :
    let t := final (msdosPreExtender h intr) s
    Framed s t (returnAddress h intr s) (entryAddressOf h intr s t) s.scp.eflags
      (loWord s.scp.eflags &&& ~~~loWord IF) := by
  obtain ⟨altEnt, outcome, parts⟩ := pre_goes h goes
  intro t
  have last : t = (final (frameUp h intr altEnt) (s.switched h intr)).returned := parts
  rw [last]
  cases helped : helperOf intr (s.scp.lword .eax) s with
  | none => exact framed_plain h outcome helped room
  | some helper =>
    rw [entryAddressOf, helped]
    exact framed_helped h outcome helped room

/-- An IRET of the real-mode side brings the client's interrupt state back just if it was disabled. -/
theorem interrupt_frame_iff {intr : Nat} {s : State σ} (goes : result (msdosPreExtender h intr) s = .rm)
    (room : 6 ≤ s.stkLen) :
    ResumesClient h intr s (final (msdosPreExtender h intr) s) ↔ s.scp.eflags &&& VIF = 0 := by
  have framed := framed_pre h goes room
  rw [← resumeFlags_eq_iff]
  constructor
  · intro resumes
    exact framed.flags.symm.trans resumes.flags
  · intro same
    rw [same] at framed
    exact framed

theorem interrupt_frame_mkdir :
    ResumesClient bumpHost 0x21 mkdirCall (final (msdosPreExtender bumpHost 0x21) mkdirCall) :=
  (interrupt_frame_iff bumpHost (by decide) (by decide)).mpr (by decide)

def enabledCall : State Bump :=
  { mkdirCall with scp := { mkdirCall.scp with eflags := 0x80202 } }

theorem interrupt_frame_loses_vif :
    result (msdosPreExtender bumpHost 0x21) enabledCall = .rm ∧
      stkWord (final (msdosPreExtender bumpHost 0x21) enabledCall).stk 14 = 0x0002 ∧
      resumeFlags enabledCall.scp.eflags = 0x0202 ∧
      ¬ResumesClient bumpHost 0x21 enabledCall (final (msdosPreExtender bumpHost 0x21) enabledCall) := by
  refine ⟨by decide, by decide, by decide, fun resumes => ?_⟩
  exact absurd resumes.flags (by decide)

end Pmdapi
