import Pmdapi.RegisterTransparency
import Pmdapi.MemoryEffects
import Pmdapi.CallbackDispatch

/-! Registers handed between the two modes. `RMLWORD` is the 16-bit view here, so the upper halves of
the client's registers do not come back. -/

namespace Pmdapi
open Bytes Effect

def Short (v : Dword) : Prop := v.toNat < 2 ^ 16

instance (v : Dword) : Decidable (Short v) := inferInstanceAs (Decidable (v.toNat < 2 ^ 16))

theorem zext_loWord_iff (v : Dword) : zext (loWord v) = v ↔ Short v := by
  unfold Short
  constructor
  · intro same
    rw [← same, zext, BitVec.toNat_setWidth_of_le (by decide)]
    exact (loWord v).isLt
  · intro small
    apply BitVec.eq_of_toNat_eq
    rw [zext, BitVec.toNat_setWidth_of_le (by decide), loWord, BitVec.toNat_setWidth]
    exact Nat.mod_eq_of_lt small

/-! ## There and back -/

def Sigcontext.register (scp : Sigcontext) : RegIndex → Dword
  | .es => zext scp.es
  | .cs => zext scp.cs
  | .ss => zext scp.ss
  | .ds => zext scp.ds
  | .fs => zext scp.fs
  | .gs => zext scp.gs
  | .gpr r => scp.gpr r
  | .esp => scp.esp
  | .eip => scp.eip
  | .eflags => scp.eflags

def RealModeCallStructure.register (rmreg : RealModeCallStructure) : RegIndex → Dword
  | .es => zext rmreg.es
  | .cs => zext rmreg.cs
  | .ss => zext rmreg.ss
  | .ds => zext rmreg.ds
  | .fs => zext rmreg.fs
  | .gs => zext rmreg.gs
  | .gpr r => rmreg.gpr r
  | .esp => zext rmreg.sp
  | .eip => zext rmreg.ip
  | .eflags => zext rmreg.flags

/-- The two transfers undo each other, and keep to the mask. -/
structure RoundTrip (scp : Sigcontext) (rmreg : RealModeCallStructure) (mask : RegMask) : Prop where
  client : rmToPmRegs scp (pmToRmRegs scp rmreg mask) mask = scp
  realMode : pmToRmRegs (rmToPmRegs scp rmreg mask) rmreg mask = rmreg
  unmasked : ∀ i, maskHas mask i = false →
    (rmToPmRegs scp rmreg mask).register i = scp.register i ∧
      (pmToRmRegs scp rmreg mask).register i = rmreg.register i

section RoundTrip

variable (scp : Sigcontext) (rmreg : RealModeCallStructure) (mask : RegMask)

theorem there_and_back_gpr (r : Gpr) : (rmToPmRegs scp (pmToRmRegs scp rmreg mask) mask).gpr r =
    if maskHas mask (.gpr r) then zext (loWord (scp.gpr r)) else scp.gpr r := by
  rw [rmToPmRegs_gpr, pmToRmRegs_lword]
  by_cases masked : maskHas mask (.gpr r) = true
  · rw [if_pos masked, if_pos masked, if_pos masked]
    rfl
  · rw [if_neg masked, if_neg masked]

theorem there_and_back_eflags : (rmToPmRegs scp (pmToRmRegs scp rmreg mask) mask).eflags =
    if maskHas mask .eflags then zext (loWord scp.eflags) else scp.eflags := by
  by_cases masked : maskHas mask .eflags = true
  · simp [rmToPmRegs, pmToRmRegs, masked]
  · simp [rmToPmRegs, masked]

theorem back_and_there : pmToRmRegs (rmToPmRegs scp rmreg mask) rmreg mask = rmreg := by
  have general (r : Gpr) : (pmToRmRegs (rmToPmRegs scp rmreg mask) rmreg mask).gpr r = rmreg.gpr r := by
    by_cases masked : maskHas mask (.gpr r) = true
    · simp [pmToRmRegs, masked, Sigcontext.lword, RealModeCallStructure.lword]
    · simp [pmToRmRegs, masked]
  have flags : (pmToRmRegs (rmToPmRegs scp rmreg mask) rmreg mask).flags = rmreg.flags := by
    by_cases masked : maskHas mask .eflags = true
    · simp [pmToRmRegs, rmToPmRegs, masked]
    · simp [pmToRmRegs, masked]
  calc pmToRmRegs (rmToPmRegs scp rmreg mask) rmreg mask
      = { rmreg with
          flags := (pmToRmRegs (rmToPmRegs scp rmreg mask) rmreg mask).flags
          gpr := (pmToRmRegs (rmToPmRegs scp rmreg mask) rmreg mask).gpr } := rfl
    _ = rmreg := by rw [flags, funext general]

theorem transfers_unmasked (i : RegIndex) (clear : maskHas mask i = false) :
    (rmToPmRegs scp rmreg mask).register i = scp.register i ∧
      (pmToRmRegs scp rmreg mask).register i = rmreg.register i := by
  cases i with
  | gpr r => simp [Sigcontext.register, RealModeCallStructure.register, pmToRmRegs, clear]
  | eflags => simp [Sigcontext.register, RealModeCallStructure.register, rmToPmRegs, pmToRmRegs, clear]
  | _ => exact ⟨rfl, rfl⟩

/-- The round trip is lossless just if no register in the mask has an upper half. -/
theorem register_round_trip_iff : RoundTrip scp rmreg mask ↔
    (∀ r, maskHas mask (.gpr r) = true → Short (scp.gpr r)) ∧
      (maskHas mask .eflags = true → Short scp.eflags) := by
  constructor
  · intro trip
    constructor
    · intro r masked
      have same := congrArg (fun c => c.gpr r) trip.client
      rw [there_and_back_gpr, if_pos masked] at same
      exact (zext_loWord_iff _).mp same
    · intro masked
      have same := congrArg Sigcontext.eflags trip.client
      rw [there_and_back_eflags, if_pos masked] at same
      exact (zext_loWord_iff _).mp same
  · rintro ⟨general, flags⟩
    refine ⟨?_, back_and_there scp rmreg mask, transfers_unmasked scp rmreg mask⟩
    have gpr : (rmToPmRegs scp (pmToRmRegs scp rmreg mask) mask).gpr = scp.gpr := by
      funext r
      rw [there_and_back_gpr]
      split
      next masked => exact (zext_loWord_iff _).mpr (general r masked)
      next => rfl
    have eflags : (rmToPmRegs scp (pmToRmRegs scp rmreg mask) mask).eflags = scp.eflags := by
      rw [there_and_back_eflags]
      split
      next masked => exact (zext_loWord_iff _).mpr (flags masked)
      next => rfl
    calc rmToPmRegs scp (pmToRmRegs scp rmreg mask) mask
        = { scp with
            eflags := (rmToPmRegs scp (pmToRmRegs scp rmreg mask) mask).eflags
            gpr := (rmToPmRegs scp (pmToRmRegs scp rmreg mask) mask).gpr } := rfl
      _ = scp := by rw [gpr, eflags]

end RoundTrip

/-- A 32-bit pointer in EBX around an XMS call. -/
theorem register_round_trip_misses_pointer :
    ¬RoundTrip { bumpStart.scp with gpr := fun _ => 0x12345678 } .zero (~~~0) := by
  intro trip
  have same := congrArg (fun c => c.gpr .ebx) trip.client
  exact absurd same (by decide)

/-! ## ES:EDI around a callback -/

variable {σ : Type} (h : DpmiHost σ)

def structAddress (s : State σ) : Word × Dword := (s.scp.es, s.scp.gpr .edi)

def EsEdiSurvive (doPmCall : M σ Unit) (n : Rmcb) (s : State σ) : Prop :=
  structAddress (final (handler h doPmCall n) s) = structAddress s

/-- `handler` as `msdos_pm_call` does it: with ES:EDI in `cb_es` and `cb_edi`. -/
def msdosPmCall (doPmCall : M σ Unit) (n : Rmcb) : M σ Unit := do
  let cb ← reads structAddress
  handler h doPmCall n
  setScp fun scp => { scp with es := cb.1, gpr := setGpr scp.gpr .edi cb.2 }

/-- The mouse routine is started by callback `n`, with EDI set from DI. -/
def MouseStarts (n : Rmcb) (s : State σ) : Prop :=
  s.ops.rmcbHandler n = some .mouseCallback ∧
    ∃ target, derefMouse s (s.ops.rmcbArg n) = some target ∧
      validAndUsedSelector h s target.selector = true

def LeavesEsEdi (doPmCall : M σ Unit) : Prop := ∀ s, structAddress (final doPmCall s) = structAddress s

section EsEdi

theorem structAddress_return (n : Rmcb) (s : State σ) :
    structAddress (final (rmcbReturn n) s) = structAddress s := by
  have entry (is32 : Bool) (o : OpsHandler) : Moves (Keeps structAddress) (retHandler is32 o : M σ Unit) := by
    cases o with
    | rmcbRetFromPs2 => cases is32 <;> exact fun _ => rfl
    | _ => exact fun _ => rfl
  rw [rmcbReturn, final_bind, final_reads, result_reads, id]
  split
  next o _ => exact entry s.clntIs32 o s
  next => rfl

variable {h} {n : Rmcb} {s : State σ}

theorem structAddress_mouse (is32 : Bool) (target : Pmaddr) :
    structAddress (final (mouseCallback h is32 target) s) =
      if validAndUsedSelector h s target.selector then (s.scp.es, zext (s.rmreg.lword .edi))
      else structAddress s := by
  rw [mouseCallback, final_reads_bind]
  cases validAndUsedSelector h s target.selector with
  | false => rfl
  | true => cases is32 <;> rfl

theorem structAddress_ps2 (is32 : Bool) (target : Pmaddr) :
    structAddress (final (ps2MouseCallback h is32 target) s) = structAddress s := by
  rw [ps2MouseCallback, final_reads_bind]
  cases validAndUsedSelector h s target.selector with
  | false => rfl
  | true => cases is32 <;> rfl

/-- Only a mouse callback that starts its routine changes one of the two. -/
theorem structAddress_call (s : State σ) :
    (¬MouseStarts h n s ∧ structAddress (final (rmcbCall h n) s) = structAddress s) ∨
      MouseStarts h n s ∧
        structAddress (final (rmcbCall h n) s) = (s.scp.es, zext (s.rmreg.lword .edi)) := by
  rw [rmcbCall, final_bind, final_reads, result_reads, id]
  split
  next entry =>
    refine .inl ⟨?_, rfl⟩
    rintro ⟨mouse, -⟩
    cases entry.symm.trans mouse
  next target entry arg =>
    rw [structAddress_mouse]
    split
    next valid => exact .inr ⟨⟨entry, target, arg, valid⟩, rfl⟩
    next unused =>
      refine .inl ⟨?_, rfl⟩
      rintro ⟨-, other, arg', valid⟩
      obtain rfl := Option.some.inj (arg.symm.trans arg')
      exact unused valid
  next target entry arg =>
    refine .inl ⟨?_, structAddress_ps2 _ _⟩
    rintro ⟨mouse, -⟩
    cases entry.symm.trans mouse
  next noMouse _ =>
    refine .inl ⟨?_, rfl⟩
    rintro ⟨mouse, target, arg, -⟩
    exact noMouse target mouse arg

/-- With a routine that leaves both alone, ES:EDI survive unless it is a mouse routine that gets an EDI other
than its own DI. With any other they do just if it hands back those that the host passed in. -/
theorem es_edi_survive_iff (doPmCall : M σ Unit) (n : Rmcb) (s : State σ) :
    (LeavesEsEdi doPmCall → (EsEdiSurvive h doPmCall n s ↔
      (MouseStarts h n s → s.scp.gpr .edi = zext (s.rmreg.lword .edi)))) ∧
    (EsEdiSurvive h doPmCall n s ↔
      structAddress (final doPmCall (final (rmcbCall h n) s)) = structAddress s) := by
  have survive : EsEdiSurvive h doPmCall n s ↔
      structAddress (final doPmCall (final (rmcbCall h n) s)) = structAddress s := by
    rw [EsEdiSurvive, handler, final_bind, final_bind, structAddress_return]
  refine ⟨fun leaves => ?_, survive⟩
  rw [survive, leaves]
  rcases structAddress_call (h := h) (n := n) s with ⟨starts, same⟩ | ⟨starts, loaded⟩
  · exact iff_of_true same fun mouse => absurd mouse starts
  · rw [loaded]
    constructor
    · intro same _
      exact (Prod.mk.inj same).2.symm
    · intro same
      exact Prod.ext rfl (same starts).symm

/-- The pair kept over the call, as in `msdos_pm_call`, survives every routine. -/
theorem es_edi_survive_saved (doPmCall : M σ Unit) (n : Rmcb) (s : State σ) :
    structAddress (final (msdosPmCall h doPmCall n) s) = structAddress s := by
  rw [msdosPmCall, final_bind, final_bind]
  exact congrArg (Prod.mk s.scp.es)
    (setGpr_self (final (handler h doPmCall n) s).scp.gpr .edi (s.scp.gpr .edi))

end EsEdi

def calledBack : State Bump :=
  let s := final (setClient fun c => { c with mouseCallBack := ⟨0x500, 0x97⟩ })
    (final (msdosInit bumpHost true 0x1000) bumpStart)
  { s with
    scp := { s.scp with gpr := fun _ => 0x100000, es := 0x87, ss := 0x8f }
    rmreg := { s.rmreg with gpr := fun _ => 5 } }

/-- The routine does nothing at all, and the host's EDI is gone. -/
theorem es_edi_survive_misses_mouse : ¬EsEdiSurvive bumpHost (pure ()) .ms calledBack := by
  intro survive
  exact absurd (congrArg Prod.snd survive) (by decide +kernel)

/-! ## The counts of reads and writes -/

section Counts

def IsLongIo (s : State σ) : Prop :=
  hiByte (s.scp.lword .eax) = 0x3f ∨ hiByte (s.scp.lword .eax) = 0x40

def longIoView (s : State σ) :
    Sigcontext × (Gpr → Dword) × IoBuffer × (Nat → MsdosStruct) × Nat :=
  (s.scp, s.rmreg.gpr, s.io, s.clients, s.clientNum)

theorem longIoView_atSwitch (s : State σ) : longIoView (s.atSwitch h 0x21) = longIoView s := by
  have call (c : DpmiCall) :
      @Moves (State σ) (no_index c.Reply) (Keeps longIoView) (hostCall h c) := fun _ => rfl
  have enter : Moves (Keeps longIoView) (preEnter h 0x21) := by
    unfold preEnter dtaCopyIn
    refine Moves.bind (m := updates _) (fun _ => rfl) fun _ => ?_
    exact Moves.bind (moves_reads _) fun s => Moves.onlyIf fun _ _ => rfl
  have map : Moves (Keeps longIoView) (preMap h 0x21) := by
    unfold preMap prepareEmsFrame
    refine Moves.bind (moves_reads _) fun ax => Moves.bind (Moves.onlyIf fun _ => ?_) fun _ => moves_pure _
    refine Moves.bind (moves_reads _) fun mapped => Moves.ite (fun _ _ => rfl) fun _ => ?_
    refine Moves.bind (moves_reads _) fun handle => Moves.bind (call _) fun _ => ?_
    exact Moves.bind (call _) fun _ _ => rfl
  exact (map _).trans (enter s)

structure LongIoSent (s u : State σ) : Prop where
  scp : u.scp = s.scp
  size : u.io.size = s.d16_32 (s.scp.gpr .ecx)
  error : u.io.error = false
  count : u.rmreg.gpr .ecx = setLoWord (s.rmreg.gpr .ecx) (s.scp.lword .ecx)
  given : maskHas u.rmMask (.gpr .ecx) = true

theorem longIoSent_dosLongIo (helper : Far → Far) (v : State σ) :
    LongIoSent v (final (dosLongIo h helper) v) := by
  let rma := helper (v.client.rmcbs .io)
  let size := v.d16_32 (v.scp.gpr .ecx)
  let opened := final (setIoBuffer (selAdrClnt h v v.scp.ds .edx) size) v
  let passed := final (passDs .edx) opened
  let counted := final (setRmLword .ecx (loWord size)) passed
  have run : final (dosLongIo h helper) v =
      final (rmDoIntTo (loWord counted.scp.eflags) rma.segment rma.offset) counted := rfl
  have pass : Moves (Keeps fun s : State σ => (s.scp, s.io, s.rmreg.gpr .ecx)) (passDs .edx) := by
    unfold passDs
    refine Moves.bind (Moves.transBufferSeg fun _ _ => rfl) fun seg => ?_
    exact Moves.bind (m := setRmDs seg) (fun _ => rfl) fun _ _ => rfl
  obtain ⟨scp, rest⟩ := Prod.mk.inj (pass opened)
  obtain ⟨io, ecx⟩ := Prod.mk.inj rest
  have frame (flags cs ip : Word) : let w := final (rmDoIntTo flags cs ip) counted
      w.scp = counted.scp ∧ w.io = counted.io ∧ w.rmreg.gpr = counted.rmreg.gpr ∧
        w.rmMask = counted.rmMask ||| regBit .eflags := ⟨rfl, rfl, rfl, rfl⟩
  obtain ⟨scp', io', gpr, mask⟩ := frame (loWord counted.scp.eflags) rma.segment rma.offset
  rw [run]
  constructor
  · rw [scp']
    exact scp
  · rw [io']
    exact congrArg IoBuffer.size io
  · rw [io']
    exact congrArg IoBuffer.error io
  · rw [gpr]
    have set : counted.rmreg.gpr .ecx = setLoWord (passed.rmreg.gpr .ecx) (loWord size) :=
      setGpr_self passed.rmreg.gpr .ecx (setLoWord (passed.rmreg.gpr .ecx) (loWord size))
    rw [set, ecx, loWord_d16_32]
    rfl
  · rw [mask, maskHas_or_regBit]
    have set : maskHas counted.rmMask (.gpr .ecx) = true := by
      show maskHas (passed.rmMask ||| regBit (.gpr .ecx)) (.gpr .ecx) = true
      simp
    rw [set]
    rfl

theorem longIoSent_pre {s : State σ} (longIo : IsLongIo s) :
    let u := final (msdosPreExtender h 0x21) s
    u.scp = s.scp ∧ u.io.size = s.d16_32 (s.scp.gpr .ecx) ∧ u.io.error = false ∧
      u.filled.rmreg.gpr .ecx = setLoWord (s.rmreg.gpr .ecx) (s.scp.lword .ecx) := by
  have branch : ∃ helper, ∀ act, preSwitch h 0x21 (s.scp.lword .eax) act =
      goOn (dosLongIo h helper) true := by
    rcases longIo with ah | ah
    · exact ⟨getLrHelper, fun act => by simp [preSwitch, dosFn, preDos, ah]⟩
    · exact ⟨getLwHelper, fun act => by simp [preSwitch, dosFn, preDos, ah]⟩
  obtain ⟨helper, branch⟩ := branch
  have outcome : s.outcome h 0x21 = .go true := by
    rw [State.outcome, branch]
    rfl
  have switched : s.switched h 0x21 = final (dosLongIo h helper) (s.atSwitch h 0x21) := by
    rw [State.switched, branch]
    rfl
  have sent := longIoSent_dosLongIo h helper (s.atSwitch h 0x21)
  obtain ⟨scp, rest⟩ := Prod.mk.inj (longIoView_atSwitch h s)
  obtain ⟨gpr, rest⟩ := Prod.mk.inj rest
  obtain ⟨-, records⟩ := Prod.mk.inj rest
  generalize final (dosLongIo h helper) (s.atSwitch h 0x21) = v at *
  have size : (s.atSwitch h 0x21).d16_32 = s.d16_32 := by
    obtain ⟨clients, number⟩ := Prod.mk.inj records
    unfold State.d16_32 State.client
    rw [clients, number]
  have dseg : needCopyDseg 0x21 (v.scp.lword .eax) = false := by
    rw [sent.scp, scp]
    rcases longIo with ah | ah
    all_goals simp [needCopyDseg, ah]
  have eseg : needCopyEseg 0x21 (v.scp.lword .eax) = false := by
    rw [sent.scp, scp]
    rcases longIo with ah | ah
    all_goals simp [needCopyEseg, ah]
  have finish : final (preFinish h 0x21 true) v = { v with rMask := v.rmMask, rStkUsed := v.stkUsed } := by
    have data : final (copyDsegIn h 0x21) v = v := by
      rw [copyDsegIn, final_reads_bind, dseg]
      rfl
    have extra : final (copyEsegIn h 0x21) v = v := by
      rw [copyEsegIn, final_reads_bind, eseg]
      rfl
    rw [preFinish, final_bind, final_bind, data, extra]
    rfl
  rw [final_pre, outcome, switched]
  show let u := final (preFinish h 0x21 true) v
    u.scp = s.scp ∧ u.io.size = s.d16_32 (s.scp.gpr .ecx) ∧ u.io.error = false ∧
      u.filled.rmreg.gpr .ecx = setLoWord (s.rmreg.gpr .ecx) (s.scp.lword .ecx)
  rw [finish]
  refine ⟨sent.scp.trans scp, ?_, sent.error, ?_⟩
  · rw [← size, ← scp]
    exact sent.size
  · have kept : maskHas (~~~v.rmMask) (.gpr .ecx) = false := by rw [maskHas_not, sent.given]; rfl
    have filled : ({ v with rMask := v.rmMask, rStkUsed := v.stkUsed } : State σ).filled.rmreg.gpr .ecx =
        v.rmreg.gpr .ecx := if_neg (Bool.not_eq_true _ ▸ kept)
    rw [filled, sent.count, gpr, scp]

theorem postRegs_eflags (s : State σ) : (final postRegs s).scp.eflags =
    if maskHas s.updateMask .eflags then zext s.rmreg.flags else s.scp.eflags := rfl

theorem longIo_received {t : State σ} (longIo : IsLongIo t) (noError : t.io.error = false) :
    let u := final (msdosPostExtender h 0x21) t
    u.scp.gpr .eax = zext (t.rmreg.lword .eax) ∧ u.scp.gpr .ecx = zext (t.rmreg.lword .ecx) ∧
      u.scp.eflags = t.scp.eflags &&& ~~~CF := by
  have branch : postSwitch h 0x21 (t.scp.lword .eax) = retLongIo := by
    rcases longIo with ah | ah
    all_goals simp [postSwitch, dosRet, postDos, ah]
  have unpacks : unpacked h 0x21 t = { t with updateMask := ~~~0 } := by
    have dseg : needCopyDseg 0x21 (t.scp.lword .eax) = false := by
      rcases longIo with ah | ah
      all_goals simp [needCopyDseg, ah]
    have eseg : needCopyEseg 0x21 (t.scp.lword .eax) = false := by
      rcases longIo with ah | ah
      all_goals simp [needCopyEseg, ah]
    have noDta : mirrorsDta 0x21 t = false := by
      rcases longIo with ah | ah
      all_goals simp [mirrorsDta, usesDta, ah]
    rw [unpacked, postCopies_unsegmented h dseg eseg, noDta]
    rfl
  have switch : final retLongIo ({ t with updateMask := ~~~0 } : State σ) =
      { t with
        updateMask := ~~~0 &&& ~~~regBit .eflags &&& ~~~regBit (.gpr .edx)
        scp := { t.scp with eflags := t.scp.eflags &&& ~~~CF }
        io := t.io.unset } := by
    rw [retLongIo, final_reads_bind]
    show final (retIoError t.io >>= _) _ = _
    rw [retIoError, noError]
    rfl
  have restore : Moves (Keeps fun s : State σ => (s.scp.eflags, s.updateMask)) (restoreEmsFrame h) :=
    Moves.restoreEmsFrame h (fun _ _ => rfl) (fun _ _ => rfl) fun _ _ => rfl
  have last := (Moves.onlyIf (c := needXbuf 0x21 (t.scp.lword .eax)) fun _ => restore)
    (final (postSwitch h 0x21 (t.scp.lword .eax)) (unpacked h 0x21 t))
  obtain ⟨flags, mask⟩ := Prod.mk.inj last
  have shut : maskHas (final (postSwitch h 0x21 (t.scp.lword .eax)) (unpacked h 0x21 t)).updateMask
      .eflags = false := by
    rw [branch, unpacks, switch]
    simp
  have opens (r : Gpr) (other : Gpr.edx ≠ r) : Opens r (unpacked h 0x21 t)
      (final (postSwitch h 0x21 (t.scp.lword .eax)) (unpacked h 0x21 t)) := by
    rw [branch, unpacks, switch]
    simp [Opens, Keeps, other]
  refine ⟨up_taken (opens .eax (by decide)), up_taken (opens .ecx (by decide)), ?_⟩
  rw [msdosPostExtender, final_bind, final_bind, final_bind, final_bind, postRegs_eflags]
  refine (if_neg ?_).trans (flags.trans (by rw [branch, unpacks, switch]))
  exact Bool.not_eq_true _ ▸ (congrArg (fun m => maskHas m .eflags) mask).trans shut

def upperHalf (v : Dword) : Word := v.extractLsb' 16 16

theorem setLoWord_loWord_eq_iff (a v : Dword) : setLoWord a (loWord v) = v ↔ upperHalf a = upperHalf v := by
  constructor
  · intro same
    calc upperHalf a = upperHalf (setLoWord a (loWord v)) := (BitVec.extractLsb'_append_eq_left ..).symm
      _ = upperHalf v := by rw [same]
  · intro same
    calc setLoWord a (loWord v) = upperHalf a ++ loWord v := rfl
      _ = setLoWord v (loWord v) := by rw [same]; rfl
      _ = v := setLoWord_loWord v

/-- The counts of a read or write that starts in `s` and comes back without an error in `t`. -/
structure CountsAgree (s t : State σ) : Prop where
  size : (final (msdosPreExtender h 0x21) s).io.size = s.d16_32 (s.scp.gpr .ecx)
  count : (final (msdosPreExtender h 0x21) s).filled.rmreg.gpr .ecx =
    (final (msdosPreExtender h 0x21) s).io.size
  total : if s.client.is32 then (final (msdosPostExtender h 0x21) t).scp.gpr .eax = t.rmreg.gpr .eax
    else (final (msdosPostExtender h 0x21) t).scp.lword .eax = t.rmreg.lword .eax
  carry : (final (msdosPostExtender h 0x21) t).scp.eflags &&& CF = 0
  ecx : t.rmreg.gpr .ecx = (final (msdosPreExtender h 0x21) s).filled.rmreg.gpr .ecx →
    (final (msdosPostExtender h 0x21) t).scp.gpr .ecx = s.scp.gpr .ecx

/-- The real-mode ECX already has the upper half of the count, and no value that comes back to the
client has one. -/
structure CountsFit (s t : State σ) : Prop where
  count : upperHalf (s.rmreg.gpr .ecx) = upperHalf (s.d16_32 (s.scp.gpr .ecx))
  total : s.client.is32 = true → Short (t.rmreg.gpr .eax)
  ecx : t.rmreg.gpr .ecx = setLoWord (s.rmreg.gpr .ecx) (s.scp.lword .ecx) → Short (s.scp.gpr .ecx)

/-- The counts agree just if they fit. -/
theorem counts_agree_iff (s t : State σ) (longIo : IsLongIo s)
    (kept : t.scp = (final (msdosPreExtender h 0x21) s).scp) (noError : t.io.error = false) :
    CountsAgree h s t ↔ CountsFit s t := by
  obtain ⟨scp, size, -, ecx⟩ := longIoSent_pre h longIo
  have called : IsLongIo t := by
    rw [IsLongIo, kept, scp]
    exact longIo
  obtain ⟨total, received, flags⟩ := longIo_received h called noError
  have count : (final (msdosPreExtender h 0x21) s).filled.rmreg.gpr .ecx =
      (final (msdosPreExtender h 0x21) s).io.size ↔
      upperHalf (s.rmreg.gpr .ecx) = upperHalf (s.d16_32 (s.scp.gpr .ecx)) := by
    rw [ecx, size, ← setLoWord_loWord_eq_iff, loWord_d16_32]
    rfl
  have back (unchanged : t.rmreg.gpr .ecx = setLoWord (s.rmreg.gpr .ecx) (s.scp.lword .ecx)) :
      (final (msdosPostExtender h 0x21) t).scp.gpr .ecx = s.scp.gpr .ecx ↔ Short (s.scp.gpr .ecx) := by
    rw [received, RealModeCallStructure.lword, unchanged, loWord_setLoWord]
    exact zext_loWord_iff _
  constructor
  · intro agree
    constructor
    · exact count.mp agree.count
    · intro is32
      have whole := agree.total
      rw [if_pos is32, total] at whole
      exact (zext_loWord_iff _).mp whole
    · intro unchanged
      exact (back unchanged).mp (agree.ecx (unchanged.trans ecx.symm))
  · intro fit
    constructor
    · exact size
    · exact count.mpr fit.count
    · split
      next is32 => exact total.trans ((zext_loWord_iff _).mpr (fit.total is32))
      next => exact (congrArg loWord total).trans (loWord_zext _)
    · calc (final (msdosPostExtender h 0x21) t).scp.eflags &&& CF
          = t.scp.eflags &&& (~~~CF &&& CF) := by rw [flags, BitVec.and_assoc]
        _ = 0 := BitVec.and_zero
    · intro unchanged
      have sent := unchanged.trans ecx
      exact (back sent).mpr (fit.ecx sent)

end Counts

def readsBytes (n : Dword) : State Bump :=
  let s := final (msdosInit bumpHost true 0x1000) bumpStart
  { s with scp := { s.scp with gpr := setGpr (fun _ => 0x3f00) .ecx n } }

theorem readsBytes_longIo (n : Dword) : IsLongIo (readsBytes n) := by
  refine Or.inl ?_
  show hiByte (loWord 0x3f00) = 0x3f
  decide

def helperBack (n : Dword) : State Bump :=
  let u := final (msdosPreExtender bumpHost 0x21) (readsBytes n)
  { u with rmreg := { u.filled.rmreg with gpr := setGpr u.filled.rmreg.gpr .eax n } }

theorem helperBack_scp (n : Dword) :
    (helperBack n).scp = (final (msdosPreExtender bumpHost 0x21) (readsBytes n)).scp := by
  rw [helperBack]

theorem counts_agree_five : CountsFit (readsBytes 5) (helperBack 5) ∧
    CountsAgree bumpHost (readsBytes 5) (helperBack 5) := by
  have fit : CountsFit (readsBytes 5) (helperBack 5) :=
    ⟨by decide +kernel, fun _ => by decide +kernel, fun _ => by decide +kernel⟩
  have noError : (helperBack 5).io.error = false := by decide +kernel
  exact ⟨fit, (counts_agree_iff bumpHost (readsBytes 5) (helperBack 5) (readsBytes_longIo 5) (helperBack_scp 5)
    noError).mpr fit⟩

/-- 64K bytes are asked of the helper as none. -/
theorem counts_agree_misses_64k : IsLongIo (readsBytes 0x10000) ∧
    (helperBack 0x10000).scp = (final (msdosPreExtender bumpHost 0x21) (readsBytes 0x10000)).scp ∧
    (helperBack 0x10000).io.error = false ∧
    ¬CountsAgree bumpHost (readsBytes 0x10000) (helperBack 0x10000) := by
  refine ⟨readsBytes_longIo _, helperBack_scp _, by decide +kernel, ?_⟩
  intro agree
  exact absurd agree.count (by decide +kernel)

end Pmdapi
