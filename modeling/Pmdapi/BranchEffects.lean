import Pmdapi.PostExtender

/-! What the service branches of both extenders may do, function by function. An effect that allows
the primitives allows every branch whose registers it allows. -/

namespace Pmdapi
open Bytes Effect

def MsdosStruct.dta (c : MsdosStruct) : Word × Word × Dword := (c.lowmemSeg, c.userDtaSel, c.userDtaOff)

/-! ## The registers a branch works on -/

/-- The LFN functions use the same registers on the way down and on the way back. -/
def lfnRegs (al : Byte) : List Gpr :=
  if al = 0x3b || al = 0x41 || al = 0x43 then [.edx]
  else if al = 0x4e then [.edx, .edi]
  else if al = 0x4f then [.edi]
  else if al = 0x47 then [.esi]
  else if al = 0x60 then [.esi, .edi]
  else if al = 0x6c then [.esi]
  else if al = 0xa0 then [.edx, .edi]
  else if al = 0xa6 then [.edx]
  else []

def redirectionRegs (al : Byte) : List Gpr := if 2 ≤ al && al ≤ 6 then [.esi, .edi] else []

/-- The registers that get a value of the translator's on the way down. -/
def DosFn.replaces (al : Byte) : DosFn → List Gpr
  | .terminate => [.eax]
  | .printString | .setDta | .fcb | .createPsp | .createSetPsp | .asciiz | .country => [.edx]
  | .parseFcb | .canonicalize => [.esi, .edi]
  | .getCwd | .extendedOpen => [.esi]
  | .exec => [.edx, .ebx]
  | .setPsp => [.ebx]
  | .read | .write => [.edx, .ecx]
  | .driveParams => [.esi, .ebp]
  | .rename | .international => [.edx, .edi]
  | .redirection => redirectionRegs al
  | .lfn => lfnRegs al
  | _ => []

/-- The registers that are not taken over from the service on the way back. -/
def DosRet.keeps (al : Byte) : DosRet → List Gpr
  | .terminate => [.eax]
  | .keepEdx | .fcb | .createPsp | .createSetPsp | .country => [.edx]
  | .parseFcb | .canonicalize => [.esi, .edi]
  | .getCwd | .extendedOpen => [.esi]
  | .setPsp | .getDta | .getPsp => [.ebx]
  | .longIo => [.eax, .edx]
  | .driveParams => [.esi, .ebp]
  | .rename | .international => [.edx, .edi]
  | .redirection => redirectionRegs al
  | .lfn => lfnRegs al
  | _ => []

/-- The registers that get a result made by the translator. -/
def DosRet.assigns : DosRet → List Gpr
  | .parseFcb => [.esi]
  | .getDta | .getPsp => [.ebx]
  | .longIo => [.eax]
  | _ => []

section Tables

variable (intr : Nat) (ax : Word)

def replaced : List Gpr :=
  if intr = 0x15 then if hiByte ax = 0xc2 && loByte ax = 0x07 then [.ebx] else []
  else if intr = 0x21 then (dosFn (hiByte ax)).replaces (loByte ax)
  else if intr = 0x33 then if ax = 0x09 || ax = 0x0c || ax = 0x14 then [.edx] else []
  else []

def kept : List Gpr :=
  if intr = 0x21 then (dosRet (hiByte ax)).keeps (loByte ax)
  else if intr = 0x2f then if ax = 0x4310 then [.ebx] else []
  else if intr = 0x33 then
    if ax = 0x09 || ax = 0x14 then [.edx] else if ax = 0x19 then [.ebx] else []
  else []

def assigned : List Gpr :=
  if intr = 0x21 then (dosRet (hiByte ax)).assigns
  else if intr = 0x2f then if ax = 0x4310 then [.ebx] else []
  else if intr = 0x33 then if ax = 0x19 then [.ebx] else []
  else []

end Tables

variable {σ : Type} (h : DpmiHost σ)

/-- The effect of what a branch does besides memory, the I/O buffer, its general registers, the transfer
buffer and the interrupt frame. -/
structure CalmEffect (R : State σ → State σ → Prop) : Prop where
  call : ∀ c : DpmiCall, (∀ handle, c ≠ .emmSavePageMap handle) →
    (∀ handle, c ≠ .emmRestorePageMap handle) → @Moves (State σ) (no_index c.Reply) R (hostCall h c)
  client : ∀ f, (∀ c, (f c).dta = c.dta) → Moves R (setClient f : M σ Unit)
  rmDs : ∀ v, Moves R (setRmDs v : M σ Unit)
  rmEs : ∀ v, Moves R (setRmEs v : M σ Unit)
  targetKept : Moves R (rmPreserveCsIp : M σ Unit)
  table : ∀ f : MsdosOps → MsdosOps, Moves R (updates fun s : State σ => { s with ops := f s.ops })

structure QuietEffect (R : State σ → State σ → Prop) : Prop extends CalmEffect h R where
  segments : ∀ f, (∀ scp : Sigcontext, (f scp).gpr = scp.gpr) → Moves R (setScp f : M σ Unit)
  target : ∀ cs ip, Moves R (setRmregs fun r => { r with cs := cs, ip := ip } : M σ Unit)
  frame : ∀ flags cs ip, Moves R (rmDoInt flags cs ip : M σ Unit)
  keepOther : ∀ i, (∀ r, i ≠ .gpr r) → Moves R (preserve i : M σ Unit)

structure FillEffect (R : State σ → State σ → Prop) : Prop extends CalmEffect h R where
  memory : ∀ f, Moves R (setMem f : M σ Unit)
  io : ∀ f : IoBuffer → IoBuffer, Moves R (updates fun s : State σ => { s with io := f s.io })

structure ServiceEffect (R : State σ → State σ → Prop) : Prop extends FillEffect h R, QuietEffect h R

def Going (R : State σ → State σ → Prop) (m : M σ Outcome) : Prop :=
  ∀ s altEnt, result m s = .go altEnt → R s (final m s)

section Going

variable {R : State σ → State σ → Prop}

theorem Going.of_moves {m : M σ Outcome} (moves : Moves R m) : Going R m := fun s _ _ => moves s

theorem Going.done (m : M σ Unit) : Going R (done m) := fun _ _ goes => by cases goes

theorem Going.ret [IsPreorder (State σ) R] (o : Outcome) : Going R (pure o : M σ Outcome) :=
  .of_moves (moves_pure o)

theorem Moves.done [IsPreorder (State σ) R] {m : M σ Unit} (moves : Moves R m) : Moves R (done m) :=
  Moves.bind moves fun _ => moves_pure _

theorem Moves.goOn [IsPreorder (State σ) R] {m : M σ Unit} {altEnt : Bool} (moves : Moves R m) :
    Moves R (goOn m altEnt) :=
  Moves.bind moves fun _ => moves_pure _

theorem Going.goOn [IsPreorder (State σ) R] {m : M σ Unit} {altEnt : Bool} (moves : Moves R m) :
    Going R (goOn m altEnt) :=
  .of_moves (Moves.goOn moves)

end Going

def DosFn.ends : DosFn → Bool
  | .setVector | .getVector | .allocate | .free | .resize | .unsupportedFcb => true
  | _ => false

structure EndingEffect (R : State σ → State σ → Prop) : Prop where
  call : ∀ c : DpmiCall, (∀ handle, c ≠ .emmSavePageMap handle) →
    (∀ handle, c ≠ .emmRestorePageMap handle) → @Moves (State σ) (no_index c.Reply) R (hostCall h c)
  client : ∀ f, (∀ c, (f c).dta = c.dta) → Moves R (setClient f : M σ Unit)
  scp : ∀ f, Moves R (setScp f : M σ Unit)
  table : ∀ f : MsdosOps → MsdosOps, Moves R (updates fun s : State σ => { s with ops := f s.ops })

namespace EndingEffect

variable {h} {R : State σ → State σ → Prop} [IsPreorder (State σ) R] (eff : EndingEffect h R)
include eff

theorem dosSetVector : Moves R (dosSetVector h) :=
  Moves.bind (moves_reads _) fun _ => eff.call _ nofun nofun

theorem dosGetVector : Moves R (dosGetVector h) :=
  Moves.bind (moves_reads _) fun _ => eff.scp _

theorem outOfMemory : Moves R (outOfMemory h) := by
  refine Moves.bind (eff.scp _) fun _ => Moves.bind (moves_reads _) fun free => ?_
  exact Moves.bind (eff.scp _) fun _ => eff.scp _

omit [IsPreorder (State σ) R] in
theorem setMemMap (f : MemMap → MemMap) : Moves R (setMemMap f : M σ Unit) :=
  eff.client _ fun _ => rfl

theorem msdosMalloc (size : Dword) : Moves R (msdosMalloc h size) := by
  unfold Pmdapi.msdosMalloc dpmiMalloc
  refine Moves.bind (Moves.bind (eff.call _ nofun nofun) fun _ => moves_pure _) fun block => ?_
  refine Moves.ite (fun _ => moves_pure _) fun _ => ?_
  exact Moves.bind (eff.setMemMap _) fun _ => moves_pure _

theorem msdosFree (addr : Dword) : Moves R (msdosFree h addr) := by
  unfold Pmdapi.msdosFree dpmiFree
  refine Moves.bind (moves_reads _) fun map => ?_
  split
  · refine Moves.bind (eff.call _ nofun nofun) fun _ => ?_
    exact Moves.bind (eff.setMemMap _) fun _ => moves_pure _
  · exact moves_pure _

theorem msdosRealloc (addr size : Dword) : Moves R (msdosRealloc h addr size) := by
  unfold Pmdapi.msdosRealloc dpmiRealloc
  refine Moves.bind (moves_reads _) fun map => ?_
  split
  next i found =>
    refine Moves.ite (fun _ => moves_pure _) fun _ => ?_
    refine Moves.bind (Moves.bind (eff.call _ nofun nofun) fun _ => moves_pure _) fun block => ?_
    refine Moves.ite (fun _ => moves_pure _) fun _ => ?_
    exact Moves.bind (eff.setMemMap _) fun _ => moves_pure _
  next => exact moves_pure _

theorem dosAllocate : Moves R (dosAllocate h) := by
  refine Moves.bind (moves_reads _) fun size => Moves.bind (eff.msdosMalloc _) fun addr => ?_
  refine Moves.ite (fun _ => eff.outOfMemory) fun _ => ?_
  refine Moves.bind (Moves.bind (eff.call _ nofun nofun) fun _ => moves_pure _) fun sel => ?_
  refine Moves.bind (eff.call _ nofun nofun) fun _ => Moves.bind (eff.call _ nofun nofun) fun _ => ?_
  exact Moves.bind (eff.scp _) fun _ => eff.scp _

theorem dosFree : Moves R (dosFree h) := by
  refine Moves.bind (moves_reads _) fun sel => Moves.bind (moves_reads _) fun base => ?_
  refine Moves.bind (eff.msdosFree _) fun err => Moves.ite (fun _ => eff.scp _) fun _ => ?_
  refine Moves.bind (eff.scp _) fun _ => Moves.bind (eff.call _ nofun nofun) fun _ => eff.scp _

theorem dosResize : Moves R (dosResize h) := by
  refine Moves.bind (moves_reads _) fun size => Moves.bind (moves_reads _) fun sel => ?_
  refine Moves.bind (moves_reads _) fun base => Moves.bind (eff.msdosRealloc _ _) fun addr => ?_
  refine Moves.ite (fun _ => eff.outOfMemory) fun _ => Moves.bind (eff.call _ nofun nofun) fun _ => ?_
  exact Moves.bind (eff.call _ nofun nofun) fun _ => eff.scp _

theorem getExtApi : Moves R (getExtApi h) := by
  unfold Pmdapi.getExtApi getExtApi.answerApi
  refine Moves.bind (moves_reads _) fun ptr => Moves.bind (moves_reads _) fun s => ?_
  refine Moves.ite (fun _ => ?_) fun _ => Moves.ite (fun _ => ?_) fun _ => eff.scp _
  · have handler := eff.table fun ops =>
      { ops with apiCall := some .msdosApiCall, apiArg := some (.ldtAlias (s.clientNum - 1)) }
    exact Moves.bind (Moves.bind handler fun _ => moves_reads _) fun _ => eff.scp _
  · have handler := eff.table fun ops =>
      { ops with
        apiWinos2Call := some .msdosApiWinos2Call
        apiWinos2Arg := some (.ldtAliasWinos2 (s.clientNum - 1)) }
    exact Moves.bind (Moves.bind handler fun _ => moves_reads _) fun _ => eff.scp _

end EndingEffect

section Frame

variable {R : State σ → State σ → Prop} [IsPreorder (State σ) R]
  (log : ∀ e, Moves R (logEvent e : M σ Unit))
include log

theorem Moves.transBufferSeg : Moves R (transBufferSeg : M σ Word) := by
  unfold Pmdapi.transBufferSeg
  refine Moves.bind (moves_reads _) fun mapped => Moves.bind (log _) fun _ => ?_
  exact Moves.bind (Moves.onlyIf fun _ => log _) fun _ => moves_reads _

theorem Moves.restoreEmsFrame (call : ∀ handle, Moves R (hostCall h (.emmRestorePageMap handle)))
    (flag : ∀ mapped, Moves R (updates fun s : State σ => { s with emsFrameMapped := mapped })) :
    Moves R (restoreEmsFrame h) := by
  unfold Pmdapi.restoreEmsFrame
  refine Moves.bind (moves_reads _) fun mapped => Moves.ite (fun _ => ?_) fun _ => log _
  exact Moves.bind (moves_reads _) fun handle => Moves.bind (call _) fun _ => flag _

end Frame

namespace CalmEffect

variable {h} {R : State σ → State σ → Prop} [IsPreorder (State σ) R] (eff : CalmEffect h R)
include eff

theorem dosCreateSetPsp (edx : ∀ v, Moves R (setRmLword .edx v : M σ Unit)) :
    Moves R (dosCreateSetPsp h) := by
  unfold Pmdapi.dosCreateSetPsp
  refine Moves.bind (moves_reads _) fun sel => Moves.bind (moves_reads _) fun inDos => ?_
  refine Moves.ite (fun _ => Moves.bind (moves_reads _) fun base => ?_) fun _ => ?_
  · exact Moves.bind (edx _) fun _ => eff.client _ fun _ => rfl
  · refine Moves.bind (eff.client _ fun _ => rfl) fun _ => Moves.bind (moves_reads _) fun psp => edx _

theorem ps2SetHandler (ebx : ∀ v, Moves R (setRmLword .ebx v : M σ Unit)) :
    Moves R (ps2SetHandler : M σ Unit) := by
  unfold Pmdapi.ps2SetHandler
  refine Moves.bind (moves_reads _) fun s => Moves.ite (fun _ => ?_) fun _ => ?_
  · exact Moves.bind (eff.client _ fun _ => rfl) fun _ => Moves.bind (eff.rmEs _) fun _ => ebx _
  · exact Moves.bind (eff.rmEs _) fun _ => ebx _

theorem passMouseCallback (es : Word) (cbk : Far)
    (edx : ∀ v, Moves R (setRmLword .edx v : M σ Unit)) :
    Moves R (passMouseCallback es cbk : M σ Unit) := by
  unfold Pmdapi.passMouseCallback
  split
  all_goals exact Moves.bind (eff.rmEs _) fun _ => edx _

/-- The swap also gives the client its old routine back, in ES:EDX. -/
theorem mouseSetHandler {swap : Bool} (edx : ∀ v, Moves R (setRmLword .edx v : M σ Unit))
    (swapped : swap = true → ∀ f, (∀ (scp : Sigcontext) r, r ≠ .edx → (f scp).gpr r = scp.gpr r) →
      (∀ scp : Sigcontext, (f scp).eflags = scp.eflags) → Moves R (setScp f : M σ Unit)) :
    Moves R (mouseSetHandler swap : M σ Unit) := by
  unfold Pmdapi.mouseSetHandler
  refine Moves.bind (moves_reads _) fun s => Moves.bind (eff.client _ fun _ => rfl) fun _ => ?_
  refine Moves.bind (eff.passMouseCallback _ _ edx) fun _ => Moves.onlyIf fun taken => ?_
  exact swapped taken _ (fun scp r other => setGpr_of_ne _ _ other) fun scp => rfl

section Buffer

variable (buffer : Moves R (transBufferSeg : M σ Word))
include buffer

theorem passDs {r : Gpr} (word : ∀ v, Moves R (setRmLword r v : M σ Unit)) :
    Moves R (passDs r : M σ Unit) :=
  Moves.bind buffer fun _ => Moves.bind (eff.rmDs _) fun _ => word _

theorem passEs {r : Gpr} (off : Word) (word : ∀ v, Moves R (setRmLword r v : M σ Unit)) :
    Moves R (passEs r off : M σ Unit) :=
  Moves.bind buffer fun _ => Moves.bind (eff.rmEs _) fun _ => word _

end Buffer

end CalmEffect

namespace QuietEffect

variable {h} {R : State σ → State σ → Prop} [IsPreorder (State σ) R] (eff : QuietEffect h R)
include eff

theorem rmDoIntTo (flags cs ip : Word) : Moves R (rmDoIntTo flags cs ip : M σ Unit) :=
  Moves.bind (moves_reads _) fun _ => Moves.bind (eff.frame _ _ _) fun _ => eff.target _ _

theorem rmInt (intno : Nat) (flags : Word) : Moves R (rmInt h intno flags) :=
  Moves.bind (moves_reads _) fun _ => eff.rmDoIntTo _ _ _

/-! The way back. -/

theorem setRegEs (v : Word) : Moves R (setRegEs v : M σ Unit) :=
  Moves.bind (eff.keepOther _ nofun) fun _ => eff.segments _ fun _ => rfl

theorem setRegDs (v : Word) : Moves R (setRegDs v : M σ Unit) :=
  Moves.bind (eff.keepOther _ nofun) fun _ => eff.segments _ fun _ => rfl

theorem setRegEflags (f : Dword → Dword) : Moves R (setRegEflags f : M σ Unit) :=
  Moves.bind (eff.keepOther _ nofun) fun _ => eff.segments _ fun _ => rfl

theorem selectorForEs : Moves R (selectorForEs h) := by
  refine Moves.bind (moves_reads _) fun seg => Moves.bind (eff.call _ nofun nofun) fun sel => ?_
  exact eff.setRegEs _

theorem selectorForDs : Moves R (selectorForDs h) := by
  refine Moves.bind (moves_reads _) fun seg => Moves.bind (eff.call _ nofun nofun) fun sel => ?_
  exact eff.setRegDs _

theorem convertSegmentToDescriptorLim (segment : Word) (limit : Dword) :
    Moves R (convertSegmentToDescriptorLim h segment limit) := by
  unfold Pmdapi.convertSegmentToDescriptorLim
  refine Moves.bind (moves_reads _) fun map => ?_
  split
  · exact moves_pure _
  · refine Moves.ite (fun _ => moves_pure _) fun _ => ?_
    refine Moves.bind (Moves.bind (eff.call _ nofun nofun) fun _ => moves_pure _) fun sel => ?_
    refine Moves.ite (fun _ => moves_pure _) fun _ => ?_
    refine Moves.bind (eff.call _ nofun nofun) fun _ => Moves.bind (eff.call _ nofun nofun) fun _ => ?_
    exact Moves.bind (eff.call _ nofun nofun) fun _ =>
      Moves.bind (eff.client _ fun _ => rfl) fun _ => moves_pure _

theorem retXmsEntry (keep : Moves R (preserveGpr .ebx : M σ Unit))
    (assign : ∀ v, Moves R (setReg32 .ebx v : M σ Unit)) : Moves R (retXmsEntry : M σ Unit) := by
  refine Moves.bind (moves_reads _) fun s => Moves.bind (eff.client _ fun _ => rfl) fun _ => ?_
  have handler := eff.table fun ops =>
    { ops with
      xmsCall := some .xmsCall, xmsArg := some (.xmsCall (s.clientNum - 1)), xmsRet := some .xmsRet }
  refine Moves.bind (Moves.bind handler fun _ => moves_reads _) fun pma => ?_
  exact Moves.bind (eff.setRegEs _) fun _ => Moves.bind keep fun _ => assign _

end QuietEffect

/-! ## Branches up to their jump -/

/-- The parameter block of int 21h/4Bh and what it points to, copied to low memory. -/
def fillParameters (segment : Word) : M σ Unit := do
  let parSeg := segment + 17
  setRmEs parSeg
  setRmLword .ebx 0
  let block ← reads fun s => selAdrClnt h s s.scp.es .ebx
  memcpy (segoff2linear parSeg 0) block 0x20
  writeWordAt (segoff2linear parSeg 0) 0
  let off ← reads fun s => readWord s.mem (segoff2linear parSeg 2)
  let sel ← reads fun s => readWord s.mem (segoff2linear parSeg 4)
  let tailSeg := parSeg + 2
  writeWordAt (segoff2linear parSeg 4) tailSeg
  writeWordAt (segoff2linear parSeg 2) 0
  let tail ← reads fun s => selAdr h s sel (zext off) s.client.is32
  memcpy (segoff2linear tailSeg 0) tail 0x80
  let fcbSeg := tailSeg + 8
  writeWordAt (segoff2linear parSeg 6) 0
  writeWordAt (segoff2linear parSeg 8) fcbSeg
  writeWordAt (segoff2linear parSeg 0xa) 0
  writeWordAt (segoff2linear parSeg 0xc) fcbSeg
  memset (segoff2linear fcbSeg 0) 0 0x30

def fillName : M σ (Far × Word) := do
  let rma ← getExecHelper h
  let segment ← reads fun s => s.client.lowmemSeg + EXEC_Para_ADD
  setRmDs segment
  setRmLword .edx 0
  let name ← reads fun s => selAdrClnt h s s.scp.ds .edx
  snprintf (segoff2linear segment 0) MAX_DOS_PATH name
  pure (rma, segment)

def fillExec : M σ Far := do
  let named ← fillName h
  fillParameters h named.2
  pure named.1

theorem dosExec_eq : dosExec h = (do
    let rma ← fillExec h
    restoreEnv h
    let flags ← reads fun s => loWord s.scp.eflags
    rmDoIntTo flags rma.segment rma.offset) := rfl

/-- 3Fh and 40h up to the jump to their helper. -/
def fillLongIo : M σ Unit := do
  let ptr ← reads fun s => selAdrClnt h s s.scp.ds .edx
  let size ← reads fun s => s.d16_32 (s.scp.gpr .ecx)
  setIoBuffer ptr size
  passDs .edx
  setRmLword .ecx (loWord size)

theorem dosLongIo_eq (helper : Far → Far) : dosLongIo h helper = (do
    let rma ← reads fun s => helper (s.client.rmcbs .io)
    fillLongIo h
    let flags ← reads fun s => loWord s.scp.eflags
    rmDoIntTo flags rma.segment rma.offset) := rfl

/-- The functions that set up the interrupt frame, or what it returns to, in their branch. -/
def DosFn.jumps : DosFn → Bool
  | .terminate | .exec | .read | .write => true
  | _ => false

def jumps (intr : Nat) (ax : Word) : Bool :=
  intr = 0x20 || intr = 0x21 && (dosFn (hiByte ax)).jumps

def DosFn.helper (s : State σ) : DosFn → Option Far
  | .exec => some ⟨0, 0⟩
  | .read => some (getLrHelper (s.client.rmcbs .io))
  | .write => some (getLwHelper (s.client.rmcbs .io))
  | _ => none

def helperOf (intr : Nat) (ax : Word) (s : State σ) : Option Far :=
  if intr = 0x21 then (dosFn (hiByte ax)).helper s else none

/-! ## How a branch is left -/

section Outcome

variable {P : Outcome → Prop}

theorem returns_done (m : M σ Unit) (ends : P (.ret .done)) : Returns P (done m) :=
  Returns.bind fun _ => .pure ends

theorem returns_goOn (m : M σ Unit) {altEnt : Bool} (goes : P (.go altEnt)) : Returns P (goOn m altEnt) :=
  Returns.bind fun _ => .pure goes

theorem returns_dosLfn (al : Byte) (goes : P (.go false)) (ends : P (.ret .done)) :
    Returns P (dosLfn h al) := by
  unfold dosLfn
  repeat' refine Returns.ite (fun _ => ?_) fun _ => ?_
  all_goals
    repeat refine Returns.bind fun _ => ?_
    first | exact .pure goes | exact .pure ends

theorem returns_preDos {f : DosFn} (al : Byte) (s : State σ) (goes : P (.go (f.helper s).isSome))
    (ends : P (.ret .done)) : Returns P (preDos h f al) := by
  cases f with
  | setVector | getVector | allocate | free | resize | unsupportedFcb => exact returns_done _ ends
  | lfn => exact returns_dosLfn h al goes ends
  | plain => exact .pure goes
  | _ => exact returns_goOn _ goes

/-- The ways a branch may be left: with the entry that its service has, answered, or not taken. -/
theorem returns_preSwitch {intr : Nat} {ax : Word} {act : Bool} (s : State σ)
    (goes : P (.go (helperOf intr ax s).isSome)) (ends : P (.ret .done))
    (none : intr ≠ 0x21 → P (.ret .none)) : Returns P (preSwitch h intr ax act) := by
  by_cases int21 : intr = 0x21
  · subst int21
    exact returns_preDos h _ s goes ends
  · have plain : P (.go false) := by
      rwa [helperOf, if_neg int21] at goes
    have untaken := none int21
    unfold preSwitch preMultiplex preMouse
    rw [if_neg int21]
    repeat' refine Returns.ite (fun _ => ?_) fun _ => ?_
    all_goals first | exact .pure ends | exact .pure plain | exact .pure untaken

end Outcome

section Memory

variable {R : State σ → State σ → Prop} [IsPreorder (State σ) R]
  (memory : ∀ f, Moves R (setMem f : M σ Unit))
include memory

theorem moves_writeEnvSel (sel : Word) : Moves R (writeEnvSel h sel) :=
  Moves.bind (moves_reads _) fun _ => memory _

theorem moves_restoreEnv : Moves R (restoreEnv h) := by
  refine Moves.bind (moves_reads _) fun env => Moves.onlyIf fun _ => ?_
  exact Moves.bind (moves_reads _) fun base => moves_writeEnvSel h memory _

theorem moves_fillParameters (es : ∀ v, Moves R (setRmEs v : M σ Unit))
    (ebx : ∀ v, Moves R (setRmLword .ebx v : M σ Unit)) (segment : Word) :
    Moves R (fillParameters h segment) := by
  refine Moves.bind (es _) fun _ => Moves.bind (ebx _) fun _ => Moves.bind (moves_reads _) fun block => ?_
  refine Moves.bind (memory _) fun _ => Moves.bind (memory _) fun _ => ?_
  refine Moves.bind (moves_reads _) fun off => Moves.bind (moves_reads _) fun sel => ?_
  refine Moves.bind (memory _) fun _ => Moves.bind (memory _) fun _ => ?_
  refine Moves.bind (moves_reads _) fun tail => Moves.bind (memory _) fun _ => ?_
  refine Moves.bind (memory _) fun _ => Moves.bind (memory _) fun _ => ?_
  exact Moves.bind (memory _) fun _ => Moves.bind (memory _) fun _ => memory _

end Memory

namespace FillEffect

variable {h} {R : State σ → State σ → Prop} [IsPreorder (State σ) R] (eff : FillEffect h R)
include eff

/-! ## The way down -/

theorem writeEnvSel (sel : Word) : Moves R (writeEnvSel h sel) := moves_writeEnvSel h eff.memory sel

theorem restoreEnv : Moves R (restoreEnv h) := moves_restoreEnv h eff.memory

theorem convertEnv : Moves R (convertEnv h) := by
  unfold Pmdapi.convertEnv
  refine Moves.bind (moves_reads _) fun envp => Moves.onlyIf fun _ => ?_
  exact Moves.bind (eff.call _ nofun nofun) fun sel => eff.writeEnvSel _

theorem dosSetDta (dta : ∀ f, Moves R (setClient f : M σ Unit))
    (edx : ∀ v, Moves R (setRmLword .edx v : M σ Unit)) : Moves R (dosSetDta h) := by
  unfold Pmdapi.dosSetDta
  refine Moves.bind (moves_reads _) fun off => Moves.bind (moves_reads _) fun sel => ?_
  refine Moves.bind (moves_reads _) fun inDos => Moves.ite (fun _ => ?_) fun _ => ?_
  · refine Moves.bind (moves_reads _) fun base => ?_
    exact Moves.bind (eff.rmDs _) fun _ => dta _
  · refine Moves.bind (dta _) fun _ => Moves.bind (moves_reads _) fun lowmem => ?_
    refine Moves.bind (eff.rmDs _) fun _ => Moves.bind (edx _) fun _ => ?_
    exact Moves.bind (moves_reads _) fun under => Moves.bind (moves_reads _) fun above => eff.memory _

theorem fillExec (edx : ∀ v, Moves R (setRmLword .edx v : M σ Unit))
    (ebx : ∀ v, Moves R (setRmLword .ebx v : M σ Unit)) : Moves R (fillExec h) := by
  unfold Pmdapi.fillExec fillName
  refine Moves.bind (Moves.bind (Moves.bind (eff.call _ nofun nofun) fun _ => moves_pure _) fun rma => ?_) fun _ => ?_
  · refine Moves.bind (moves_reads _) fun segment => Moves.bind (eff.rmDs _) fun _ => ?_
    refine Moves.bind (edx _) fun _ => Moves.bind (moves_reads _) fun name => ?_
    exact Moves.bind (eff.memory _) fun _ => moves_pure _
  · exact Moves.bind (moves_fillParameters h eff.memory eff.rmEs ebx _) fun _ => moves_pure _

theorem dosSetPsp (ebx : ∀ v, Moves R (setRmLword .ebx v : M σ Unit)) : Moves R (dosSetPsp h) := by
  unfold Pmdapi.dosSetPsp
  refine Moves.bind (moves_reads _) fun sel => Moves.bind (moves_reads _) fun inDos => ?_
  refine Moves.bind (moves_reads _) fun base => Moves.ite (fun _ => ?_) fun _ => ?_
  · exact Moves.bind (ebx _) fun _ => eff.client _ fun _ => rfl
  · refine Moves.bind (eff.client _ fun _ => rfl) fun _ => Moves.bind (moves_reads _) fun psp => ?_
    exact Moves.bind (ebx _) fun _ => eff.memory _

/-! With the transfer buffer. -/

section Buffer

variable (buffer : Moves R (transBufferSeg : M σ Word))
include buffer

theorem copyFromDs (r : Gpr) (n : Nat) : Moves R (copyFromDs h r n) :=
  Moves.bind buffer fun _ => Moves.bind (moves_reads _) fun _ => eff.memory _

theorem copyFromEs (r : Gpr) (n : Nat) : Moves R (copyFromEs h r n) :=
  Moves.bind buffer fun _ => Moves.bind (moves_reads _) fun _ => eff.memory _

theorem stringFromDs (r : Gpr) : Moves R (stringFromDs h r) :=
  Moves.bind (moves_reads _) fun _ => Moves.bind buffer fun _ => eff.memory _

theorem passTwoWindows {si di : Gpr} (n k : Nat) (paras : Word)
    (first : ∀ v, Moves R (setRmLword si v : M σ Unit))
    (second : ∀ v, Moves R (setRmLword di v : M σ Unit)) :
    Moves R (passTwoWindows h si di n k paras) := by
  unfold Pmdapi.passTwoWindows
  refine Moves.bind buffer fun seg => Moves.bind (eff.rmDs _) fun _ => ?_
  refine Moves.bind (first _) fun _ => Moves.bind (moves_reads _) fun src => ?_
  refine Moves.bind (eff.memory _) fun _ => Moves.bind (eff.rmEs _) fun _ => ?_
  exact Moves.bind (second _) fun _ => Moves.bind (moves_reads _) fun dst => eff.memory _

theorem fillLongIo (edx : ∀ v, Moves R (setRmLword .edx v : M σ Unit))
    (ecx : ∀ v, Moves R (setRmLword .ecx v : M σ Unit)) : Moves R (fillLongIo h) := by
  unfold Pmdapi.fillLongIo
  refine Moves.bind (moves_reads _) fun ptr => Moves.bind (moves_reads _) fun size => ?_
  refine Moves.bind (eff.io (·.set ptr size)) fun _ => ?_
  exact Moves.bind (eff.passDs buffer edx) fun _ => ecx _

theorem dosRename (edx : ∀ v, Moves R (setRmLword .edx v : M σ Unit))
    (edi : ∀ v, Moves R (setRmLword .edi v : M σ Unit)) : Moves R (dosRename h) := by
  unfold Pmdapi.dosRename
  refine Moves.bind buffer fun seg => Moves.bind (eff.rmDs _) fun _ => ?_
  refine Moves.bind (edx _) fun _ => Moves.bind (moves_reads _) fun old => ?_
  refine Moves.bind (eff.memory _) fun _ => Moves.bind (eff.rmEs _) fun _ => ?_
  exact Moves.bind (edi _) fun _ => Moves.bind (moves_reads _) fun new => eff.memory _

theorem dosCanonicalize (esi : ∀ v, Moves R (setRmLword .esi v : M σ Unit))
    (edi : ∀ v, Moves R (setRmLword .edi v : M σ Unit)) : Moves R (dosCanonicalize h) := by
  unfold Pmdapi.dosCanonicalize
  refine Moves.bind buffer fun seg => Moves.bind (eff.rmDs _) fun _ => ?_
  refine Moves.bind (esi _) fun _ => Moves.bind (moves_reads _) fun src => ?_
  exact Moves.bind (eff.memory _) fun _ => Moves.bind (eff.rmEs _) fun _ => edi _

theorem dosInternational (al : Byte) (edx : ∀ v, Moves R (setRmLword .edx v : M σ Unit))
    (edi : ∀ v, Moves R (setRmLword .edi v : M σ Unit)) : Moves R (dosInternational h al) := by
  unfold Pmdapi.dosInternational
  refine Moves.bind (moves_reads _) fun cx => ?_
  split_ifs
  · exact Moves.bind (eff.passEs buffer 0 edi) fun _ => eff.copyFromEs buffer _ _
  · exact eff.passEs buffer 0 edi
  · exact Moves.bind (eff.passDs buffer edx) fun _ => eff.copyFromDs buffer _ _
  · refine Moves.bind (eff.passDs buffer edx) fun _ => Moves.bind buffer fun seg => ?_
    exact Moves.bind (moves_reads _) fun src => eff.memory _
  · exact moves_pure _

theorem dosLfn {al : Byte} (words : ∀ r ∈ lfnRegs al, ∀ v, Moves R (setRmLword r v : M σ Unit)) :
    Going R (dosLfn h al) := by
  unfold lfnRegs at words
  unfold Pmdapi.dosLfn
  split_ifs with file findFirst findNext getCwd canonicalize extendedOpen volume closeFind info
  · refine .of_moves (Moves.bind (eff.passDs buffer (words .edx ?_)) fun _ => ?_)
    · rw [if_pos file]
      exact List.mem_cons_self
    · exact Moves.bind (eff.stringFromDs buffer _) fun _ => moves_pure _
  · refine .of_moves (Moves.bind (eff.passDs buffer (words .edx ?_)) fun _ => ?_)
    · simp [findFirst]
    · refine Moves.bind (eff.passEs buffer _ (words .edi ?_)) fun _ => ?_
      · simp [findFirst]
      · exact Moves.bind (eff.stringFromDs buffer _) fun _ => moves_pure _
  · refine .of_moves (Moves.bind (eff.passEs buffer _ (words .edi ?_)) fun _ => ?_)
    · simp [findNext]
    · exact Moves.bind (eff.copyFromEs buffer _ _) fun _ => moves_pure _
  · refine .of_moves (Moves.bind (eff.passDs buffer (words .esi ?_)) fun _ => moves_pure _)
    simp [getCwd]
  · refine .of_moves (Moves.bind (eff.passDs buffer (words .esi ?_)) fun _ => ?_)
    · simp [canonicalize]
    · refine Moves.bind (eff.passEs buffer _ (words .edi ?_)) fun _ => ?_
      · simp [canonicalize]
      · exact Moves.bind (eff.stringFromDs buffer _) fun _ => moves_pure _
  · refine .of_moves (Moves.bind (eff.passDs buffer (words .esi ?_)) fun _ => ?_)
    · simp [extendedOpen]
    · exact Moves.bind (eff.stringFromDs buffer _) fun _ => moves_pure _
  · refine .of_moves (Moves.bind (eff.passDs buffer (words .edx ?_)) fun _ => ?_)
    · simp [volume]
    · refine Moves.bind (eff.passEs buffer _ (words .edi ?_)) fun _ => ?_
      · simp [volume]
      · exact Moves.bind (eff.stringFromDs buffer _) fun _ => moves_pure _
  · exact .ret _
  · refine .of_moves (Moves.bind (eff.passDs buffer (words .edx ?_)) fun _ => moves_pure _)
    simp [info]
  · exact fun _ _ goes => by cases goes

theorem preDos {f : DosFn} {al : Byte} (plain : f.jumps = false)
    (words : ∀ r ∈ f.replaces al, ∀ v, Moves R (setRmLword r v : M σ Unit))
    (dta : f = .setDta → Moves R (Pmdapi.dosSetDta h)) :
    Going R (preDos h f al) := by
  cases f with
  | setVector | getVector | allocate | free | resize | unsupportedFcb => exact .done _
  | terminate | exec | read | write => cases plain
  | plain => exact .ret _
  | printString =>
    refine .goOn (Moves.bind (eff.passDs buffer (words .edx (by simp [DosFn.replaces]))) fun _ => ?_)
    refine Moves.bind buffer fun seg => Moves.bind (moves_reads _) fun src => eff.memory _
  | setDta => exact .goOn (dta rfl)
  | fcb =>
    refine .goOn (Moves.bind (eff.passDs buffer (words .edx (by simp [DosFn.replaces]))) fun _ => ?_)
    exact eff.copyFromDs buffer _ _
  | parseFcb =>
    exact .goOn (eff.passTwoWindows buffer _ _ _ (words .esi (by simp [DosFn.replaces]))
      (words .edi (by simp [DosFn.replaces])))
  | getCwd => exact .goOn (eff.passDs buffer (words .esi (by simp [DosFn.replaces])))
  | setPsp => exact .goOn (eff.dosSetPsp (words .ebx (by simp [DosFn.replaces])))
  | createPsp => exact .goOn (Moves.bind buffer fun _ => words .edx (by simp [DosFn.replaces]) _)
  | createSetPsp => exact .goOn (eff.dosCreateSetPsp (words .edx (by simp [DosFn.replaces])))
  | asciiz =>
    refine .goOn (Moves.bind (eff.passDs buffer (words .edx (by simp [DosFn.replaces]))) fun _ => ?_)
    exact eff.stringFromDs buffer _
  | country => exact .goOn (eff.passDs buffer (words .edx (by simp [DosFn.replaces])))
  | driveParams =>
    exact .goOn (eff.passTwoWindows buffer _ _ _ (words .esi (by simp [DosFn.replaces]))
      (words .ebp (by simp [DosFn.replaces])))
  | rename =>
    exact .goOn (eff.dosRename buffer (words .edx (by simp [DosFn.replaces]))
      (words .edi (by simp [DosFn.replaces])))
  | redirection =>
    refine .goOn (Moves.onlyIf fun listed => ?_)
    simp only [DosFn.replaces, redirectionRegs, listed, if_true] at words
    exact eff.passTwoWindows buffer _ _ _ (words .esi (by simp)) (words .edi (by simp))
  | canonicalize =>
    exact .goOn (eff.dosCanonicalize buffer (words .esi (by simp [DosFn.replaces]))
      (words .edi (by simp [DosFn.replaces])))
  | extendedOpen =>
    refine .goOn (Moves.bind (eff.passDs buffer (words .esi (by simp [DosFn.replaces]))) fun _ => ?_)
    exact eff.stringFromDs buffer _
  | international =>
    exact .goOn (eff.dosInternational buffer al (words .edx (by simp [DosFn.replaces]))
      (words .edi (by simp [DosFn.replaces])))
  | lfn => exact eff.dosLfn buffer words

theorem copyDsegIn (intr : Nat) : Moves R (copyDsegIn h intr) := by
  unfold Pmdapi.copyDsegIn
  refine Moves.bind (moves_reads _) fun ax => Moves.onlyIf fun _ => ?_
  refine Moves.bind buffer fun seg => Moves.bind (eff.rmDs _) fun _ => ?_
  refine Moves.bind (moves_reads _) fun sel => Moves.bind (moves_reads _) fun src => ?_
  exact Moves.bind buffer fun dst => Moves.bind (moves_reads _) fun limit => eff.memory _

theorem copyEsegIn (intr : Nat) : Moves R (copyEsegIn h intr) := by
  unfold Pmdapi.copyEsegIn
  refine Moves.bind (moves_reads _) fun ax => Moves.onlyIf fun _ => ?_
  refine Moves.bind buffer fun seg => Moves.bind (eff.rmEs _) fun _ => ?_
  refine Moves.bind (moves_reads _) fun sel => Moves.bind (moves_reads _) fun src => ?_
  exact Moves.bind buffer fun dst => Moves.bind (moves_reads _) fun limit => eff.memory _

theorem preMouse {ax : Word}
    (words : ∀ r ∈ replaced 0x33 ax, ∀ v, Moves R (setRmLword r v : M σ Unit))
    (swapped : ax = 0x14 → ∀ f, (∀ (scp : Sigcontext) r, r ≠ .edx → (f scp).gpr r = scp.gpr r) →
      (∀ scp : Sigcontext, (f scp).eflags = scp.eflags) → Moves R (setScp f : M σ Unit)) :
    Going R (preMouse h ax) := by
  unfold Pmdapi.preMouse
  split_ifs with cursor set swap
  · have edx := words .edx (by simp [replaced, cursor])
    exact .goOn (Moves.bind (eff.passEs buffer 0 edx) fun _ => eff.copyFromEs buffer _ _)
  · exact .goOn (eff.mouseSetHandler (words .edx (by simp [replaced, set])) nofun)
  · exact .goOn (eff.mouseSetHandler (words .edx (by simp [replaced, swap])) fun _ => swapped swap)
  · exact .ret _

omit eff buffer in
theorem preMultiplex (ax : Word) (act : Bool) : Going R (preMultiplex h ax act) := by
  unfold Pmdapi.preMultiplex
  split_ifs
  · exact .done _
  · exact .done _
  all_goals exact .ret _

/-- Every branch that goes on to real mode and leaves the frame to what follows. -/
theorem preSwitch {intr : Nat} {ax : Word} (act : Bool) (plain : jumps intr ax = false)
    (words : ∀ r ∈ replaced intr ax, ∀ v, Moves R (setRmLword r v : M σ Unit))
    (dta : intr = 0x21 → dosFn (hiByte ax) = .setDta → Moves R (Pmdapi.dosSetDta h))
    (swapped : intr = 0x33 → ax = 0x14 → ∀ f,
      (∀ (scp : Sigcontext) r, r ≠ .edx → (f scp).gpr r = scp.gpr r) →
      (∀ scp : Sigcontext, (f scp).eflags = scp.eflags) → Moves R (setScp f : M σ Unit)) :
    Going R (preSwitch h intr ax act) := by
  unfold Pmdapi.preSwitch
  split_ifs with int41 int15 int20 int21 int2f int33 listed
  · exact .ret _
  · refine .goOn (Moves.onlyIf fun ps2 => eff.ps2SetHandler (words .ebx ?_))
    rw [replaced, if_pos int15, if_pos ps2]
    exact List.mem_cons_self
  · simp [jumps, int20] at plain
  · rw [replaced, if_neg int15, if_pos int21] at words
    have stays : (dosFn (hiByte ax)).jumps = false := by
      simpa [jumps, int20, int21] using plain
    exact eff.preDos buffer stays words (dta int21)
  · exact preMultiplex ax act
  · exact eff.preMouse buffer (int33 ▸ words) (swapped int33)
  · exact .ret _
  · exact .ret _

end Buffer

end FillEffect

namespace ServiceEffect

variable {h} {R : State σ → State σ → Prop} [IsPreorder (State σ) R] (eff : ServiceEffect h R)
include eff

theorem oldDosTerminate : Moves R (oldDosTerminate h) := by
  unfold Pmdapi.oldDosTerminate
  refine Moves.bind (moves_reads _) fun psp => Moves.bind (moves_reads _) fun rmreg => ?_
  refine Moves.bind (eff.memory _) fun _ => Moves.bind (eff.memory _) fun _ => ?_
  refine Moves.bind (eff.target _ _) fun _ => Moves.bind (moves_reads _) fun link => ?_
  exact Moves.bind (moves_reads _) fun found => Moves.onlyIf fun _ => eff.memory _

theorem dosExec (edx : ∀ v, Moves R (setRmLword .edx v : M σ Unit))
    (ebx : ∀ v, Moves R (setRmLword .ebx v : M σ Unit)) : Moves R (dosExec h) := by
  rw [dosExec_eq]
  refine Moves.bind (eff.fillExec edx ebx) fun rma => Moves.bind eff.restoreEnv fun _ => ?_
  exact Moves.bind (moves_reads _) fun flags => eff.rmDoIntTo _ _ _

section Buffer

variable (buffer : Moves R (transBufferSeg : M σ Word))
include buffer

theorem dosLongIo (helper : Far → Far) (edx : ∀ v, Moves R (setRmLword .edx v : M σ Unit))
    (ecx : ∀ v, Moves R (setRmLword .ecx v : M σ Unit)) : Moves R (dosLongIo h helper) := by
  rw [dosLongIo_eq]
  refine Moves.bind (moves_reads _) fun rma => Moves.bind (eff.fillLongIo buffer edx ecx) fun _ => ?_
  exact Moves.bind (moves_reads _) fun flags => eff.rmDoIntTo _ _ _

theorem preDos {f : DosFn} {al : Byte}
    (words : ∀ r ∈ f.replaces al, ∀ v, Moves R (setRmLword r v : M σ Unit))
    (dta : f = .setDta → Moves R (Pmdapi.dosSetDta h)) :
    Going R (preDos h f al) := by
  cases f with
  | terminate =>
    refine .goOn (Moves.bind eff.oldDosTerminate fun _ => ?_)
    exact Moves.bind eff.targetKept fun _ => words .eax (by simp [DosFn.replaces]) _
  | exec =>
    exact .goOn (eff.dosExec (words .edx (by simp [DosFn.replaces]))
      (words .ebx (by simp [DosFn.replaces])))
  | read | write =>
    exact .goOn (eff.dosLongIo buffer _ (words .edx (by simp [DosFn.replaces]))
      (words .ecx (by simp [DosFn.replaces])))
  | _ => exact eff.toFillEffect.preDos buffer rfl words dta

theorem preSwitch {intr : Nat} {ax : Word} (act : Bool)
    (words : ∀ r ∈ replaced intr ax, ∀ v, Moves R (setRmLword r v : M σ Unit))
    (dta : intr = 0x21 → dosFn (hiByte ax) = .setDta → Moves R (Pmdapi.dosSetDta h))
    (swapped : intr = 0x33 → ax = 0x14 → ∀ f,
      (∀ (scp : Sigcontext) r, r ≠ .edx → (f scp).gpr r = scp.gpr r) →
      (∀ scp : Sigcontext, (f scp).eflags = scp.eflags) → Moves R (setScp f : M σ Unit)) :
    Going R (preSwitch h intr ax act) := by
  unfold Pmdapi.preSwitch
  split_ifs with int41 int15 int20 int21 int2f int33 listed
  · exact .ret _
  · refine .goOn (Moves.onlyIf fun ps2 => eff.ps2SetHandler (words .ebx ?_))
    rw [replaced, if_pos int15, if_pos ps2]
    exact List.mem_cons_self
  · exact .goOn (Moves.bind eff.oldDosTerminate fun _ => eff.targetKept)
  · rw [replaced, if_neg int15, if_pos int21] at words
    exact eff.preDos buffer words (dta int21)
  · exact FillEffect.preMultiplex ax act
  · exact eff.preMouse buffer (int33 ▸ words) (swapped int33)
  · exact .ret _
  · exact .ret _

end Buffer

/-! ## The way back -/

theorem copyToDs (r : Gpr) (n : Nat) : Moves R (copyToDs h r n) :=
  Moves.bind (moves_reads _) fun _ => Moves.bind (moves_reads _) fun _ => eff.memory _

theorem copyToEs (r : Gpr) (n : Nat) : Moves R (copyToEs h r n) :=
  Moves.bind (moves_reads _) fun _ => Moves.bind (moves_reads _) fun _ => eff.memory _

theorem stringToDs (r : Gpr) (size : Nat) : Moves R (stringToDs h r size) :=
  Moves.bind (moves_reads _) fun _ => Moves.bind (moves_reads _) fun _ => eff.memory _

theorem stringToEs (r : Gpr) (size : Nat) : Moves R (stringToEs h r size) :=
  Moves.bind (moves_reads _) fun _ => Moves.bind (moves_reads _) fun _ => eff.memory _

omit eff in
theorem unlessFailed {m : M σ Unit} (moves : Moves R m) : Moves R (unlessFailed m) :=
  Moves.bind (moves_reads _) fun _ => Moves.onlyIf fun _ => moves

theorem retInternational (al : Byte) (edx : Moves R (preserveGpr .edx : M σ Unit))
    (edi : Moves R (preserveGpr .edi : M σ Unit)) : Moves R (retInternational h al) := by
  refine Moves.bind edi fun _ => Moves.bind edx fun _ => Moves.bind (moves_reads _) fun s => ?_
  refine unlessFailed ?_
  split_ifs
  · exact eff.copyToEs _ _
  · exact eff.copyToDs _ _
  · exact eff.memory _
  · exact moves_pure _

theorem retLfn {al : Byte} (keep : ∀ r ∈ lfnRegs al, Moves R (preserveGpr r : M σ Unit)) :
    Moves R (retLfn h al) := by
  unfold lfnRegs at keep
  unfold Pmdapi.retLfn
  split_ifs at keep ⊢ with file findFirst findNext getCwd canonicalize extendedOpen volume info
  · exact keep .edx (by simp)
  · refine Moves.bind (keep .edx (by simp)) fun _ => Moves.bind (keep .edi (by simp)) fun _ => ?_
    exact unlessFailed (eff.copyToEs _ _)
  · exact Moves.bind (keep .edi (by simp)) fun _ => unlessFailed (eff.copyToEs _ _)
  · exact Moves.bind (keep .esi (by simp)) fun _ => unlessFailed (eff.stringToDs _ _)
  · refine Moves.bind (keep .esi (by simp)) fun _ => Moves.bind (keep .edi (by simp)) fun _ => ?_
    exact unlessFailed (eff.stringToEs _ _)
  · exact keep .esi (by simp)
  · refine Moves.bind (keep .edx (by simp)) fun _ => Moves.bind (keep .edi (by simp)) fun _ => ?_
    exact Moves.bind (moves_reads _) fun cx => unlessFailed (eff.stringToEs _ _)
  · exact Moves.bind (keep .edx (by simp)) fun _ => unlessFailed (eff.copyToDs _ _)
  · exact moves_pure _

theorem postDos {f : DosRet} {al : Byte} (keep : ∀ r ∈ f.keeps al, Moves R (preserveGpr r : M σ Unit))
    (assign : ∀ r ∈ f.assigns, ∀ v, Moves R (setReg32 r v : M σ Unit)) :
    Moves R (postDos h f al) := by
  cases f with
  | terminate => exact keep .eax (by simp [DosRet.keeps])
  | keepEdx => exact keep .edx (by simp [DosRet.keeps])
  | fcb => exact Moves.bind (keep .edx (by simp [DosRet.keeps])) fun _ => eff.copyToDs _ _
  | parseFcb =>
    have esi := keep .esi (by simp [DosRet.keeps])
    refine Moves.bind esi fun _ => Moves.bind (keep .edi (by simp [DosRet.keeps])) fun _ => ?_
    refine Moves.bind (moves_reads _) fun dst => Moves.bind (moves_reads _) fun src => ?_
    refine Moves.bind (eff.memory _) fun _ => Moves.bind (moves_reads _) fun sum => ?_
    refine Moves.bind (Moves.bind esi fun _ => assign .esi (by simp [DosRet.assigns]) _) fun _ => ?_
    exact eff.copyToEs _ _
  | getDta =>
    have ebx := keep .ebx (by simp [DosRet.keeps])
    have result := assign .ebx (by simp [DosRet.assigns])
    refine Moves.bind (moves_reads _) fun s => Moves.ite (fun _ => ?_) fun _ => ?_
    · exact Moves.bind (eff.setRegEs _) fun _ => Moves.bind ebx fun _ => result _
    · exact Moves.bind eff.selectorForEs fun _ => Moves.bind ebx fun _ => result _
  | farPointer => exact eff.selectorForEs
  | setPsp => exact keep .ebx (by simp [DosRet.keeps])
  | extendedOpen => exact keep .esi (by simp [DosRet.keeps])
  | createSetPsp =>
    refine Moves.bind (keep .edx (by simp [DosRet.keeps])) fun _ => ?_
    refine Moves.bind (moves_reads _) fun inDos => Moves.onlyIf fun _ => ?_
    exact Moves.bind (moves_reads _) fun s => eff.memory _
  | createPsp =>
    refine Moves.bind (keep .edx (by simp [DosRet.keeps])) fun _ => ?_
    exact Moves.bind (moves_reads _) fun s => eff.memory _
  | extendedError => exact Moves.bind (moves_reads _) fun ax => Moves.onlyIf fun _ => eff.selectorForEs
  | country =>
    refine Moves.bind (moves_reads _) fun dx => Moves.onlyIf fun _ => ?_
    refine Moves.bind (keep .edx (by simp [DosRet.keeps])) fun _ => ?_
    exact unlessFailed (eff.copyToDs _ _)
  | getCwd =>
    refine Moves.bind (keep .esi (by simp [DosRet.keeps])) fun _ => ?_
    exact unlessFailed (eff.stringToDs _ _)
  | exec => exact eff.convertEnv
  | getPsp =>
    have ebx := keep .ebx (by simp [DosRet.keeps])
    have result := assign .ebx (by simp [DosRet.assigns])
    refine Moves.bind (moves_reads _) fun s => Moves.ite (fun _ => ?_) fun _ => ?_
    · exact Moves.bind ebx fun _ => result _
    · refine Moves.bind (eff.convertSegmentToDescriptorLim _ _) fun sel => ?_
      exact Moves.bind ebx fun _ => result _
  | driveParams =>
    refine Moves.bind (keep .esi (by simp [DosRet.keeps])) fun _ => ?_
    exact Moves.bind (keep .ebp (by simp [DosRet.keeps])) fun _ => eff.copyToEs _ _
  | rename =>
    refine Moves.bind (keep .edx (by simp [DosRet.keeps])) fun _ => ?_
    exact keep .edi (by simp [DosRet.keeps])
  | serverCall => exact Moves.onlyIf fun _ => eff.selectorForDs
  | leadByte => exact Moves.bind (moves_reads _) fun rmAl => Moves.onlyIf fun _ => eff.selectorForDs
  | longIo =>
    refine Moves.bind (moves_reads _) fun io => Moves.bind (Moves.ite (fun _ => ?_) fun _ => ?_) fun _ => ?_
    · refine Moves.bind (eff.setRegEflags _) fun _ => ?_
      refine Moves.bind (keep .eax (by simp [DosRet.keeps])) fun _ => ?_
      exact assign .eax (by simp [DosRet.assigns]) _
    · exact eff.setRegEflags _
    · exact Moves.bind (eff.io (·.unset)) fun _ => keep .edx (by simp [DosRet.keeps])
  | redirection =>
    refine Moves.onlyIf fun listed => ?_
    simp only [DosRet.keeps, redirectionRegs, listed, if_true] at keep
    refine Moves.bind (keep .esi (by simp)) fun _ => Moves.bind (keep .edi (by simp)) fun _ => ?_
    exact Moves.bind (eff.copyToDs _ _) fun _ => eff.copyToEs _ _
  | canonicalize =>
    refine Moves.bind (keep .esi (by simp [DosRet.keeps])) fun _ => ?_
    exact Moves.bind (keep .edi (by simp [DosRet.keeps])) fun _ => eff.copyToEs _ _
  | international =>
    exact eff.retInternational al (keep .edx (by simp [DosRet.keeps]))
      (keep .edi (by simp [DosRet.keeps]))
  | lfn => exact eff.retLfn keep
  | other => exact moves_pure _

theorem retDisk : Moves R (retDisk h) := by
  refine Moves.bind (moves_reads _) fun is32 => Moves.bind (eff.segments _ fun _ => rfl) fun _ => ?_
  exact Moves.bind (moves_reads _) fun s => eff.memory _

theorem postSwitch {intr : Nat} {ax : Word}
    (keep : ∀ r ∈ kept intr ax, Moves R (preserveGpr r : M σ Unit))
    (assign : ∀ r ∈ assigned intr ax, ∀ v, Moves R (setReg32 r v : M σ Unit)) :
    Moves R (postSwitch h intr ax) := by
  unfold Pmdapi.postSwitch
  split_ifs with int10 int15 int2f int21 disk int33
  · exact Moves.onlyIf fun _ => eff.selectorForEs
  · exact Moves.onlyIf fun _ => unlessFailed eff.selectorForEs
  · refine Moves.onlyIf fun entry => eff.retXmsEntry (keep .ebx ?_) (assign .ebx ?_)
    · simp_all [kept]
    · simp_all [assigned]
  · rw [kept, if_pos int21] at keep
    rw [assigned, if_pos int21] at assign
    exact eff.postDos keep assign
  · exact eff.retDisk
  · unfold retMouse
    split_ifs with edx driver
    · exact keep .edx (by simp_all [kept])
    · refine Moves.bind (moves_reads _) fun seg => Moves.bind (eff.call _ nofun nofun) fun sel => ?_
      refine Moves.bind (keep .ebx ?_) fun _ => assign .ebx ?_ _
      · simp_all [kept]
      · simp_all [assigned]
    · exact moves_pure _
  · exact moves_pure _

theorem postCopies (intr : Nat) (ax : Word) (buffer : Moves R (transBufferSeg : M σ Word))
    (s : State σ) : R { s with updateMask := ~~~0 } (final (postCopies h intr ax) s) := by
  refine (Moves.bind ?_ fun _ => Moves.bind ?_ fun _ => ?_ : Moves R (do
    dtaCopyOut h intr ax
    copyDsegOut h intr ax
    copyEsegOut h intr ax)) _
  · exact Moves.bind (moves_reads _) fun s => Moves.onlyIf fun _ => eff.memory _
  · refine Moves.onlyIf fun _ => Moves.bind buffer fun seg => ?_
    exact Moves.bind (moves_reads _) fun s => eff.memory _
  · refine Moves.onlyIf fun _ => Moves.bind buffer fun seg => ?_
    exact Moves.bind (moves_reads _) fun s => eff.memory _

end ServiceEffect

end Pmdapi
