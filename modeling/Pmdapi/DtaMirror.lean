import Pmdapi.ClientEffects
import Pmdapi.DosPointers
import Pmdapi.Library.Trace
import Pmdapi.PathSlots
import Pmdapi.ReturnedPointers

/-! A client's DTA and the one below 1 MiB that stands for it, over a sequence of int 21h calls. -/

namespace Pmdapi
open Bytes Effect

/-! ## Sequences of calls -/

/-- A client between two calls, DOS's pointer to its DTA, and the pointer of the client if its last 1Ah
took it to lie outside of DOS space. -/
structure DtaRun (σ : Type) where
  state : State σ
  dosDta : Far
  outside : Option Pmaddr

structure DosCall (σ : Type) where
  called : State σ
  returned : State σ

variable {σ : Type} (h : DpmiHost σ)

def State.given (s : State σ) : Pmaddr := ⟨s.d16_32 (s.scp.gpr .edx), s.scp.ds⟩

def outsideAfter (s : State σ) (before : Option Pmaddr) : Option Pmaddr :=
  if s.ah = 0x1a then
    if inDosSpace h s s.given.selector s.given.offset then none else some s.given
  else before

def dosDtaAfter (t : State σ) (before : Far) : Far :=
  if hiByte (t.filled.rmreg.lword .eax) = 0x1a then
    ⟨t.filled.rmreg.lword .edx, t.filled.rmreg.ds⟩
  else before

/-- Between its calls the client does as it likes; AX is its own. -/
structure CalledFrom (s c : State σ) : Prop where
  clients : c.clients = s.clients
  clientNum : c.clientNum = s.clientNum
  free : maskHas c.rMask (.gpr .eax) = false

/-- DOS serves a call. The translator's data and the descriptors stay; 2Fh is answered with the pointer. -/
structure DosServes (dta : Far) (t u : State σ) : Prop where
  clients : u.clients = t.clients
  clientNum : u.clientNum = t.clientNum
  scp : u.scp = t.scp
  is32 : u.clntIs32 = t.clntIs32
  base : ∀ sel, getSegmentBase h u sel = getSegmentBase h t sel
  getDta : t.ah = 0x2f → u.rmreg.es = dta.segment ∧ u.rmreg.lword .ebx = dta.offset

def DtaRun.after (x : DtaRun σ) (c : DosCall σ) : DtaRun σ where
  state := final (msdosPostExtender h 0x21) c.returned
  dosDta := dosDtaAfter (final (msdosPreExtender h 0x21) c.called) x.dosDta
  outside := outsideAfter h c.called x.outside

/-- One call: DOS serves it, or it ends in the translator. -/
inductive DtaStep : DtaRun σ → DosCall σ → DtaRun σ → Prop where
  | served {x : DtaRun σ} {c : DosCall σ} (made : CalledFrom x.state c.called)
    (goes : result (msdosPreExtender h 0x21) c.called = .rm)
    (serves : DosServes h (x.after h c).dosDta (final (msdosPreExtender h 0x21) c.called) c.returned) :
    DtaStep x c (x.after h c)
  | ended {x : DtaRun σ} {c : DosCall σ} (made : CalledFrom x.state c.called)
    (ends : result (msdosPreExtender h 0x21) c.called ≠ .rm) :
    DtaStep x c ⟨final (msdosPreExtender h 0x21) c.called, x.dosDta, x.outside⟩

def DtaStart (x : DtaRun σ) : Prop :=
  x.outside = none ∧ ∃ is32 mseg s, x.state = final (msdosInit h is32 mseg) s

/-! ## What is asked of a run -/

def DtaRun.dosAddress (x : DtaRun σ) : Dword := segoff2linear x.dosDta.segment x.dosDta.offset

/-- DOS has the DTA below 1 MiB while the client has its own outside of DOS space. -/
def DtaRun.Mirrored (x : DtaRun σ) : Prop := x.outside ≠ none → x.dosAddress = dtaUnder1MB x.state

def clientDta (s : State σ) (d : Pmaddr) : Dword := getSegmentBase h s d.selector + d.offset

def SameDta (m : Memory) (a : Dword) (k : Memory) (b : Dword) : Prop :=
  ∀ i < 0x80, m (a + BitVec.ofNat 32 i) = k (b + BitVec.ofNat 32 i)

structure DtaServed (x : DtaRun σ) (c : DosCall σ) : Prop where
  getDta : ∀ d, x.outside = some d → c.called.ah = 0x2f →
    (final (msdosPostExtender h 0x21) c.returned).scp.es = d.selector ∧
      (final (msdosPostExtender h 0x21) c.returned).scp.gpr .ebx = d.offset
  seen : ∀ d, x.outside = some d → usesDta c.called.ah = true →
    SameDta (final (msdosPreExtender h 0x21) c.called).mem x.dosAddress
      c.called.mem (clientDta h c.called d)
  brought : ∀ d, x.outside = some d → usesDta c.called.ah = true →
    SameDta (final (msdosPostExtender h 0x21) c.returned).mem (clientDta h c.called d)
      (final (msdosPostExtender h 0x21) c.returned).mem x.dosAddress
  untouched : x.outside = none →
    final (dtaCopyIn h 0x21) c.called = c.called ∧
      (result (msdosPreExtender h 0x21) c.called = .rm →
        final (dtaCopyOut h 0x21 (c.returned.scp.lword .eax)) c.returned = c.returned)
  unset : outsideAfter h c.called x.outside = none → c.called.ah = 0x1a →
    (final (msdosPreExtender h 0x21) c.called).mem = c.called.mem

def State.searchSent (s : State σ) : List Block :=
  if s.ah = 0x11 || s.ah = 0x12 then [⟨segoff2linear s.emmSeg 0, 0x50⟩]
  else if s.ah = 0x4e then [(s.path h .dsDx).written]
  else []

def State.searchFcb (s : State σ) : List Block :=
  if s.ah = 0x11 || s.ah = 0x12 then [⟨selAdrClnt h s s.scp.ds .edx, 0x50⟩] else []

/-- The client's DTA is found, and nothing else is copied over it or over DOS's. -/
structure SearchApart (s : State σ) (d : Pmaddr) (dos : Dword) : Prop where
  set : d.selector ≠ 0
  flat : d.selector &&& 4 = 0 → getSegmentBase h s d.selector = 0
  offset : d.selector &&& 4 ≠ 0 → s.clntIs32 = true ∨ d.offset.toNat < 0x10000
  mirror : (Block.mk (clientDta h s d) 0x80).Apart ⟨dos, 0x80⟩
  sent : ∀ b ∈ s.searchSent h, b.Apart ⟨dos, 0x80⟩
  fcb : ∀ b ∈ s.searchFcb h, b.Apart ⟨dos, 0x80⟩ ∧ b.Apart ⟨clientDta h s d, 0x80⟩

def SearchesApart (x : DtaRun σ) (c : DosCall σ) : Prop :=
  ∀ d, x.outside = some d → usesDta c.called.ah = true → SearchApart h c.called d x.dosAddress

/-! ## The record of the DTA -/

def dtaPart (s : State σ) : (Word × Word × Dword) × Bool := (s.client.dta, s.clntIs32)

theorem dtaPart_setClient {f : MsdosStruct → MsdosStruct} (same : ∀ c, (f c).dta = c.dta) :
    Moves (Keeps dtaPart) (setClient f : M σ Unit) := by
  intro s
  have assigned : (final (setClient f) s).client.dta = s.client.dta := by
    rw [setClient, final_updates, State.client_withClient, same]
  exact Prod.ext assigned rfl

theorem dtaPart_effect : ServiceEffect h (Keeps dtaPart) where
  call _ _ _ _ := rfl
  client _ same := dtaPart_setClient same
  rmDs _ _ := rfl
  rmEs _ _ := rfl
  targetKept _ := rfl
  table _ _ := rfl
  segments _ _ _ := rfl
  target _ _ _ := rfl
  frame _ _ _ _ := rfl
  keepOther _ _ _ := rfl
  memory _ _ := rfl
  io _ _ := rfl

theorem dtaPart_ending : EndingEffect h (Keeps dtaPart) where
  call _ _ _ _ := rfl
  client _ same := dtaPart_setClient same
  scp _ _ := rfl
  table _ _ := rfl

theorem dtaPart_transBufferSeg : Moves (Keeps dtaPart) (transBufferSeg : M σ Word) :=
  Moves.transBufferSeg fun _ _ => rfl

theorem dtaPart_atSwitch (intr : Nat) (s : State σ) : dtaPart (s.atSwitch h intr) = dtaPart s := by
  obtain ⟨host, trace, mapped, arrived⟩ := atSwitch_eq h intr s
  rw [arrived, preEnter_eq]
  rfl

theorem dtaPart_pre {s : State σ} (other : s.ah ≠ 0x1a) :
    dtaPart (final (msdosPreExtender h 0x21) s) = dtaPart s := by
  have eff := dtaPart_effect h
  have kept : dosFn s.ah ≠ .setDta := by
    have table : ∀ ah, dosFn ah = .setDta → ah = 0x1a := by decide +kernel
    exact fun setDta => other (table _ setDta)
  rw [← dtaPart_atSwitch h 0x21 s]
  by_cases goes : result (msdosPreExtender h 0x21) s = .rm
  · obtain ⟨altEnt, outcome, parts⟩ := pre_goes h goes
    have branch : Keeps dtaPart (s.atSwitch h 0x21) (s.switched h 0x21) :=
      eff.preDos dtaPart_transBufferSeg (fun _ _ _ _ => rfl) (fun setDta => absurd setDta kept) _ altEnt outcome
    have finish : Moves (Keeps dtaPart) (preFinish h 0x21 altEnt) := by
      refine Moves.bind (eff.copyDsegIn dtaPart_transBufferSeg 0x21) fun _ => ?_
      refine Moves.bind (eff.copyEsegIn dtaPart_transBufferSeg 0x21) fun _ => ?_
      refine Moves.bind (moves_reads _) fun flags => Moves.bind (Moves.onlyIf fun _ => ?_) fun _ => ?_
      · exact eff.rmInt _ _
      · exact fun _ => rfl
    rw [parts]
    exact (finish _).trans branch
  · obtain ⟨outcome, parts⟩ := pre_ends h goes
    rw [parts]
    exact ends_preDos (dtaPart_ending h) _ _ _ ⟨_, outcome⟩

theorem dtaPart_post (intr : Nat) (s : State σ) :
    dtaPart (final (msdosPostExtender h intr) s) = dtaPart s := by
  have eff := dtaPart_effect h
  have copies := eff.postCopies intr (s.scp.lword .eax) dtaPart_transBufferSeg s
  have rest : Moves (Keeps dtaPart) (do
      postSwitch h intr (s.scp.lword .eax)
      onlyIf (needXbuf intr (s.scp.lword .eax)) (restoreEmsFrame h)
      postRegs) := by
    refine Moves.bind (eff.postSwitch (fun _ _ _ => rfl) fun _ _ _ _ => rfl) fun _ => ?_
    refine Moves.bind (Moves.onlyIf fun _ => ?_) fun _ _ => rfl
    exact Moves.restoreEmsFrame h (fun _ _ => rfl) (fun _ _ => rfl) fun _ _ => rfl
  rw [msdosPostExtender, final_reads_bind]
  exact (rest _).trans copies

/-! ## 1Ah -/

theorem filled_setDta {s : State σ} (ah : s.ah = 0x1a) :
    result (msdosPreExtender h 0x21) s = .rm ∧
      FilledFrom (final (dosSetDta h) s.entered) (final (msdosPreExtender h 0x21) s).filled := by
  have fn : dosFn (hiByte (s.scp.lword .eax)) = .setDta := by
    rw [show hiByte (s.scp.lword .eax) = 0x1a from ah]
    rfl
  have number : hiByte (s.scp.lword .eax) = 0x1a := ah
  have unlisted : needXbuf 0x21 (s.scp.lword .eax) = false := by
    simp [needXbuf, needCopyDseg, needCopyEseg, needXbufDos, number]
  have noDta : mirrorsDta 0x21 s = false := by simp [mirrorsDta, usesDta, number]
  obtain ⟨switched, left⟩ := switched_dos h fn unlisted noDta
  have outcome : s.outcome h 0x21 = .go false := left
  have down := filledFrom_pre h outcome (not_needCopyDseg unlisted) (not_needCopyEseg unlisted)
  rw [switched] at down
  refine ⟨?_, down⟩
  rw [result_pre, outcome]
  rfl

theorem dosSetDta_inside {s : State σ} (inside : inDosSpace h s s.given.selector s.given.offset = true) :
    (final (dosSetDta h) s).client.userDtaSel = 0 ∧ (final (dosSetDta h) s).mem = s.mem := by
  have branch : final (dosSetDta h) s = final (do
      setRmDs (loWord (getSegmentBase h s s.scp.ds >>> 4))
      setClient fun c => { c with userDtaSel := 0 }) s := by
    rw [dosSetDta, final_reads_bind, final_reads_bind, final_reads_bind,
      show inDosSpace h s s.scp.ds (s.d16_32 (s.scp.gpr .edx)) = true from inside]
    rfl
  rw [branch, final_bind, setClient, final_updates, State.client_withClient]
  exact ⟨rfl, rfl⟩

structure SetsOutside (s u : State σ) : Prop where
  selector : u.client.userDtaSel = s.given.selector
  offset : u.client.userDtaOff = s.given.offset
  ds : u.rmreg.ds = u.client.lowmemSeg + DTA_Para_ADD
  dx : u.handed .edx = some 0

theorem dosSetDta_outside {s : State σ}
    (outside : inDosSpace h s s.given.selector s.given.offset = false) :
    SetsOutside s (final (dosSetDta h) s) := by
  have branch : final (dosSetDta h) s = final (do
      let lowmem ← reads fun s => s.client.lowmemSeg
      setRmDs (lowmem + DTA_Para_ADD)
      setRmLword .edx 0
      let under ← reads dtaUnder1MB
      let above ← reads (dtaOver1MB h)
      memcpy under above 0x80)
        (s.withClient fun c => { c with userDtaSel := s.given.selector, userDtaOff := s.given.offset }) := by
    rw [dosSetDta, final_reads_bind, final_reads_bind, final_reads_bind,
      show inDosSpace h s s.scp.ds (s.d16_32 (s.scp.gpr .edx)) = false from outside]
    rfl
  rw [branch]
  have assigned := State.client_withClient
    (fun c => { c with userDtaSel := s.given.selector, userDtaOff := s.given.offset }) s
  generalize s.withClient _ = t at assigned
  rw [final_reads_bind]
  have client : (final (do
      setRmDs (t.client.lowmemSeg + DTA_Para_ADD)
      setRmLword .edx 0
      let under ← reads dtaUnder1MB
      let above ← reads (dtaOver1MB h)
      memcpy under above 0x80) t).client = t.client := rfl
  constructor
  · rw [client, assigned]
  · rw [client, assigned]
  · rw [client]
    rfl
  · exact handed_setRmLword .edx 0 _

/-! ## The record over a run -/

/-- The record has the pointer that the client set, and DOS the one to the DTA that stands for it. -/
def Recorded (outside : Option Pmaddr) (dos : Far) (s : State σ) : Prop :=
  match outside with
  | none => s.client.userDtaSel = 0
  | some d => s.client.userDtaSel = d.selector ∧ s.client.userDtaOff = d.offset ∧
      dos = ⟨0, s.client.lowmemSeg + DTA_Para_ADD⟩

theorem Recorded.of_dta {outside : Option Pmaddr} {dos : Far} {s t : State σ}
    (recorded : Recorded outside dos s) (same : t.client.dta = s.client.dta) : Recorded outside dos t := by
  have lowmem : t.client.lowmemSeg = s.client.lowmemSeg := congrArg Prod.fst same
  have selector : t.client.userDtaSel = s.client.userDtaSel := congrArg (fun d => d.2.1) same
  have offset : t.client.userDtaOff = s.client.userDtaOff := congrArg (fun d => d.2.2) same
  cases outside with
  | none => exact selector.trans recorded
  | some d =>
    obtain ⟨sel, off, dosDta⟩ := recorded
    exact ⟨selector.trans sel, offset.trans off, lowmem ▸ dosDta⟩

/-- Only the branch of 00h gives DOS an AX of its own. -/
theorem eax_kept {f : DosFn} (other : f ≠ .terminate) (al : Byte) : Gpr.eax ∉ f.replaces al := by
  cases f with
  | terminate => contradiction
  | redirection =>
    rw [DosFn.replaces, redirectionRegs]
    split
    · simp
    · exact List.not_mem_nil
  | lfn =>
    rw [DosFn.replaces, lfnRegs]
    split_ifs
    all_goals simp
  | _ => simp [DosFn.replaces]

theorem number_passed {s : State σ} (goes : result (msdosPreExtender h 0x21) s = .rm)
    (free : maskHas s.rMask (.gpr .eax) = false) :
    hiByte ((final (msdosPreExtender h 0x21) s).filled.rmreg.lword .eax) = 0x1a ↔ s.ah = 0x1a := by
  by_cases ends : dosFn s.ah = .terminate
  · have number : s.ah = 0x00 := dosFn_terminate ends
    have ax : (final (msdosPreExtender h 0x21) s).filled.rmreg.lword .eax = 0x4c00 := by
      apply down_set goes
      intro u act _
      have branch : preSwitch h 0x21 (s.scp.lword .eax) act = preDos h (dosFn s.ah) s.al := rfl
      rw [branch, ends]
      exact handed_setRmLword .eax 0x4c00 _
    rw [ax, number]
    decide
  · have own : s.brought .eax = none := if_neg (Bool.eq_false_iff.mp free)
    rw [down_word goes (eax_kept ends s.al), own]
    exact Iff.rfl

theorem dtaPart_book : Bookkeeping h (Keeps dtaPart) where
  call _ _ _ := rfl
  memory _ _ := rfl
  client _ own := dtaPart_setClient fun c => (congrArg MsdosStruct.dta (own c)).trans rfl
  ldt _ _ := rfl

theorem recorded_start {x : DtaRun σ} (start : DtaStart h x) : Recorded x.outside x.dosDta x.state := by
  obtain ⟨none, is32, mseg, s, state⟩ := start
  have book := dtaPart_book h
  have malloc : Moves (Keeps dtaPart) (msdosMalloc h rmcsSize) :=
    Moves.msdosMalloc (fun _ _ => rfl) (fun _ => dtaPart_setClient fun _ => rfl) _
  have rmcbs := book.initRmcbs is32 malloc fun _ _ _ _ _ => rfl
  have kept : dtaPart x.state = dtaPart (final (setClient fun _ =>
      { MsdosStruct.zero with is32 := is32, lowmemSeg := mseg }) { s with clientNum := s.clientNum + 1 }) := by
    rw [state, msdosInit, final_bind, final_bind, final_bind, final_bind]
    exact (book.initAliases _).trans ((rmcbs _).trans (book.convertEnv _))
  have selector : x.state.client.userDtaSel = 0 := by
    have part := congrArg (fun p => p.1.2.1) kept
    rw [setClient, final_updates] at part
    exact part.trans (congrArg MsdosStruct.userDtaSel (State.client_withClient _ _))
  rw [none]
  exact selector

theorem Recorded.called {x : DtaRun σ} {c : State σ} (recorded : Recorded x.outside x.dosDta x.state)
    (made : CalledFrom x.state c) : Recorded x.outside x.dosDta c := by
  apply recorded.of_dta
  rw [State.client, State.client, made.clients, made.clientNum]

theorem recorded_pre {outside : Option Pmaddr} {dos : Far} {s : State σ}
    (recorded : Recorded outside dos s) (goes : result (msdosPreExtender h 0x21) s = .rm)
    (free : maskHas s.rMask (.gpr .eax) = false) :
    Recorded (outsideAfter h s outside) (dosDtaAfter (final (msdosPreExtender h 0x21) s) dos)
      (final (msdosPreExtender h 0x21) s) := by
  by_cases ah : s.ah = 0x1a
  · obtain ⟨-, down⟩ := filled_setDta h ah
    have client : (final (msdosPreExtender h 0x21) s).client = (final (dosSetDta h) s.entered).client :=
      down.client
    rw [outsideAfter, if_pos ah, dosDtaAfter, if_pos ((number_passed h goes free).mpr ah)]
    cases inside : inDosSpace h s s.given.selector s.given.offset with
    | true =>
      have unset := (dosSetDta_inside h (s := s.entered) inside).1
      exact (congrArg MsdosStruct.userDtaSel client).trans unset
    | false =>
      have set := dosSetDta_outside h (s := s.entered) inside
      have dx : (final (msdosPreExtender h 0x21) s).filled.rmreg.lword .edx = 0 := by
        rw [down.words, set.dx]
        rfl
      refine ⟨(congrArg MsdosStruct.userDtaSel client).trans set.selector,
        (congrArg MsdosStruct.userDtaOff client).trans set.offset, ?_⟩
      rw [dx, down.ds, set.ds, client]
  · rw [outsideAfter, if_neg ah, dosDtaAfter, if_neg (mt (number_passed h goes free).mp ah)]
    exact recorded.of_dta (congrArg Prod.fst (dtaPart_pre h ah))

theorem recorded_step {x y : DtaRun σ} {c : DosCall σ} (recorded : Recorded x.outside x.dosDta x.state)
    (step : DtaStep h x c y) : Recorded y.outside y.dosDta y.state := by
  cases step with
  | served made goes serves =>
    have entered := recorded_pre h (recorded.called made) goes made.free
    apply entered.of_dta
    have answered := congrArg Prod.fst (dtaPart_post h 0x21 c.returned)
    refine answered.trans ?_
    show c.returned.client.dta = _
    rw [State.client, State.client, serves.clients, serves.clientNum]
  | ended made ends =>
    have other : c.called.ah ≠ 0x1a := fun ah => ends (filled_setDta h ah).1
    exact (recorded.called made).of_dta (congrArg Prod.fst (dtaPart_pre h other))

theorem Recorded.mirrored {x : DtaRun σ} (recorded : Recorded x.outside x.dosDta x.state) : x.Mirrored := by
  intro set
  obtain ⟨d, outside⟩ := Option.ne_none_iff_exists'.mp set
  rw [outside] at recorded
  rw [DtaRun.dosAddress, recorded.2.2]
  rfl

/-! ## The searches -/

theorem usesDta_cases {ah : Byte} (search : usesDta ah = true) :
    (ah = 0x11 ∨ ah = 0x12) ∨ ah = 0x4e ∨ ah = 0x4f := by
  simpa [usesDta, or_assoc] using search

theorem search_unsegmented {ax : Word} (search : usesDta (hiByte ax) = true) :
    needCopyDseg 0x21 ax = false ∧ needCopyEseg 0x21 ax = false := by
  have other : copiesSegment 0x21 ax = false := by
    apply Bool.eq_false_iff.mpr
    intro copied
    rw [(dosFn_copied (copiedDos_of_copies copied)).2] at search
    cases search
  exact Bool.or_eq_false_iff.mp other

theorem search_outcome {s : State σ} (search : usesDta s.ah = true) : s.outcome h 0x21 = .go false := by
  have branch : s.outcome h 0x21 = result (preDos h (dosFn s.ah) s.al) (s.atSwitch h 0x21) := rfl
  rw [branch]
  rcases usesDta_cases search with (ah | ah) | ah | ah
  all_goals rw [ah]; rfl

theorem search_goes {s : State σ} (search : usesDta s.ah = true) :
    result (msdosPreExtender h 0x21) s = .rm := by
  rw [result_pre, search_outcome h search]
  rfl

theorem final_copyFromDs (r : Gpr) (n : Nat) (s : State σ) : ∃ trace, final (copyFromDs h r n) s =
    { s with
      trace := trace
      mem := copy s.mem (segoff2linear s.emmSeg 0) (selAdrClnt h s s.scp.ds r) n } := by
  obtain ⟨trace, run⟩ := final_transBufferSeg_bind (fun seg => do
    let src ← reads fun s => selAdrClnt h s s.scp.ds r
    memcpy (segoff2linear seg 0) src n) s
  exact ⟨trace, run⟩

structure SearchSent (s t : State σ) : Prop where
  mem : AgreeOn (fun a => ∀ b ∈ s.searchSent h, ¬b.Covers a) (s.entryMem h) t.mem
  scp : t.scp = s.scp
  client : t.client = s.client
  base : ∀ sel, getSegmentBase h t sel = getSegmentBase h s sel

theorem searchSent_of {s v w t : State σ} (reached : Reached h s v) (down : FilledFrom w t.filled)
    (mem : AgreeOn (fun a => ∀ b ∈ s.searchSent h, ¬b.Covers a) (s.entryMem h) w.mem)
    (scp : w.scp = v.scp) (client : w.client = v.client) (host : w.host = v.host) : SearchSent h s t := by
  constructor
  · rw [← down.mem] at mem
    exact mem
  · exact down.scp.trans (scp.trans reached.scp)
  · exact down.client.trans (client.trans reached.client)
  · intro sel
    have same : t.host = v.host := down.host.trans host
    rw [← reached.base, getSegmentBase, same]
    rfl

theorem searchSent_pre (host : SteadyHost h) {s : State σ} (search : usesDta s.ah = true) :
    SearchSent h s (final (msdosPreExtender h 0x21) s) := by
  obtain ⟨dseg, eseg⟩ := search_unsegmented search
  have down : FilledFrom (final (preDos h (dosFn s.ah) s.al) (s.atSwitch h 0x21)) _ :=
    filledFrom_pre h (search_outcome h search) dseg eseg
  have reached := reached_atSwitch h host s
  generalize s.atSwitch h 0x21 = v at reached down
  rcases usesDta_cases search with fcb | ah | ah
  · have fn : dosFn s.ah = .fcb := by
      rcases fcb with ah | ah
      all_goals rw [ah]; rfl
    have blocks : s.searchSent h = [⟨segoff2linear s.emmSeg 0, 0x50⟩] := by
      rw [State.searchSent, if_pos (by simpa using fcb)]
    obtain ⟨trace, pass⟩ := final_passDs .edx v
    obtain ⟨trace', copied⟩ := final_copyFromDs h .edx 0x50 (final (passDs .edx) v)
    rw [fn, preDos, goOn, final_bind, final_pure, final_bind, copied, pass] at down
    apply searchSent_of h reached down
    · rw [blocks, ← reached.mem, ← reached.buffer]
      exact fun a outside => if_neg (outside _ (List.mem_singleton_self _))
    all_goals rfl
  · have one : pathRegs s.ah s.al = [.dsDx] := by rw [ah]; rfl
    have other : s.ah ≠ 0x4b := by
      rw [ah]
      decide
    have blocks : s.searchSent h = [(s.path h .dsDx).written] := by
      rw [State.searchSent, ah]
      rfl
    have branch : final (preDos h (dosFn s.ah) s.al) v =
        final (stringFromDs h .edx) (final (passDs .edx) v) := by
      rw [ah]
      rfl
    obtain ⟨trace, pass⟩ := final_passDs .edx v
    obtain ⟨trace', text⟩ := final_stringFromDs h .edx (final (passDs .edx) v)
    rw [branch, text, pass] at down
    apply searchSent_of h reached down
    · have source : (s.path h .dsDx).source = s.entryMem h := rfl
      have path : (s.path h .dsDx).copied =
          copyString v.mem (segoff2linear v.emmSeg 0) (selAdrClnt h v v.scp.ds .edx) := by
        rw [path_buffer h (r := .dsDx) (by decide) other, reached.mem, reached.buffer]
        exact congrArg (copyString _ _) (reached.path h .dsDx).symm
      rw [blocks, ← source]
      intro a outside
      exact (congrFun path a).symm.trans (StringCopy.copied_agree a (outside _ (List.mem_singleton_self _)))
    all_goals rfl
  · have branch : final (preDos h (dosFn s.ah) s.al) v = v := by
      rw [ah]
      rfl
    rw [branch] at down
    apply searchSent_of h reached down
    · rw [reached.mem]
      exact .refl _
    all_goals rfl

theorem covers_add (start : Dword) {i : Nat} (inside : i < 0x80) :
    (Block.mk start 0x80).Covers (start + BitVec.ofNat 32 i) := by
  rw [Block.Covers, offset_add start (by omega)]
  exact inside

theorem dosAddress_eq {d : Pmaddr} {dos : Far} {s : State σ} (recorded : Recorded (some d) dos s) :
    segoff2linear dos.segment dos.offset = dtaUnder1MB s := by
  rw [recorded.2.2]
  rfl

/-- A search copies the FCB back, and nothing else after the DTA. -/
theorem postSwitch_search {w : State σ} (search : usesDta w.ah = true) :
    AgreeOn (fun a => ∀ b ∈ w.searchFcb h, ¬b.Covers a) w.mem
      (final (postSwitch h 0x21 (w.scp.lword .eax)) w).mem := by
  have branch : postSwitch h 0x21 (w.scp.lword .eax) = postDos h (dosRet w.ah) w.al := rfl
  rw [branch]
  rcases usesDta_cases search with fcb | ah | ah
  · have ret : dosRet w.ah = .fcb := by
      rcases fcb with ah | ah
      all_goals rw [ah]; rfl
    have block : w.searchFcb h = [⟨selAdrClnt h w w.scp.ds .edx, 0x50⟩] := by
      rw [State.searchFcb, if_pos (by simpa using fcb)]
    rw [ret, block]
    exact fun a outside => if_neg (outside _ (List.mem_singleton_self _))
  · rw [ah]
    exact .refl _
  · rw [ah]
    exact .refl _

section Search

variable {h} {s : State σ} {d : Pmaddr} {dos : Far} (recorded : Recorded (some d) dos s)
  (apart : SearchApart h s d (segoff2linear dos.segment dos.offset))
include recorded apart

theorem dtaOver1MB_eq : dtaOver1MB h s = clientDta h s d := by
  rw [dtaOver1MB, recorded.1, recorded.2.1, selAdr, clientDta]
  split
  next gdt =>
    rw [apart.flat gdt]
    exact (BitVec.zero_add _).symm
  next ldt =>
    rw [selAdrLdt]
    rcases apart.offset ldt with is32 | small
    · rw [is32]
      rfl
    · split
      · rfl
      · have same : zext (loWord d.offset) = d.offset := by
          apply BitVec.eq_of_toNat_eq
          rw [zext, BitVec.toNat_setWidth, loWord_toNat]
          omega
        rw [same]

theorem search_mirrors (search : usesDta s.ah = true) : mirrorsDta 0x21 s = true := by
  have set : s.client.userDtaSel ≠ 0 := recorded.1 ▸ apart.set
  have uses : usesDta (hiByte (s.scp.lword .eax)) = true := search
  rw [mirrorsDta, uses, decide_eq_true set]
  rfl

/-- DOS sees the client's bytes. -/
theorem search_seen (host : SteadyHost h) (search : usesDta s.ah = true) :
    SameDta (final (msdosPreExtender h 0x21) s).mem (segoff2linear dos.segment dos.offset) s.mem
      (clientDta h s d) := by
  intro i inside
  have sent := (searchSent_pre h host search).mem
  have covered := covers_add (segoff2linear dos.segment dos.offset) inside
  rw [sent _ fun b listed overlaps => apart.sent b listed _ overlaps covered, State.entryMem,
    if_pos (search_mirrors recorded apart search), dosAddress_eq recorded,
    dtaOver1MB_eq recorded apart]
  exact copy_inside _ _ _ (by omega) inside

/-- The client gets DOS's bytes. -/
theorem search_brought (host : SteadyHost h) (search : usesDta s.ah = true) {dta : Far} {u : State σ}
    (serves : DosServes h dta (final (msdosPreExtender h 0x21) s) u) :
    SameDta (final (msdosPostExtender h 0x21) u).mem (clientDta h s d)
      (final (msdosPostExtender h 0x21) u).mem (segoff2linear dos.segment dos.offset) := by
  have sent := searchSent_pre h host search
  have other : s.ah ≠ 0x1a := by
    intro ah
    rw [ah] at search
    cases search
  have scp : u.scp = s.scp := serves.scp.trans sent.scp
  have client : u.client = s.client := by
    rw [State.client, serves.clients, serves.clientNum]
    exact sent.client
  have base (sel : Word) : getSegmentBase h u sel = getSegmentBase h s sel :=
    (serves.base sel).trans (sent.base sel)
  have is32 : u.clntIs32 = s.clntIs32 := serves.is32.trans (congrArg Prod.snd (dtaPart_pre h other))
  have again : usesDta u.ah = true := by
    rw [State.ah, scp]
    exact search
  have mirrors : mirrorsDta 0x21 u = true := by
    rw [mirrorsDta, client, scp]
    exact search_mirrors recorded apart search
  have above : dtaOver1MB h u = clientDta h s d := by
    rw [← dtaOver1MB_eq recorded apart, dtaOver1MB, dtaOver1MB, selAdr, selAdr, selAdrLdt, selAdrLdt,
      client, is32, base]
  have under : dtaUnder1MB u = segoff2linear dos.segment dos.offset := by
    rw [dosAddress_eq recorded, dtaUnder1MB, client]
    rfl
  obtain ⟨dseg, eseg⟩ := search_unsegmented again
  have copied := postCopies_unsegmented h dseg eseg
  rw [mirrors, above, under] at copied
  have fcb : (unpacked h 0x21 u).searchFcb h = s.searchFcb h := by
    rw [unpacked, copied]
    show u.searchFcb h = _
    rw [State.searchFcb, State.searchFcb, State.ah, scp,
      selAdrClnt_congr h base scp (congrArg MsdosStruct.is32 client)]
    rfl
  have number : usesDta (unpacked h 0x21 u).ah = true := by
    rw [unpacked, copied]
    exact again
  have fcbBack := postSwitch_search h number
  have ax : (unpacked h 0x21 u).scp.lword .eax = u.scp.lword .eax := by rw [unpacked, copied]
  have mem : (unpacked h 0x21 u).mem =
      copy u.mem (clientDta h s d) (segoff2linear dos.segment dos.offset) 0x80 := by
    rw [unpacked, copied]
    rfl
  rw [ax, fcb, mem, ← mem_post] at fcbBack
  intro i inside
  have own := covers_add (clientDta h s d) inside
  have below := covers_add (segoff2linear dos.segment dos.offset) inside
  have ownKept := fcbBack _ fun b listed overlaps => (apart.fcb b listed).2 _ overlaps own
  have belowKept := fcbBack _ fun b listed overlaps => (apart.fcb b listed).1 _ overlaps below
  calc (final (msdosPostExtender h 0x21) u).mem (clientDta h s d + BitVec.ofNat 32 i)
      = u.mem (segoff2linear dos.segment dos.offset + BitVec.ofNat 32 i) :=
        ownKept.trans (copy_inside _ _ _ (by omega) inside)
    _ = (final (msdosPostExtender h 0x21) u).mem
          (segoff2linear dos.segment dos.offset + BitVec.ofNat 32 i) :=
        (belowKept.trans (if_neg (apart.mirror.symm _ below))).symm

end Search

/-! ## The whole run -/

section Served

variable {h} {x y : DtaRun σ} {c : DosCall σ}

theorem outside_after (other : c.called.ah ≠ 0x1a) : (x.after h c).outside = x.outside := if_neg other

variable (step : DtaStep h x c y)
include step

theorem DtaStep.made : CalledFrom x.state c.called := by
  cases step with
  | served made _ _ => exact made
  | ended made _ => exact made

theorem DtaStep.serves (goes : result (msdosPreExtender h 0x21) c.called = .rm) :
    DosServes h (x.after h c).dosDta (final (msdosPreExtender h 0x21) c.called) c.returned := by
  cases step with
  | served _ _ serves => exact serves
  | ended _ ends => exact absurd goes ends

variable (recorded : Recorded x.outside x.dosDta x.state)
include recorded

theorem recorded_returned (goes : result (msdosPreExtender h 0x21) c.called = .rm) :
    Recorded (x.after h c).outside (x.after h c).dosDta c.returned := by
  have serves := step.serves goes
  apply (recorded_pre h (recorded.called step.made) goes step.made.free).of_dta
  rw [State.client, State.client, serves.clients, serves.clientNum]

omit recorded in
theorem number_returned (goes : result (msdosPreExtender h 0x21) c.called = .rm) :
    c.returned.ah = c.called.ah := by
  have kept : (final (msdosPreExtender h 0x21) c.called).scp.gpr .eax = c.called.scp.gpr .eax :=
    down_client goes (by simp)
  rw [State.ah, (step.serves goes).scp, Sigcontext.lword, kept]
  rfl

/-- 2Fh answers with the pointer that was set. -/
theorem getDta_served {d : Pmaddr} (outside : x.outside = some d) (ah : c.called.ah = 0x2f) :
    (final (msdosPostExtender h 0x21) c.returned).scp.es = d.selector ∧
      (final (msdosPostExtender h 0x21) c.returned).scp.gpr .ebx = d.offset := by
  have goes : result (msdosPreExtender h 0x21) c.called = .rm := by
    have call : ReturnedPointer.dta.ReturnedBy 0x21 (c.called.scp.lword .eax) c.called.rmreg := ⟨rfl, ah⟩
    exact (pre_pointer call).mpr nofun
  have number : c.returned.ah = 0x2f := (number_returned step goes).trans ah
  have other : c.called.ah ≠ 0x1a := by
    rw [ah]
    decide
  have after := recorded_returned step recorded goes
  rw [outside_after other, outside] at after
  obtain ⟨selector, offset, dosDta⟩ := after
  have atDos : (final (msdosPreExtender h 0x21) c.called).ah = 0x2f := by
    rw [← number, State.ah, State.ah, (step.serves goes).scp]
  obtain ⟨es, bx⟩ := (step.serves goes).getDta atDos
  have call : ReturnedPointer.dta.ReturnedBy 0x21 (c.returned.scp.lword .eax) c.returned.rmreg :=
    ⟨rfl, number⟩
  have own : IsOwnDta .dta c.returned := by
    refine ⟨rfl, ?_⟩
    rw [rmEsAdr, es, bx, dosDta]
    rfl
  rw [← selector, ← offset]
  exact post_ownDta call own

theorem untouched_served (outside : x.outside = none) :
    final (dtaCopyIn h 0x21) c.called = c.called ∧
      (result (msdosPreExtender h 0x21) c.called = .rm →
        final (dtaCopyOut h 0x21 (c.returned.scp.lword .eax)) c.returned = c.returned) := by
  constructor
  · have called := recorded.called step.made
    rw [outside] at called
    have unset : c.called.client.userDtaSel = 0 := called
    rw [dtaCopyIn, final_reads_bind, final_onlyIf, id, unset]
    rfl
  · intro goes
    have unmirrored : mirrorsDta 0x21 c.returned = false := by
      cases search : usesDta c.returned.ah with
      | false =>
        have uses : usesDta (hiByte (c.returned.scp.lword .eax)) = false := search
        rw [mirrorsDta, uses, Bool.and_false]
      | true =>
        rw [number_returned step goes] at search
        have other : c.called.ah ≠ 0x1a := by
          intro ah
          rw [ah] at search
          cases search
        have after := recorded_returned step recorded goes
        rw [outside_after other, outside] at after
        have unset : c.returned.client.userDtaSel = 0 := after
        rw [mirrorsDta, unset]
        rfl
    rw [dtaCopyOut, final_reads_bind, final_onlyIf]
    exact if_neg (Bool.not_eq_true _ ▸ unmirrored)

omit step recorded in
theorem unset_served {s : State σ} {before : Option Pmaddr} (unset : outsideAfter h s before = none)
    (ah : s.ah = 0x1a) : (final (msdosPreExtender h 0x21) s).mem = s.mem := by
  have inside : inDosSpace h s s.given.selector s.given.offset = true := by
    rw [outsideAfter, if_pos ah] at unset
    by_contra outside
    rw [if_neg outside] at unset
    cases unset
  obtain ⟨-, down⟩ := filled_setDta h ah
  exact down.mem.trans (dosSetDta_inside h (s := s.entered) inside).2

theorem dta_served (host : SteadyHost h) (apart : SearchesApart h x c) : DtaServed h x c := by
  have called := recorded.called step.made
  constructor
  · intro d outside ah
    exact getDta_served step recorded outside ah
  · intro d outside search
    rw [outside] at called
    exact search_seen called (apart d outside search) host search
  · intro d outside search
    rw [outside] at called
    have serves := step.serves (search_goes h search)
    exact search_brought called (apart d outside search) host search serves
  · exact untouched_served step recorded
  · exact unset_served

end Served

theorem recorded_of_run {past : List (DtaRun σ × DosCall σ)} {x : DtaRun σ}
    (run : Trace (DtaStart h) (DtaStep h) past x) : Recorded x.outside x.dosDta x.state := by
  induction run with
  | start first => exact recorded_start h first
  | step before taken ih => exact recorded_step h ih taken

/-- Whatever calls a client makes, DOS has its DTA below 1 MiB while the client has one outside of DOS
space; 2Fh answers with the client's, and searches that are apart show and bring its bytes. -/
theorem dta_coherent (host : SteadyHost h) {past : List (DtaRun σ × DosCall σ)} {x : DtaRun σ}
    (run : Trace (DtaStart h) (DtaStep h) past x) (apart : ∀ p ∈ past, SearchesApart h p.1 p.2) :
    x.Mirrored ∧ ∀ p ∈ past, p.1.Mirrored ∧ DtaServed h p.1 p.2 := by
  induction run with
  | start first => exact ⟨(recorded_start h first).mirrored, fun p inside => absurd inside List.not_mem_nil⟩
  | @step past x y c before taken ih =>
    have recorded := recorded_of_run h before
    have earlier := ih fun p inside => apart p (List.mem_cons_of_mem _ inside)
    refine ⟨(recorded_step h recorded taken).mirrored, fun p inside => ?_⟩
    rcases List.mem_cons.mp inside with rfl | inside
    · exact ⟨earlier.1, dta_served taken recorded host (apart _ List.mem_cons_self)⟩
    · exact earlier.2 p inside

/-! A client with a segment at 2 MiB, its FCB and its DTA in it where a PSP has them. -/

def dtaHost : State Bump := { bumpStart with host := ⟨0, fun _ => 0x200000⟩ }

def dtaClient : DtaRun Bump := ⟨final (msdosInit bumpHost true 0x8000) dtaHost, ⟨0, 0⟩, none⟩

def dtaCallOf (x : DtaRun Bump) (ax dx : Dword) (served : Memory → Memory) : DosCall Bump :=
  let called := { x.state with
    scp := { x.state.scp with
      ds := 0x107
      gpr := fun
        | .eax => ax
        | .edx => dx
        | _ => 0 }
    rMask := regBit .cs ||| regBit .eip }
  let reached := (final (msdosPreExtender bumpHost 0x21) called).filled
  ⟨called, { reached with mem := served reached.mem }⟩

theorem dtaCallOf_step (x : DtaRun Bump) (ax dx : Dword) (served : Memory → Memory)
    (goes : result (msdosPreExtender bumpHost 0x21) (dtaCallOf x ax dx served).called = .rm)
    (other : hiByte (loWord ax) ≠ 0x2f) :
    DtaStep bumpHost x (dtaCallOf x ax dx served) (x.after bumpHost (dtaCallOf x ax dx served)) := by
  have kept : (final (msdosPreExtender bumpHost 0x21) (dtaCallOf x ax dx served).called).scp.gpr .eax = ax :=
    down_client goes (by simp)
  refine .served ⟨rfl, rfl, ?_⟩ goes ⟨rfl, rfl, rfl, rfl, fun _ => rfl, fun getDta => ?_⟩
  · show maskHas (regBit .cs ||| regBit .eip) _ = false
    decide
  · rw [State.ah, Sigcontext.lword, kept] at getDta
    exact absurd getDta other

def dtaSetCall : DosCall Bump := dtaCallOf dtaClient 0x1a00 0x80 id

def dtaSet : DtaRun Bump := dtaClient.after bumpHost dtaSetCall

def dtaSearch (ax dx : Dword) : DosCall Bump := dtaCallOf dtaSet ax dx fun m => store m 0x80000 [1]

theorem dtaSearch_run (ax dx : Dword)
    (goes : result (msdosPreExtender bumpHost 0x21) (dtaSearch ax dx).called = .rm)
    (other : hiByte (loWord ax) ≠ 0x2f) :
    ∃ x, Trace (DtaStart bumpHost) (DtaStep bumpHost)
      [(dtaSet, dtaSearch ax dx), (dtaClient, dtaSetCall)] x := by
  have started : dtaClient.state = final (msdosInit bumpHost true 0x8000) dtaHost := by rw [dtaClient]
  have first : Trace (DtaStart bumpHost) (DtaStep bumpHost) [] dtaClient :=
    .start ⟨rfl, true, 0x8000, dtaHost, started⟩
  have sets : DtaStep bumpHost dtaClient dtaSetCall dtaSet :=
    dtaCallOf_step dtaClient 0x1a00 0x80 id (by decide +kernel) (by decide)
  exact ⟨_, .step (.step first sets) (dtaCallOf_step dtaSet ax dx _ goes other)⟩

theorem dtaSet_outside : dtaSet.outside = some ⟨0x80, 0x107⟩ := by decide +kernel

/-- A search for the next file shows DOS the client's DTA and brings back what was found. -/
theorem dta_coherent_next : DtaServed bumpHost dtaSet (dtaSearch 0x4f00 0) := by
  obtain ⟨x, run⟩ := dtaSearch_run 0x4f00 0 (by decide +kernel) (by decide)
  have apart : SearchApart bumpHost (dtaSearch 0x4f00 0).called ⟨0x80, 0x107⟩ dtaSet.dosAddress := by
    have own : clientDta bumpHost (dtaSearch 0x4f00 0).called ⟨0x80, 0x107⟩ = 0x200080 := by decide +kernel
    have dos : dtaSet.dosAddress = 0x80000 := by decide +kernel
    constructor
    · decide
    · decide
    · exact fun _ => .inl (by decide +kernel)
    · rw [own, dos]
      intro a inside covered
      simp only [Block.Covers, offset] at inside covered
      bv_omega
    · exact fun b listed => absurd listed List.not_mem_nil
    · exact fun b listed => absurd listed List.not_mem_nil
  have calls : ∀ p ∈ [(dtaSet, dtaSearch 0x4f00 0), (dtaClient, dtaSetCall)],
      SearchesApart bumpHost p.1 p.2 := by
    rintro p inside d outside search
    rcases List.mem_cons.mp inside with rfl | inside
    · obtain rfl := Option.some.inj (outside.symm.trans dtaSet_outside)
      exact apart
    · obtain rfl := List.mem_singleton.mp inside
      cases outside
  exact ((dta_coherent bumpHost steadyHost_bump run calls).2 _ List.mem_cons_self).2

/-- A search by FCB, the FCB 24h bytes below the DTA as in a PSP: its 50h bytes are copied back over the
first byte that DOS has found. -/
theorem dta_coherent_misses_fcb :
    ∃ past x, Trace (DtaStart bumpHost) (DtaStep bumpHost) past x ∧
      ∃ p ∈ past, ¬DtaServed bumpHost p.1 p.2 := by
  obtain ⟨x, run⟩ := dtaSearch_run 0x1100 0x5c (by decide +kernel) (by decide)
  refine ⟨_, x, run, (dtaSet, dtaSearch 0x1100 0x5c), List.mem_cons_self, fun served => ?_⟩
  have brought := served.brought _ dtaSet_outside (by decide +kernel) 0 (by decide)
  exact absurd brought (by decide +kernel)

end Pmdapi
