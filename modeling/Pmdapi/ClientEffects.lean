import Pmdapi.Clients

/-! What starting and ending a client may do, apart from its memory blocks. An effect is proved once of
the primitives below and so of every function made of them. -/

namespace Pmdapi
open Bytes Effect

def DpmiCall.isMemory : DpmiCall → Bool
  | .allocateMemory _ | .freeMemory _ | .resizeMemory _ _ => true
  | _ => false

/-- An assignment to the selectors and callbacks of a client. -/
def OwnFields (f : MsdosStruct → MsdosStruct) : Prop :=
  ∀ c, f c = { c with
    rmcbs := (f c).rmcbs
    rmcbSel := (f c).rmcbSel
    rmcbAlloced := (f c).rmcbAlloced
    ldtAlias := (f c).ldtAlias
    ldtAliasWinos2 := (f c).ldtAliasWinos2
    segSelMap := (f c).segSelMap }

variable {σ : Type} (h : DpmiHost σ)

/-- The effect of calls to the host, and of assignments to selectors and callbacks. -/
structure QuietBookkeeping (R : State σ → State σ → Prop) : Prop where
  call : ∀ c : DpmiCall, c.isMemory = false → @Moves (State σ) (no_index c.Reply) R (hostCall h c)
  client : ∀ f, OwnFields f → Moves R (setClient f : M σ Unit)
  ldt : ∀ sel, Moves R (updates fun s : State σ => { s with dpmiLdtAlias := sel })

structure Bookkeeping (R : State σ → State σ → Prop) : Prop extends QuietBookkeeping h R where
  memory : ∀ f, Moves R (setMem f : M σ Unit)

namespace QuietBookkeeping

variable {h} {R : State σ → State σ → Prop}

theorem freeDescriptor (book : QuietBookkeeping h R) (sel : Word) : Moves R (freeDescriptor h sel) :=
  book.call _ rfl

theorem setSegmentBaseAddress (book : QuietBookkeeping h R) (sel : Word) (base : Dword) :
    Moves R (setSegmentBaseAddress h sel base) := book.call _ rfl

theorem setSegmentLimit (book : QuietBookkeeping h R) (sel : Word) (limit : Dword) :
    Moves R (setSegmentLimit h sel limit) := book.call _ rfl

theorem setDescriptorAccessRights (book : QuietBookkeeping h R) (sel rights : Word) :
    Moves R (setDescriptorAccessRights h sel rights) := book.call _ rfl

variable [IsPreorder (State σ) R] (book : QuietBookkeeping h R)
include book

theorem allocateDescriptors (num : Nat) : Moves R (allocateDescriptors h num) :=
  Moves.bind (book.call _ rfl) fun _ => moves_pure _

theorem createAliasDescriptor (sel : Word) : Moves R (createAliasDescriptor h sel) :=
  Moves.bind (book.call _ rfl) fun _ => moves_pure _

theorem callbacksInit (sel : Word)
    (helper : ∀ handler arg ret num, Moves R (getPmcbHandler handler arg ret num : M σ Rmcb)) :
    Moves R (callbacksInit h sel) := by
  refine Moves.forM fun i _ => ?_
  unfold callbackInit
  refine Moves.bind (moves_reads _) fun arg => Moves.bind (helper _ _ _ _) fun entry => ?_
  refine Moves.bind (moves_reads _) fun regs => Moves.bind (book.call _ rfl) fun cbk => ?_
  exact book.client _ fun _ => rfl

theorem callbacksDone (cbks : Rmcb → Far) : Moves R (callbacksDone h cbks) :=
  Moves.forM fun _ _ => book.call _ rfl

theorem msdosLdtInit (num : Nat) : Moves R (msdosLdtInit h num) := by
  unfold Pmdapi.msdosLdtInit
  split
  · exact moves_reads _
  · refine Moves.bind (book.allocateDescriptors 1) fun sel => Moves.bind (book.ldt sel) fun _ => ?_
    split
    · exact moves_pure _
    · refine Moves.bind (book.setSegmentLimit _ _) fun _ => Moves.bind (moves_reads _) fun ptr => ?_
      exact Moves.bind (book.setSegmentBaseAddress _ _) fun _ => moves_pure _

theorem msdosLdtDone (num : Nat) : Moves R (msdosLdtDone h num) := by
  unfold Pmdapi.msdosLdtDone
  refine Moves.bind (moves_reads _) fun sel => Moves.onlyIf fun _ => ?_
  exact Moves.bind (book.ldt 0) fun _ => book.freeDescriptor sel

theorem initAliases : Moves R (initAliases h) := by
  unfold Pmdapi.initAliases
  refine Moves.bind (moves_reads _) fun num => Moves.bind (book.msdosLdtInit num) fun sel => ?_
  refine Moves.bind (book.client _ fun _ => rfl) fun _ => ?_
  refine Moves.bind (book.createAliasDescriptor sel) fun winos2 => ?_
  refine Moves.bind (book.client _ fun _ => rfl) fun _ => ?_
  exact Moves.bind (book.setDescriptorAccessRights _ _) fun _ => book.setSegmentLimit _ _

theorem freeSegSels (slots : List (Fin MAX_CNVS)) : Moves R (freeSegSels h slots) := by
  induction slots with
  | nil => exact moves_pure _
  | cons i rest ih =>
    unfold Pmdapi.freeSegSels
    refine Moves.bind (moves_reads _) fun m => Moves.onlyIf fun _ => ?_
    refine Moves.bind (book.freeDescriptor m.sel) fun _ => ?_
    exact Moves.bind (book.client _ fun _ => rfl) fun _ => ih

theorem msdosFreeDescriptors : Moves R (msdosFreeDescriptors h) :=
  Moves.bind (book.freeSegSels _) fun _ => Moves.bind (moves_reads _) fun _ => book.freeDescriptor _

theorem setupRmcbs (base : Dword)
    (helper : ∀ handler arg ret num, Moves R (getPmcbHandler handler arg ret num : M σ Rmcb)) :
    Moves R (setupRmcbs h base) := by
  unfold Pmdapi.setupRmcbs
  refine Moves.bind (book.allocateDescriptors 1) fun sel => ?_
  refine Moves.bind (book.client _ fun _ => rfl) fun _ => ?_
  refine Moves.bind (book.setSegmentBaseAddress _ _) fun _ => ?_
  refine Moves.bind (book.setSegmentLimit _ _) fun _ => ?_
  exact Moves.bind (book.callbacksInit sel helper) fun _ => book.client _ fun _ => rfl

theorem convertSegmentToDescriptorLim (segment : Word) (limit : Dword) :
    Moves R (convertSegmentToDescriptorLim h segment limit) := by
  unfold Pmdapi.convertSegmentToDescriptorLim
  refine Moves.bind (moves_reads _) fun map => ?_
  split
  · exact moves_pure _
  · refine Moves.ite (fun _ => moves_pure _) fun _ => Moves.bind (book.allocateDescriptors 1) fun sel => ?_
    refine Moves.ite (fun _ => moves_pure _) fun _ => ?_
    refine Moves.bind (book.setSegmentBaseAddress _ _) fun _ => ?_
    refine Moves.bind (book.setSegmentLimit _ _) fun _ => ?_
    refine Moves.bind (book.setDescriptorAccessRights _ _) fun _ => ?_
    exact Moves.bind (book.client _ fun _ => rfl) fun _ => moves_pure _

theorem initRmcbs (is32 : Bool) (malloc : Moves R (msdosMalloc h rmcsSize))
    (helper : ∀ handler arg ret num, Moves R (getPmcbHandler handler arg ret num : M σ Rmcb)) :
    Moves R (initRmcbs h is32) := by
  unfold Pmdapi.initRmcbs
  refine Moves.bind (moves_reads _) fun s => Moves.ite (fun _ => ?_) fun _ => ?_
  · exact Moves.bind malloc fun base => book.setupRmcbs base helper
  · exact book.client _ fun _ => rfl

end QuietBookkeeping

namespace Bookkeeping

variable {h} {R : State σ → State σ → Prop} [IsPreorder (State σ) R] (book : Bookkeeping h R)
include book

theorem writeEnvSel (sel : Word) : Moves R (writeEnvSel h sel) :=
  Moves.bind (moves_reads _) fun _ => book.memory _

theorem convertEnv : Moves R (convertEnv h) := by
  unfold Pmdapi.convertEnv
  refine Moves.bind (moves_reads _) fun envp => Moves.onlyIf fun _ => ?_
  exact Moves.bind (book.call _ rfl) fun sel => book.writeEnvSel _

theorem restoreEnv : Moves R (restoreEnv h) := by
  unfold Pmdapi.restoreEnv
  refine Moves.bind (moves_reads _) fun env => Moves.onlyIf fun _ => ?_
  exact Moves.bind (moves_reads _) fun base => book.writeEnvSel _

theorem doneDescriptors : Moves R (doneDescriptors h) := by
  refine Moves.bind (moves_reads _) fun c => Moves.bind (Moves.onlyIf fun _ => ?_) fun _ => ?_
  · exact Moves.bind (book.callbacksDone c.rmcbs) fun _ => book.freeDescriptor c.rmcbSel
  · refine Moves.bind book.restoreEnv fun _ => Moves.bind (moves_reads _) fun num => ?_
    exact Moves.bind (book.msdosLdtDone num) fun _ => book.msdosFreeDescriptors

end Bookkeeping

/-! ## Memory blocks -/

section Memory

variable {h} {R : State σ → State σ → Prop} [IsPreorder (State σ) R]
  (call : ∀ c : DpmiCall, @Moves (State σ) (no_index c.Reply) R (hostCall h c))
  (map : ∀ f, Moves R (setMemMap f : M σ Unit))
include call map

theorem Moves.msdosMalloc (size : Dword) : Moves R (msdosMalloc h size) := by
  unfold Pmdapi.msdosMalloc
  refine Moves.bind (Moves.bind (call _) fun _ => moves_pure _) fun block => ?_
  exact Moves.ite (fun _ => moves_pure _) fun _ => Moves.bind (map _) fun _ => moves_pure _

theorem Moves.msdosFreeMem : Moves R (msdosFreeMem h) := by
  refine Moves.forM fun i _ => ?_
  unfold freeSlotMem
  refine Moves.bind (moves_reads _) fun block => Moves.onlyIf fun _ => ?_
  exact Moves.bind (call _) fun _ => map _

end Memory

end Pmdapi
