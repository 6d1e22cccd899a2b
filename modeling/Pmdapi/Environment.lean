import Pmdapi.BumpHost
import Pmdapi.ClientEffects
import Pmdapi.Library.Trace
import Pmdapi.MemoryEffects

/-! The environment word of the PSPs: a segment for DOS, a selector for a running client. -/

namespace Pmdapi
open Bytes Effect

variable {σ : Type} (h : DpmiHost σ)

/-- A host whose descriptors for real-mode segments stay: `made b sel seg` says that `sel` is the one for
`seg`. -/
structure KeepsDescriptors (made : σ → Word → Word → Prop) : Prop where
  steady : SteadyHost h
  makes : ∀ seg b, seg ≠ 0 → made (h.perform (.segmentToDescriptor seg) b).2
    (loWord (h.perform (.segmentToDescriptor seg) b).1) seg
  stays : ∀ c b sel seg, made b sel seg → made (h.perform c b).2 sel seg
  base : ∀ b sel seg, made b sel seg → sel ≠ 0 ∧ h.getSegmentBaseAddress b sel = zext seg <<< 4

theorem segment_of_base (seg : Word) : loWord ((zext seg <<< 4) >>> 4) = seg := by
  apply BitVec.eq_of_toNat_eq
  simp only [loWord, zext, BitVec.toNat_setWidth, BitVec.toNat_ushiftRight, BitVec.toNat_shiftLeft]
  have := seg.isLt
  omega

theorem envBlock_apart {p q : Word} (different : p ≠ q) (a : Dword) (inside : (envBlock p).Covers a) :
    ¬ (envBlock q).Covers a := by
  simp only [envBlock, Block.Covers, offset, segoff2linear, zext] at inside ⊢
  have : p.toNat ≠ q.toNat := fun same => different (BitVec.eq_of_toNat_eq same)
  bv_omega

def envWord (m : Memory) (psp : Word) : Word := readWord m (segoff2linear psp 0x2c)

theorem envWord_self (m : Memory) (psp v : Word) :
    envWord (writeWord m (segoff2linear psp 0x2c) v) psp = v := readWord_writeWord _ _ _

theorem envWord_other (m : Memory) {p q : Word} (v : Word) (different : q ≠ p) :
    envWord (writeWord m (segoff2linear p 0x2c) v) q = envWord m q :=
  readWord_agree (P := (envBlock q).Covers) (writeWord_agree m (envBlock_apart different)) fun _ => id

/-! ## The two conversions -/

section Conversions

variable {h} (made : σ → Word → Word → Prop) (Q : Word → Prop)

variable (h) in
/-- Code that keeps the environment words of the PSPs in `Q`, the current PSP and the descriptors. -/
def KeepsWords (s t : State σ) : Prop :=
  dosGetPsp h t = dosGetPsp h s ∧ (∀ sel seg, made s.host sel seg → made t.host sel seg) ∧
    ∀ q, Q q → envWord t.mem q = envWord s.mem q

instance : IsPreorder (State σ) (KeepsWords h made Q) where
  refl _ := ⟨rfl, fun _ _ => id, fun _ _ => rfl⟩
  trans _ _ _ first second :=
    ⟨second.1.trans first.1, fun sel seg old => second.2.1 sel seg (first.2.1 sel seg old),
      fun q inside => (second.2.2 q inside).trans (first.2.2 q inside)⟩

structure HoldsSelector (s : State σ) (psp env : Word) : Prop where
  none : env = 0 → envWord s.mem psp = 0
  some : env ≠ 0 → made s.host (envWord s.mem psp) env

variable (h) in
structure ToSegment (s t : State σ) : Prop where
  keeps : KeepsWords h made (fun q => Q q ∧ q ≠ dosGetPsp h s) s t
  word : ∀ env, HoldsSelector made s (dosGetPsp h s) env → envWord t.mem (dosGetPsp h s) = env

variable (h) in
structure ToSelector (s t : State σ) : Prop where
  keeps : KeepsWords h made (fun q => Q q ∧ q ≠ dosGetPsp h s) s t
  word : ∀ env, envWord s.mem (dosGetPsp h s) = env → HoldsSelector made t (dosGetPsp h s) env

variable {made Q}

theorem KeepsWords.weaken {s t : State σ} {Q' : Word → Prop} (keeps : KeepsWords h made Q s t)
    (sub : ∀ q, Q' q → Q q) : KeepsWords h made Q' s t :=
  ⟨keeps.1, keeps.2.1, fun q inside => keeps.2.2 q (sub q inside)⟩

theorem HoldsSelector.kept {s t : State σ} {psp env : Word} (holds : HoldsSelector made s psp env)
    (keeps : KeepsWords h made Q s t) (inside : Q psp) : HoldsSelector made t psp env := by
  constructor
  · intro none
    rw [keeps.2.2 psp inside]
    exact holds.none none
  · intro some
    rw [keeps.2.2 psp inside]
    exact keeps.2.1 _ _ (holds.some some)

theorem ToSegment.around {s u v t : State σ} (own : Q (dosGetPsp h s)) (before : KeepsWords h made Q s u)
    (turn : ToSegment h made Q u v) (after : KeepsWords h made Q v t) : ToSegment h made Q s t := by
  obtain ⟨keeps, word⟩ := turn
  rw [before.1] at keeps word
  refine ⟨IsTrans.trans _ _ _ (before.weaken fun _ => And.left)
    (IsTrans.trans _ _ _ keeps (after.weaken fun _ => And.left)), fun env holds => ?_⟩
  rw [after.2.2 _ own]
  exact word env (holds.kept before own)

theorem ToSelector.around {s u v t : State σ} (own : Q (dosGetPsp h s)) (before : KeepsWords h made Q s u)
    (turn : ToSelector h made Q u v) (after : KeepsWords h made Q v t) : ToSelector h made Q s t := by
  obtain ⟨keeps, word⟩ := turn
  rw [before.1] at keeps word
  refine ⟨IsTrans.trans _ _ _ (before.weaken fun _ => And.left)
    (IsTrans.trans _ _ _ keeps (after.weaken fun _ => And.left)), fun env holds => ?_⟩
  exact (word env ((before.2.2 _ own).trans holds)).kept after own

theorem restoreEnv_word (s : State σ) (some : getEnvSel h s ≠ 0) :
    final (restoreEnv h) s =
      { s with
        mem := writeWord s.mem (segoff2linear (dosGetPsp h s) 0x2c)
          (loWord (getSegmentBase h s (getEnvSel h s) >>> 4)) } := by
  rw [restoreEnv, final_reads_bind, final_onlyIf, if_pos (decide_eq_true some)]
  rfl

theorem toSegment_restoreEnv (host : KeepsDescriptors h made) (s : State σ) :
    ToSegment h made Q s (final (restoreEnv h) s) := by
  by_cases some : getEnvSel h s ≠ 0
  · rw [restoreEnv_word s some]
    refine ⟨⟨rfl, fun _ _ => id, fun q inside => envWord_other _ _ inside.2⟩, fun env holds => ?_⟩
    refine (envWord_self _ _ _).trans ?_
    have nonzero : env ≠ 0 := fun zero => some (holds.none zero)
    have base : getSegmentBase h s (getEnvSel h s) = zext env <<< 4 :=
      (host.base _ _ _ (holds.some nonzero)).2
    rw [base, segment_of_base]
  · rw [restoreEnv, final_reads_bind, final_onlyIf, if_neg (by simpa using some)]
    refine ⟨refl s, fun env holds => ?_⟩
    have word : getEnvSel h s = 0 := not_not.mp some
    change envWord s.mem (dosGetPsp h s) = 0 at word
    by_cases zero : env = 0
    · rw [word, zero]
    · exact absurd word (host.base _ _ _ (holds.some zero)).1

theorem toSelector_convertEnv (host : KeepsDescriptors h made) (s : State σ) :
    ToSelector h made Q s (final (convertEnv h) s) := by
  rw [convertEnv, final_reads_bind, final_onlyIf]
  split
  next some =>
    have nonzero : getEnvSel h s ≠ 0 := of_decide_eq_true some
    have psp := host.steady.psp (.segmentToDescriptor (getEnvSel h s)) s.host
    rw [convertSegmentToDescriptor, final_bind, writeEnvSel, final_reads_bind]
    have same : dosGetPsp h (final (hostCall h (.segmentToDescriptor (getEnvSel h s))) s) = dosGetPsp h s :=
      psp
    rw [same]
    refine ⟨⟨same, host.stays _ _, fun q inside => envWord_other _ _ inside.2⟩, ?_⟩
    rintro _ rfl
    refine ⟨fun zero => absurd zero nonzero, fun _ => ?_⟩
    show made _ (envWord (writeWord s.mem _ _) _) _
    rw [envWord_self]
    exact host.makes _ _ nonzero
  next none =>
    refine ⟨refl s, ?_⟩
    rintro _ rfl
    have word : getEnvSel h s = 0 := by simpa using none
    change envWord s.mem (dosGetPsp h s) = 0 at word
    exact ⟨fun _ => word, fun some => absurd word some⟩

/-! ## The four functions -/

theorem keepsWords_hostCall (host : KeepsDescriptors h made) (c : DpmiCall) :
    @Moves (State σ) (no_index c.Reply) (KeepsWords h made Q) (hostCall h c) :=
  fun s => ⟨host.steady.psp c s.host, host.stays c s.host, fun _ _ => rfl⟩

theorem bookkeeping_words (host : KeepsDescriptors h made) : QuietBookkeeping h (KeepsWords h made Q) where
  call c _ := keepsWords_hostCall host c
  client _ _ := fun _ => ⟨rfl, fun _ _ => id, fun _ _ => rfl⟩
  ldt _ := fun _ => ⟨rfl, fun _ _ => id, fun _ _ => rfl⟩

theorem quiet_words (host : KeepsDescriptors h made) : QuietEffect h (KeepsWords h made Q) where
  call c _ _ := keepsWords_hostCall host c
  client _ _ := fun _ => ⟨rfl, fun _ _ => id, fun _ _ => rfl⟩
  segments _ _ := fun _ => ⟨rfl, fun _ _ => id, fun _ _ => rfl⟩
  rmDs _ := fun _ => ⟨rfl, fun _ _ => id, fun _ _ => rfl⟩
  rmEs _ := fun _ => ⟨rfl, fun _ _ => id, fun _ _ => rfl⟩
  target _ _ := fun _ => ⟨rfl, fun _ _ => id, fun _ _ => rfl⟩
  targetKept := fun _ => ⟨rfl, fun _ _ => id, fun _ _ => rfl⟩
  frame _ _ _ := fun _ => ⟨rfl, fun _ _ => id, fun _ _ => rfl⟩
  table _ := fun _ => ⟨rfl, fun _ _ => id, fun _ _ => rfl⟩
  keepOther _ _ := fun _ => ⟨rfl, fun _ _ => id, fun _ _ => rfl⟩

theorem keepsWords_setMemMap (f : MemMap → MemMap) :
    Moves (KeepsWords h made Q) (setMemMap f : M σ Unit) := fun _ => ⟨rfl, fun _ _ => id, fun _ _ => rfl⟩

theorem toSelector_msdosInit (host : KeepsDescriptors h made) (is32 : Bool) (mseg : Word) {s : State σ}
    (own : Q (dosGetPsp h s)) : ToSelector h made Q s (final (msdosInit h is32 mseg) s) := by
  have book := bookkeeping_words (Q := Q) host
  have malloc := Moves.msdosMalloc (keepsWords_hostCall (Q := Q) host) keepsWords_setMemMap rmcsSize
  have helper (handler : OpsHandler) (arg : Option ClientRef) (ret : OpsHandler) (num : Rmcb) :
      Moves (KeepsWords h made Q) (getPmcbHandler handler arg ret num : M σ Rmcb) :=
    Moves.bind (fun _ => ⟨rfl, fun _ _ => id, fun _ _ => rfl⟩) fun _ => moves_pure _
  have rest : Moves (KeepsWords h made Q) (initRmcbs h is32 >>= fun _ => initAliases h) :=
    Moves.bind (book.initRmcbs is32 malloc helper) fun _ => book.initAliases
  have enter (f : MsdosStruct → MsdosStruct) : KeepsWords h made Q s (final (setClient f)
      (final (updates fun s : State σ => { s with clientNum := s.clientNum + 1 }) s)) :=
    ⟨rfl, fun _ _ => id, fun _ _ => rfl⟩
  rw [msdosInit, final_bind, final_bind, final_bind]
  exact .around own (enter _) (toSelector_convertEnv host _) (rest _)

theorem toSegment_msdosDone (host : KeepsDescriptors h made) {s : State σ} (own : Q (dosGetPsp h s)) :
    ToSegment h made Q s (final (msdosDone h) s) := by
  have book := bookkeeping_words (Q := Q) host
  have callbacks (c : MsdosStruct) : Moves (KeepsWords h made Q) (onlyIf c.rmcbAlloced (do
      callbacksDone h c.rmcbs
      freeDescriptor h c.rmcbSel)) :=
    Moves.onlyIf fun _ => Moves.bind (book.callbacksDone _) fun _ => book.freeDescriptor _
  have descriptors (u : State σ) : KeepsWords h made Q u (final (do
      let num ← reads State.clientNum
      msdosLdtDone h num
      msdosFreeDescriptors h) u) :=
    Moves.bind (moves_reads _) (fun num => Moves.bind (book.msdosLdtDone num) fun _ =>
      book.msdosFreeDescriptors) u
  have memory := Moves.msdosFreeMem (h := h) (keepsWords_hostCall (Q := Q) host) keepsWords_setMemMap
  have turned : ToSegment h made Q s (final (doneDescriptors h) s) := by
    rw [doneDescriptors, final_reads_bind, final_bind, final_bind]
    exact .around own (callbacks _ _) (toSegment_restoreEnv host _) (descriptors _)
  rw [msdosDone, final_bind]
  refine .around own (refl s) turned ?_
  rw [final_bind]
  refine IsTrans.trans _ _ _ (memory _) ?_
  generalize final (msdosFreeMem h) _ = u
  exact ⟨rfl, fun _ _ => id, fun _ _ => rfl⟩

def EnvBytes (Q : Word → Prop) (a : Dword) : Prop := ∃ q, Q q ∧ (envBlock q).Covers a

theorem keepsWords_fillExec (host : KeepsDescriptors h made) {s : State σ}
    (clear : Clear (EnvBytes Q) (nameBlock h s :: execBlocks s.client.lowmemSeg)) :
    KeepsWords h made Q s (final (fillExec h) s) := by
  have area : Clear (EnvBytes Q) (nameBlock h s :: execBlocks (s.places h).lowmem) := clear
  obtain ⟨places, -, -, agree⟩ := spares_fillExec host.steady area rfl
  refine ⟨congrArg Places.psp places, host.stays .getStateSaveRestoreAddr s.host, fun q inside => ?_⟩
  exact readWord_agree agree fun a covered => ⟨q, inside, covered⟩

/-- Once the environment is DOS's again, starting a program changes no environment word. -/
theorem keepsWords_afterExec (host : KeepsDescriptors h made) {s : State σ}
    (exec : hiByte (s.scp.lword .eax) = 0x4b) :
    KeepsWords h made Q (final (restoreEnv h) (final (fillExec h) s.entered))
      (final (msdosPreExtender h 0x21) s) := by
  have quiet := quiet_words (Q := Q) host
  have unlisted := needXbuf_exec exec
  have noDta : ((0x21 : Nat) = 0x21 && usesDta (hiByte (s.scp.lword .eax))) = false := by
    rw [exec]
    rfl
  have branch : preSwitch h 0x21 (s.scp.lword .eax) false = goOn (dosExec h) true := by
    rw [preSwitch, exec]
    rfl
  have keeps := unmapped_preSwitch h 0x21 false unlisted s.entered
  rw [branch] at keeps
  have finish : KeepsWords h made Q (final (goOn (dosExec h) true) s.entered)
      (final (preLeave h 0x21 (.go true)) (final (goOn (dosExec h) true) s.entered)) := by
    have listed : needXbuf 0x21 ((final (goOn (dosExec h) true) s.entered).scp.lword .eax) = false := by
      rw [Sigcontext.lword, keeps.2 true rfl]
      exact unlisted
    generalize final (goOn (dosExec h) true) s.entered = t at listed
    rw [preLeave, final_bind, preFinish, final_bind, final_bind, copyDsegIn_unlisted h listed,
      copyEsegIn_unlisted h listed]
    exact ⟨rfl, fun _ _ => id, fun _ _ => rfl⟩
  have jump (rma : Far) : Moves (KeepsWords h made Q) (do
      let flags ← reads fun s => loWord s.scp.eflags
      rmDoIntTo flags rma.segment rma.offset) :=
    Moves.bind (moves_reads _) fun flags => quiet.rmDoIntTo _ _ _
  rw [preExtender_eq h unlisted noDta, branch, final_bind]
  exact IsTrans.trans _ _ _ (jump _ _) finish

theorem toSegment_pre (host : KeepsDescriptors h made) {s : State σ} (own : Q (dosGetPsp h s))
    (exec : hiByte (s.scp.lword .eax) = 0x4b)
    (clear : Clear (EnvBytes Q) (nameBlock h s :: execBlocks s.client.lowmemSeg)) :
    ToSegment h made Q s (final (msdosPreExtender h 0x21) s) := by
  have enter : KeepsWords h made Q s (final (fillExec h) s.entered) :=
    keepsWords_fillExec (s := s.entered) host clear
  exact .around own enter (toSegment_restoreEnv host _) (keepsWords_afterExec host exec)

theorem toSelector_post (host : KeepsDescriptors h made) {s : State σ} (own : Q (dosGetPsp h s))
    (exec : hiByte (s.scp.lword .eax) = 0x4b) :
    ToSelector h made Q s (final (msdosPostExtender h 0x21) s) := by
  have unlisted := needXbuf_exec exec
  have mirrors : mirrorsDta 0x21 s = false := by
    rw [mirrorsDta, exec, Bool.and_assoc]
    exact Bool.and_false _
  have branch : postSwitch h 0x21 (s.scp.lword .eax) = convertEnv h := by
    rw [postSwitch, exec]
    rfl
  have before : KeepsWords h made Q s (final (postCopies h 0x21 (s.scp.lword .eax)) s) := by
    rw [postCopies_unsegmented h (not_needCopyDseg unlisted) (not_needCopyEseg unlisted), mirrors]
    exact ⟨rfl, fun _ _ => id, fun _ _ => rfl⟩
  have last : Moves (KeepsWords h made Q) (postRegs : M σ Unit) :=
    fun _ => ⟨rfl, fun _ _ => id, fun _ _ => rfl⟩
  rw [msdosPostExtender, final_reads_bind, final_bind, final_bind, final_bind, unlisted, branch]
  exact .around own before (toSelector_convertEnv host _) (last _)

end Conversions

/-! ## Runs -/

/-- A client with its PSP, its environment before `msdos_init`, and whether one of its EXECs is under
way. -/
structure EnvClient where
  psp : Word
  env : Word
  inExec : Bool

/-- The state, the clients that live, the innermost first, and those that ended. -/
structure Nest (σ : Type) where
  state : State σ
  live : List EnvClient
  ended : List EnvClient

variable {h} {made : σ → Word → Word → Prop}

def Nest.running (n : Nest σ) : Option EnvClient :=
  match n.live with
  | [] => none
  | c :: _ => if c.inExec then none else some c

def Nest.psps (n : Nest σ) : List Word := (n.live ++ n.ended).map EnvClient.psp

inductive EnvMove where
  | init (is32 : Bool) (mseg : Word)
  | exec
  | ret
  | done
  | world
  deriving DecidableEq

variable (h made) in
/-- A step of a well-nested run. A client starts when none lives or inside an EXEC, with a PSP of its own;
it starts programs, and ends, only under its own PSP. Between the calls the client's code, the program
started and DOS leave the environment words alone; DOS sets the current PSP, and takes back PSPs of
clients that ended. -/
inductive EnvStep : Nest σ → EnvMove → Nest σ → Prop where
  | init (n : Nest σ) (is32 : Bool) (mseg : Word) (inside : n.running = none)
    (own : dosGetPsp h n.state ∉ n.psps) :
    EnvStep n (.init is32 mseg) ⟨final (msdosInit h is32 mseg) n.state,
      ⟨dosGetPsp h n.state, envWord n.state.mem (dosGetPsp h n.state), false⟩ :: n.live, n.ended⟩
  | exec (s : State σ) (c : EnvClient) (rest ended : List EnvClient) (running : c.inExec = false)
    (current : dosGetPsp h s = c.psp) (exec : hiByte (s.scp.lword .eax) = 0x4b) :
    EnvStep ⟨s, c :: rest, ended⟩ .exec
      ⟨final (msdosPreExtender h 0x21) s, { c with inExec := true } :: rest, ended⟩
  | ret (s : State σ) (c : EnvClient) (rest ended : List EnvClient) (inExec : c.inExec = true)
    (current : dosGetPsp h s = c.psp) (exec : hiByte (s.scp.lword .eax) = 0x4b) :
    EnvStep ⟨s, c :: rest, ended⟩ .ret
      ⟨final (msdosPostExtender h 0x21) s, { c with inExec := false } :: rest, ended⟩
  | done (s : State σ) (c : EnvClient) (rest ended : List EnvClient) (running : c.inExec = false)
    (current : dosGetPsp h s = c.psp) :
    EnvStep ⟨s, c :: rest, ended⟩ .done ⟨final (msdosDone h) s, rest, c :: ended⟩
  | world (n : Nest σ) (t : State σ) (ended : List EnvClient) (fewer : ended.Sublist n.ended)
    (keeps : ∀ c ∈ n.live ++ ended, envWord t.mem c.psp = envWord n.state.mem c.psp)
    (stays : ∀ sel seg, made n.state.host sel seg → made t.host sel seg) :
    EnvStep n .world ⟨t, n.live, ended⟩

variable (h) in
/-- No EXEC is made with a program's name that reaches, from the exec area, an environment word. -/
def EnvRight (n : Nest σ) (move : EnvMove) : Prop :=
  move = .exec → Clear (EnvBytes (· ∈ n.psps))
    (nameBlock h n.state :: execBlocks n.state.client.lowmemSeg)

variable (made) in
def EnvClient.Right (s : State σ) (c : EnvClient) : Prop :=
  if c.inExec then envWord s.mem c.psp = c.env else HoldsSelector made s c.psp c.env

variable (made) in
structure NestRight (n : Nest σ) : Prop where
  apart : n.psps.Nodup
  live : ∀ c ∈ n.live, c.Right made n.state
  ended : ∀ c ∈ n.ended, envWord n.state.mem c.psp = c.env

theorem EnvClient.Right.kept {s t : State σ} {c : EnvClient} (right : c.Right made s)
    (word : envWord t.mem c.psp = envWord s.mem c.psp)
    (stays : ∀ sel seg, made s.host sel seg → made t.host sel seg) : c.Right made t := by
  unfold EnvClient.Right at right ⊢
  split
  next busy =>
    rw [if_pos busy] at right
    rw [word]
    exact right
  next running =>
    rw [if_neg running] at right
    constructor
    · intro none
      rw [word]
      exact right.none none
    · intro some
      rw [word]
      exact stays _ _ (right.some some)

theorem EnvClient.Right.holds {s : State σ} {c : EnvClient} (right : c.Right made s)
    (running : c.inExec = false) : HoldsSelector made s c.psp c.env := by
  rw [EnvClient.Right, running] at right
  exact right

theorem EnvClient.Right.segment {s : State σ} {c : EnvClient} (right : c.Right made s)
    (inExec : c.inExec = true) : envWord s.mem c.psp = c.env := by
  rw [EnvClient.Right, if_pos inExec] at right
  exact right

/-- A call under the PSP of `c` leaves the words of the others alone. -/
theorem NestRight.others {s t : State σ} {c : EnvClient} {rest ended : List EnvClient}
    (right : NestRight made ⟨s, c :: rest, ended⟩)
    (keeps : KeepsWords h made (fun q => q ∈ (c :: rest ++ ended).map EnvClient.psp ∧ q ≠ c.psp) s t) :
    (∀ d ∈ rest, d.Right made t) ∧ ∀ d ∈ ended, envWord t.mem d.psp = d.env := by
  have fresh : c.psp ∉ (rest ++ ended).map EnvClient.psp := (List.nodup_cons.mp right.apart).1
  have word (d : EnvClient) (inside : d ∈ rest ++ ended) : envWord t.mem d.psp = envWord s.mem d.psp := by
    apply keeps.2.2
    refine ⟨List.mem_cons_of_mem _ (List.mem_map_of_mem inside), fun same => fresh ?_⟩
    rw [← same]
    exact List.mem_map_of_mem inside
  constructor
  · intro d inside
    exact (right.live d (List.mem_cons_of_mem _ inside)).kept
      (word d (List.mem_append_left _ inside)) keeps.2.1
  · intro d inside
    rw [word d (List.mem_append_right _ inside)]
    exact right.ended d inside

theorem nestRight_step (host : KeepsDescriptors h made) {n m : Nest σ} {move : EnvMove}
    (right : NestRight made n) (taken : EnvStep h made n move m) (apart : EnvRight h n move) :
    NestRight made m := by
  cases taken with
  | init _ is32 mseg inside own =>
    have turned : ToSelector h made (· ∈ dosGetPsp h n.state :: n.psps) n.state
        (final (msdosInit h is32 mseg) n.state) := toSelector_msdosInit host is32 mseg List.mem_cons_self
    have word (d : EnvClient) (inside : d ∈ n.live ++ n.ended) :
        envWord (final (msdosInit h is32 mseg) n.state).mem d.psp = envWord n.state.mem d.psp := by
      apply turned.keeps.2.2
      refine ⟨List.mem_cons_of_mem _ (List.mem_map_of_mem inside), fun same => own ?_⟩
      rw [← same]
      exact List.mem_map_of_mem inside
    refine ⟨List.nodup_cons.mpr ⟨own, right.apart⟩, fun d inside => ?_, fun d inside => ?_⟩
    · rcases List.mem_cons.mp inside with rfl | inside
      · exact turned.word _ rfl
      · exact (right.live d inside).kept (word d (List.mem_append_left _ inside)) turned.keeps.2.1
    · rw [word d (List.mem_append_right _ inside)]
      exact right.ended d inside
  | exec s c rest ended running current exec =>
    have turned : ToSegment h made (· ∈ (c :: rest ++ ended).map EnvClient.psp) s
        (final (msdosPreExtender h 0x21) s) :=
      toSegment_pre host (by rw [current]; exact List.mem_cons_self) exec (apart rfl)
    obtain ⟨keeps, word⟩ := turned
    rw [current] at keeps word
    obtain ⟨others, gone⟩ := right.others keeps
    have own : HoldsSelector made s c.psp c.env := (right.live c List.mem_cons_self).holds running
    refine ⟨right.apart, fun d inside => ?_, gone⟩
    rcases List.mem_cons.mp inside with rfl | inside
    · exact word _ own
    · exact others d inside
  | ret s c rest ended inExec current exec =>
    have turned : ToSelector h made (· ∈ (c :: rest ++ ended).map EnvClient.psp) s
        (final (msdosPostExtender h 0x21) s) :=
      toSelector_post host (by rw [current]; exact List.mem_cons_self) exec
    obtain ⟨keeps, word⟩ := turned
    rw [current] at keeps word
    obtain ⟨others, gone⟩ := right.others keeps
    have own : envWord s.mem c.psp = c.env := (right.live c List.mem_cons_self).segment inExec
    refine ⟨right.apart, fun d inside => ?_, gone⟩
    rcases List.mem_cons.mp inside with rfl | inside
    · exact word _ own
    · exact others d inside
  | done s c rest ended running current =>
    have turned : ToSegment h made (· ∈ (c :: rest ++ ended).map EnvClient.psp) s
        (final (msdosDone h) s) :=
      toSegment_msdosDone host (by rw [current]; exact List.mem_cons_self)
    obtain ⟨keeps, word⟩ := turned
    rw [current] at keeps word
    obtain ⟨others, gone⟩ := right.others keeps
    have own : HoldsSelector made s c.psp c.env := (right.live c List.mem_cons_self).holds running
    have segment : envWord (final (msdosDone h) s).mem c.psp = c.env := word _ own
    generalize final (msdosDone h) s = t at others gone segment
    refine ⟨?_, others, fun d inside => ?_⟩
    · have moved : ((c :: rest) ++ ended).Perm (rest ++ c :: ended) := List.perm_middle.symm
      exact (moved.map EnvClient.psp).nodup right.apart
    · rcases List.mem_cons.mp inside with rfl | inside
      · exact segment
      · exact gone d inside
  | world _ t ended fewer keeps stays =>
    refine ⟨?_, fun d inside => ?_, fun d inside => ?_⟩
    · exact ((List.Sublist.append_left fewer n.live).map EnvClient.psp).nodup right.apart
    · exact (right.live d inside).kept (keeps d (List.mem_append_left _ inside)) stays
    · rw [keeps d (List.mem_append_right _ inside)]
      exact right.ended d (fewer.subset inside)

variable (h) in
def NoClientYet (n : Nest σ) : Prop := n.live = [] ∧ n.ended = []

/-- In a well-nested run the environment word of a client is a selector for its environment while the
client runs, the environment's segment during its EXECs and after its end, and 0 if there is none. -/
theorem environment_word (host : KeepsDescriptors h made) {past : List (Nest σ × EnvMove)} {n : Nest σ}
    (run : Trace NoClientYet (EnvStep h made) past n) (right : ∀ p ∈ past, EnvRight h p.1 p.2) :
    (∀ c ∈ n.live, c.inExec = true → envWord n.state.mem c.psp = c.env) ∧
      (∀ c ∈ n.ended, envWord n.state.mem c.psp = c.env) ∧
      ∀ c ∈ n.live, c.inExec = false →
        if c.env = 0 then envWord n.state.mem c.psp = 0
        else envWord n.state.mem c.psp ≠ 0 ∧
          getSegmentBase h n.state (envWord n.state.mem c.psp) = zext c.env <<< 4 := by
  have kept : NestRight made n := by
    have step (n l m) (here : NestRight made n) (taken : EnvStep h made n l m) (apart : EnvRight h n l) :
        NestRight made m := nestRight_step host here taken apart
    refine Trace.invariant ?_ step run right
    rintro ⟨s, live, ended⟩ ⟨none, noneEnded⟩
    cases none
    cases noneEnded
    exact ⟨List.nodup_nil, fun c inside => absurd inside List.not_mem_nil,
      fun c inside => absurd inside List.not_mem_nil⟩
  refine ⟨fun c inside => (kept.live c inside).segment, kept.ended, fun c inside running => ?_⟩
  · have own := (kept.live c inside).holds running
    split
    next none => exact own.none none
    next some => exact host.base _ _ _ (own.some some)

/-! ## A host that keeps the descriptors of segments, and two programs started -/

structure Paragraphs where
  bump : Bump
  fixed : Word → Bool

namespace Paragraphs

def settle (b : Paragraphs) (bump : Bump) : Paragraphs :=
  { b with bump := { bump with base := fun sel => if b.fixed sel then b.bump.base sel else bump.base sel } }

def perform : (c : DpmiCall) → Paragraphs → c.Reply × Paragraphs
  | .segmentToDescriptor segment, b =>
    (zext segment,
      { bump := { b.bump with base := Function.update b.bump.base segment (zext segment <<< 4) },
        fixed := Function.update b.fixed segment true })
  | c, b => ((Bump.perform c b.bump).1, b.settle (Bump.perform c b.bump).2)

def Made (b : Paragraphs) (sel seg : Word) : Prop :=
  sel = seg ∧ seg ≠ 0 ∧ b.fixed seg = true ∧ b.bump.base seg = zext seg <<< 4

end Paragraphs

def paragraphHost (psp : Word) : DpmiHost Paragraphs where
  perform := Paragraphs.perform
  getSegmentBaseAddress b sel := b.bump.base sel
  getSegmentLimit _ _ := 0xffff
  getDescriptorAccessRights _ _ := 0xf2
  getProtectedModeInterruptVector _ _ := ⟨0, 0⟩
  getRealModeInterruptVector _ _ := ⟨0, 0⟩
  getFreeMemoryInformation _ := 0
  getPsp _ := psp

theorem keepsDescriptors_paragraph (psp : Word) : KeepsDescriptors (paragraphHost psp) Paragraphs.Made where
  steady :=
    { psp := fun _ _ => rfl
      base := fun c other b sel => by
        have same : (Bump.perform c b.bump).2.base = b.bump.base := by
          cases c <;> first | rfl | cases other
        have settled : (b.settle (Bump.perform c b.bump).2).bump.base sel = b.bump.base sel := by
          rw [Paragraphs.settle, same]
          exact ite_self _
        cases c <;> first | exact settled | cases other
      limit := fun _ _ _ _ => rfl }
  makes seg b some := by
    have selector : loWord (zext seg : Dword) = seg := by simp [loWord, zext]
    refine ⟨selector, some, ?_, ?_⟩
    · exact Function.update_self ..
    · exact Function.update_self ..
  stays c b sel seg := by
    rintro ⟨rfl, some, fixed, base⟩
    have settled (bump : Bump) : (b.settle bump).Made sel sel :=
      ⟨rfl, some, fixed, (if_pos fixed).trans base⟩
    cases c with
    | segmentToDescriptor segment =>
      refine ⟨rfl, some, ?_, ?_⟩
      · show Function.update b.fixed segment true sel = true
        by_cases same : sel = segment
        · rw [same, Function.update_self]
        · rw [Function.update_of_ne same, fixed]
      · show Function.update b.bump.base segment (zext segment <<< 4) sel = zext sel <<< 4
        by_cases same : sel = segment
        · rw [same, Function.update_self]
        · rw [Function.update_of_ne same, base]
    | _ => exact settled _
  base b sel seg := by
    rintro ⟨rfl, some, -, base⟩
    exact ⟨some, base⟩

def envMemory : Memory := writeWord (fun _ => 0) (segoff2linear 0x1026 0x2c) 0x3000

def envStart : Nest Paragraphs :=
  ⟨{ bumpStart with host := ⟨bumpStart.host, fun _ => false⟩, mem := envMemory }, [], []⟩

def envClient : State Paragraphs := final (msdosInit (paragraphHost 0x1026) true 0x1000) envStart.state

def putName (m : Memory) (length : Nat) : Memory :=
  fill (fill m 0x100000 0 0x1000) 0x100000 0x61 length

def callExec (s : State Paragraphs) (length : Nat) : State Paragraphs :=
  { s.withGpr fun
      | .eax => 0x4b00
      | .edx => 0x100000
      | _ => 0 with
    mem := putName s.mem length }

theorem putName_word (m : Memory) {length : Nat} (fits : length ≤ 0x1000) :
    envWord (putName m length) 0x1026 = envWord m 0x1026 := by
  have apart {n : Nat} (fits : n ≤ 0x1000) (a : Dword) (inside : (envBlock 0x1026).Covers a) :
      ¬ (Block.mk 0x100000 n).Covers a := by
    simp only [envBlock, Block.Covers, offset, segoff2linear, zext] at inside ⊢
    bv_omega
  have agree : AgreeOn (envBlock 0x1026).Covers m (putName m length) :=
    (fill_agree m (apart (Nat.le_refl _))).trans (fill_agree _ (apart fits))
  exact readWord_agree agree fun _ => id

theorem putName_length (m : Memory) {length : Nat} (fits : length < 0x1000) :
    strlen (putName m length) 0x100000 = length := by
  have inside {n i : Nat} (m : Memory) (v : Byte) (small : i < n) (fits : n ≤ 0x1000) :
      fill m 0x100000 v n (0x100000 + BitVec.ofNat 32 i) = v := by
    rw [fill, offset_add _ (by omega), if_pos small]
  apply Nat.le_antisymm
  · apply strlen_le
    rw [putName, fill, offset_add _ (by omega), if_neg (Nat.lt_irrefl _)]
    exact inside _ _ fits (Nat.le_refl _)
  · refine le_strlen (fun i small => ?_) (by omega)
    rw [putName, inside _ _ small (by omega)]
    decide

theorem putName_inside (m : Memory) {length i : Nat} (small : i < length) (fits : length ≤ 0x1000) :
    putName m length (0x100000 + BitVec.ofNat 32 i) = 0x61 := by
  rw [putName, fill, offset_add _ (by omega), if_pos small]

theorem callExec_moves (s : State Paragraphs) {length : Nat} (fits : length ≤ 0x1000) (inExec : Bool) :
    EnvStep (paragraphHost 0x1026) Paragraphs.Made ⟨s, [⟨0x1026, 0x3000, inExec⟩], []⟩ .world
      ⟨callExec s length, [⟨0x1026, 0x3000, inExec⟩], []⟩ := by
  refine .world ⟨s, [⟨0x1026, 0x3000, inExec⟩], []⟩ (callExec s length) []
    (List.Sublist.refl _) (fun c inside => ?_) (fun _ _ => id)
  obtain rfl := List.mem_singleton.mp inside
  exact putName_word _ fits

theorem callExec_ax (s : State Paragraphs) (length : Nat) :
    hiByte ((callExec s length).scp.lword .eax) = 0x4b := by
  show hiByte (loWord 0x4b00) = 0x4b
  decide

theorem execBlocks_clear : Clear (EnvBytes (· ∈ [0x1026])) (execBlocks 0x1000) := by
  have blocks : execBlocks 0x1000 = [⟨0x10190, 0x20⟩, ⟨0x101b0, 0x80⟩, ⟨0x10230, 0x30⟩] := by decide
  rw [blocks]
  rintro b inside a ⟨q, listed, covers⟩ covered
  obtain rfl := List.mem_singleton.mp listed
  simp only [envBlock, Block.Covers, offset, segoff2linear, zext] at covers covered
  simp only [List.mem_cons, List.not_mem_nil, or_false] at inside
  rcases inside with rfl | rfl | rfl <;> bv_omega

section Call

variable {s : State Paragraphs} (lowmem : s.client.lowmemSeg = 0x1000) (ds : s.scp.ds = 0)
include lowmem ds

theorem callExec_name (length : Nat) :
    nameBlock (paragraphHost 0x1026) (callExec s length) =
      ⟨0x10080, strlen (putName s.mem length) 0x100000 + 1⟩ := by
  have same : (callExec s length).scp.ds = 0 := ds
  have seg : (callExec s length).client.lowmemSeg = 0x1000 := lowmem
  rw [nameBlock, same, seg]
  rfl

theorem callExec_right {live : List EnvClient} (psps : live.map EnvClient.psp = [0x1026]) :
    EnvRight (paragraphHost 0x1026) ⟨callExec s 8, live, []⟩ .exec := by
  have only : Nest.psps (⟨callExec s 8, live, []⟩ : Nest Paragraphs) = [0x1026] := by
    rw [Nest.psps, List.append_nil]
    exact psps
  have seg : (callExec s 8).client.lowmemSeg = 0x1000 := lowmem
  intro _
  rw [only]
  refine clear_cons.mpr ⟨?_, ?_⟩
  · rintro a ⟨q, listed, covers⟩ covered
    obtain rfl := List.mem_singleton.mp listed
    rw [callExec_name lowmem ds, putName_length _ (by decide)] at covered
    simp only [envBlock, Block.Covers, offset, segoff2linear, zext] at covers covered
    bv_omega
  · rw [seg]
    exact execBlocks_clear

/-- A long name runs over the environment word. -/
theorem callExec_overrun :
    envWord (final (fillExec (paragraphHost 0x1026)) (callExec s 0x300).entered).mem 0x1026 = 0x6161 := by
  have host := (keepsDescriptors_paragraph 0x1026).steady
  have seg : (callExec s 0x300).entered.client.lowmemSeg = 0x1000 := lowmem
  have clear : Clear (envBlock 0x1026).Covers (execBlocks (callExec s 0x300).entered.client.lowmemSeg) := by
    rw [seg]
    intro b inside a covers
    exact execBlocks_clear b inside a ⟨_, List.mem_singleton_self _, covers⟩
  have kept := (spares_afterName host clear (fillName_places host _)).2.2.2
  refine (readWord_agree kept fun _ => id).trans ?_
  have name : selAdrClnt (paragraphHost 0x1026) (callExec s 0x300).entered
      (callExec s 0x300).entered.scp.ds .edx = 0x100000 := by
    have same : (callExec s 0x300).entered.scp.ds = 0 := ds
    rw [same]
    rfl
  have mem : (callExec s 0x300).entered.mem = putName s.mem 0x300 := rfl
  rw [fillName_mem host, seg, name, mem, copyString, putName_length _ (by decide)]
  have low : (segoff2linear 0x1026 0x2c : Dword) = segoff2linear (0x1000 + EXEC_Para_ADD) 0 +
      BitVec.ofNat 32 0x20c := by decide
  have high : (segoff2linear 0x1026 0x2c + 1 : Dword) = segoff2linear (0x1000 + EXEC_Para_ADD) 0 +
      BitVec.ofNat 32 0x20d := by decide
  rw [readWord, high, low, copy_inside _ _ _ (by decide) (by decide),
    copy_inside _ _ _ (by decide) (by decide), putName_inside _ (by decide) (by decide),
    putName_inside _ (by decide) (by decide)]
  rfl

theorem callExec_word (base : getSegmentBase (paragraphHost 0x1026) s 0x6161 = 0) :
    envWord (final (msdosPreExtender (paragraphHost 0x1026) 0x21) (callExec s 0x300)).mem 0x1026 = 0 := by
  have overrun := callExec_overrun lowmem ds
  have flat : getSegmentBase (paragraphHost 0x1026)
      (final (fillExec (paragraphHost 0x1026)) (callExec s 0x300).entered) 0x6161 = 0 :=
    ((keepsDescriptors_paragraph 0x1026).steady.base .getStateSaveRestoreAddr rfl s.host 0x6161).trans base
  have after := keepsWords_afterExec (Q := (· = 0x1026)) (keepsDescriptors_paragraph 0x1026)
    (callExec_ax s 0x300)
  rw [after.2.2 _ rfl]
  generalize final (fillExec (paragraphHost 0x1026)) (callExec s 0x300).entered = t at overrun flat
  have word : getEnvSel (paragraphHost 0x1026) t = 0x6161 := overrun
  have some : getEnvSel (paragraphHost 0x1026) t ≠ 0 := by
    rw [word]
    decide
  rw [restoreEnv_word t some, word, flat]
  exact envWord_self _ _ _

end Call

/-! ### The run -/

def execClient (length : Nat) : State Paragraphs := callExec envClient length

theorem envStart_word : envWord envStart.state.mem 0x1026 = 0x3000 := readWord_writeWord _ _ _

theorem envClient_starts : EnvStep (paragraphHost 0x1026) Paragraphs.Made envStart
    (.init true 0x1000) ⟨envClient, [⟨0x1026, 0x3000, false⟩], []⟩ := by
  have init : EnvStep (paragraphHost 0x1026) Paragraphs.Made envStart (.init true 0x1000) _ :=
    .init envStart true 0x1000 rfl List.not_mem_nil
  have current : dosGetPsp (paragraphHost 0x1026) envStart.state = 0x1026 := rfl
  rw [current, envStart_word] at init
  exact init

def execNest (length : Nat) : Nest Paragraphs :=
  ⟨final (msdosPreExtender (paragraphHost 0x1026) 0x21) (execClient length), [⟨0x1026, 0x3000, true⟩], []⟩

def execPast (length : Nat) : List (Nest Paragraphs × EnvMove) :=
  [(⟨execClient length, [⟨0x1026, 0x3000, false⟩], []⟩, .exec),
    (⟨envClient, [⟨0x1026, 0x3000, false⟩], []⟩, .world), (envStart, .init true 0x1000)]

theorem execClient_run {length : Nat} (fits : length ≤ 0x1000) :
    Trace NoClientYet (EnvStep (paragraphHost 0x1026) Paragraphs.Made) (execPast length)
      (execNest length) := by
  have exec : EnvStep (paragraphHost 0x1026) Paragraphs.Made
      ⟨execClient length, [⟨0x1026, 0x3000, false⟩], []⟩ .exec (execNest length) :=
    .exec _ ⟨0x1026, 0x3000, false⟩ [] [] rfl rfl (callExec_ax envClient length)
  exact .step (.step (.step (.start ⟨rfl, rfl⟩) envClient_starts) (callExec_moves _ fits _)) exec

theorem envClient_places : envClient.client.lowmemSeg = 0x1000 ∧ envClient.scp.ds = 0 ∧
    getSegmentBase (paragraphHost 0x1026) envClient 0x6161 = 0 := by decide +kernel

theorem environment_word_short : ∃ past n,
    Trace NoClientYet (EnvStep (paragraphHost 0x1026) Paragraphs.Made) past n ∧
      (∀ p ∈ past, EnvRight (paragraphHost 0x1026) p.1 p.2) ∧ envWord n.state.mem 0x1026 = 0x3000 := by
  have exec : EnvRight (paragraphHost 0x1026) ⟨execClient 8, [⟨0x1026, 0x3000, false⟩], []⟩ .exec :=
    callExec_right envClient_places.1 envClient_places.2.1 rfl
  have right : ∀ p ∈ execPast 8, EnvRight (paragraphHost 0x1026) p.1 p.2 := by
    rw [execPast]
    generalize execClient 8 = s at exec
    have other {n : Nest Paragraphs} {move : EnvMove} (other : move ≠ .exec) :
        EnvRight (paragraphHost 0x1026) n move := fun exec => absurd exec other
    refine List.forall_mem_cons.mpr ⟨exec, List.forall_mem_cons.mpr ⟨other (by decide), ?_⟩⟩
    exact List.forall_mem_cons.mpr ⟨other (by decide), fun p inside => absurd inside List.not_mem_nil⟩
  have run := execClient_run (by decide : 8 ≤ 0x1000)
  have live : ⟨0x1026, 0x3000, true⟩ ∈ (execNest 8).live := List.mem_singleton_self _
  have word := (environment_word (keepsDescriptors_paragraph 0x1026) run right).1 _ live rfl
  exact ⟨_, _, run, right, word⟩

theorem environment_word_overrun : KeepsDescriptors (paragraphHost 0x1026) Paragraphs.Made ∧
    ∃ past n c, Trace NoClientYet (EnvStep (paragraphHost 0x1026) Paragraphs.Made) past n ∧
      c ∈ n.live ∧ c.inExec = true ∧ envWord n.state.mem c.psp ≠ c.env := by
  obtain ⟨lowmem, ds, base⟩ := envClient_places
  refine ⟨keepsDescriptors_paragraph 0x1026, _, _, ⟨0x1026, 0x3000, true⟩,
    execClient_run (by decide : 0x300 ≤ 0x1000), List.mem_singleton_self _, rfl, ?_⟩
  have word := callExec_word lowmem ds base
  show envWord (final (msdosPreExtender (paragraphHost 0x1026) 0x21) (callExec envClient 0x300)).mem 0x1026 ≠ 0x3000
  rw [word]
  decide

end Pmdapi
