import Pmdapi.Library.StringSlots
import Pmdapi.SegmentCopy

/-! The strings that `msdos_pre_extender` copies below 1 MiB, and what is laid out behind them. -/

namespace Pmdapi
open Bytes Effect

def EXEC_Para_SIZE : Nat := 30

/-- The registers with a path: the client's selector and offset, and the same ones of the real-mode side. -/
inductive PathReg where
  | dsDx | dsSi | esDi
  deriving DecidableEq, Repr

def pathRegs (ah al : Byte) : List PathReg :=
  match dosFn ah with
  | .asciiz | .exec => [.dsDx]
  | .extendedOpen => [.dsSi]
  | .rename => [.dsDx, .esDi]
  | .lfn =>
    if al = 0x3b || al = 0x41 || al = 0x43 || al = 0x4e || al = 0xa0 then [.dsDx]
    else if al = 0x60 || al = 0x6c then [.dsSi]
    else []
  | _ => []

variable {σ : Type} (h : DpmiHost σ)

namespace PathReg

def client (s : State σ) : PathReg → Dword
  | dsDx => selAdrClnt h s s.scp.ds .edx
  | dsSi => selAdrClnt h s s.scp.ds .esi
  | esDi => selAdrClnt h s s.scp.es .edi

def passed (u : State σ) : PathReg → Dword
  | dsDx => segoff2linear u.rmreg.ds (u.rmreg.lword .edx)
  | dsSi => segoff2linear u.rmreg.ds (u.rmreg.lword .esi)
  | esDi => segoff2linear u.rmreg.es (u.rmreg.lword .edi)

end PathReg

namespace State

variable (s : State σ)

def ah : Byte := hiByte (s.scp.lword .eax)

def al : Byte := loByte (s.scp.lword .eax)

def paths : List PathReg := pathRegs s.ah s.al

/-- The segment of a path: EXEC has an area of its own, and a second name is 32 paragraphs on. -/
def pathSeg (r : PathReg) : Word :=
  if s.ah = 0x4b then s.client.lowmemSeg + EXEC_Para_ADD
  else if r = .esDi then s.emmSeg + 0x20
  else s.emmSeg

def entryMem : Memory :=
  if mirrorsDta 0x21 s then copy s.mem (dtaUnder1MB s) (dtaOver1MB h s) 0x80 else s.mem

def firstPath (r : PathReg) : StringCopy :=
  ⟨s.entryMem h, r.client h s, segoff2linear (s.pathSeg r) 0⟩

/-- The copy of a path; a second name is read after the first one is written. -/
def path : PathReg → StringCopy
  | .dsDx => s.firstPath h .dsDx
  | .dsSi => s.firstPath h .dsSi
  | .esDi => ⟨(s.firstPath h .dsDx).copied, PathReg.esDi.client h s, segoff2linear (s.pathSeg .esDi) 0⟩

def parameters : List Block := if s.ah = 0x4b then execBlocks s.client.lowmemSeg else []

def resultArea : List Block :=
  if s.ah = 0x71 then
    let start := segoff2linear s.emmSeg (BitVec.ofNat 16 MAX_DOS_PATH)
    if s.al = 0x4e then [⟨start, 0x13e⟩]
    else if s.al = 0x60 then [⟨start, MAX_DOS_PATH⟩]
    else if s.al = 0xa0 then [⟨start, (s.scp.lword .ecx).toNat⟩]
    else []
  else []

def execArea : Block := ⟨segoff2linear (s.client.lowmemSeg + EXEC_Para_ADD) 0, EXEC_Para_SIZE * 16⟩

/-- The word of the PSP that EXEC makes a segment. -/
def Restored (a : Dword) : Prop := s.ah = 0x4b ∧ (envBlock (dosGetPsp h s)).Covers a

end State

/-- Every path is in its slot, in the state `u` that the real-mode side starts from: what is found there,
and that nothing behind it is changed. -/
structure PathsInSlots (s u : State σ) : Prop where
  passed : ∀ r ∈ s.paths, r.passed u = (s.path h r).dst
  answers : ∀ b ∈ s.resultArea, PathReg.esDi.passed u = b.start
  own : ∀ r ∈ s.paths, AgreeOn (fun a => (∀ b ∈ dtaTargets 0x21 s, ¬b.Covers a) ∧
    (r = .esDi → ¬((s.path h .dsDx).slot MAX_DOS_PATH).Covers a)) s.mem (s.path h r).source
  found : ∀ r ∈ s.paths, (s.path h r).FoundIn MAX_DOS_PATH u.mem (s.Restored h)
  changed : ∀ a, u.mem a ≠ s.mem a → (∃ r ∈ s.paths, ((s.path h r).slot MAX_DOS_PATH).Covers a) ∨
    (∃ b ∈ s.parameters ++ dtaTargets 0x21 s, b.Covers a) ∨ s.Restored h a
  apart : ∀ r ∈ s.paths, ∀ b ∈ s.parameters ++ s.resultArea, ((s.path h r).slot MAX_DOS_PATH).Apart b
  between : ∀ r ∈ s.paths, ∀ q ∈ s.paths, r ≠ q →
    ((s.path h r).slot MAX_DOS_PATH).Apart ((s.path h q).slot MAX_DOS_PATH)
  inside : s.ah = 0x4b →
    ∀ b ∈ s.paths.map (fun r => (s.path h r).slot MAX_DOS_PATH) ++ s.parameters, b.Within s.execArea

/-- No path has more characters than its slot has room for. -/
def ShortPaths (s : State σ) : Prop := ∀ r ∈ s.paths, (s.path h r).length < MAX_DOS_PATH

/-! ## The layout -/

theorem dosFn_exec : ∀ {ah}, dosFn ah = .exec → ah = 0x4b := by decide +kernel

theorem dosFn_rename : ∀ {ah}, dosFn ah = .rename → ah = 0x56 := by decide +kernel

theorem paths_exec {s : State σ} (exec : s.ah = 0x4b) : s.paths = [.dsDx] := by
  rw [State.paths, pathRegs, exec]
  rfl

theorem paths_lfn {s : State σ} (lfn : s.ah = 0x71) {r : PathReg} (passed : r ∈ s.paths) : r ≠ .esDi := by
  have fn : dosFn s.ah = .lfn := by rw [lfn]; rfl
  rw [State.paths, pathRegs, fn] at passed
  rintro rfl
  simp only at passed
  split_ifs at passed
  all_goals simp at passed

/-- A path but EXEC's and a second name is at the start of the transfer buffer. -/
theorem path_buffer {s : State σ} {r : PathReg} (first : r ≠ .esDi) (other : s.ah ≠ 0x4b) :
    s.path h r = ⟨s.entryMem h, r.client h s, segoff2linear s.emmSeg 0⟩ := by
  have seg : s.pathSeg r = s.emmSeg := by rw [State.pathSeg, if_neg other, if_neg first]
  have same : s.path h r = s.firstPath h r := by
    cases r with
    | esDi => exact absurd rfl first
    | dsDx => rfl
    | dsSi => rfl
  rw [same, State.firstPath, seg]

theorem slot_apart_parameters (s : State σ) (exec : s.ah = 0x4b) {b : Block}
    (listed : b ∈ execBlocks s.client.lowmemSeg) :
    ((s.path h .dsDx).slot MAX_DOS_PATH).Apart b ∧
      (s.client.lowmemSeg.toNat + 38 ≤ 0x10000 → b.Within s.execArea) := by
  have name := segoff2linear_toNat (s.client.lowmemSeg + EXEC_Para_ADD)
  have par := segoff2linear_toNat (s.client.lowmemSeg + EXEC_Para_ADD + 17)
  have tail := segoff2linear_toNat (s.client.lowmemSeg + EXEC_Para_ADD + 17 + 2)
  have fcb := segoff2linear_toNat (s.client.lowmemSeg + EXEC_Para_ADD + 17 + 2 + 8)
  have start : (s.path h .dsDx).slot MAX_DOS_PATH =
      ⟨segoff2linear (s.client.lowmemSeg + EXEC_Para_ADD) 0, 260⟩ := by
    show (s.firstPath h .dsDx).slot MAX_DOS_PATH = _
    rw [State.firstPath, State.pathSeg, if_pos exec]
    rfl
  rw [start, State.execArea]
  simp only [execBlocks, List.mem_cons, List.not_mem_nil, or_false] at listed
  simp only [EXEC_Para_ADD, EXEC_Para_SIZE] at *
  generalize s.client.lowmemSeg = lowmem at *
  rcases listed with rfl | rfl | rfl
  all_goals
    simp only [Block.Apart, Block.Within, Block.Covers, offset]
    constructor
    · intro a inside
      bv_omega
    · intro below a inside
      bv_omega

theorem slot_apart_result (s : State σ) (lfn : s.ah = 0x71) {r : PathReg} (passed : r ∈ s.paths)
    {b : Block} (listed : b ∈ s.resultArea) : ((s.path h r).slot MAX_DOS_PATH).Apart b := by
  have buffer := segoff2linear_toNat s.emmSeg
  have answer : segoff2linear s.emmSeg (BitVec.ofNat 16 MAX_DOS_PATH) = segoff2linear s.emmSeg 0 + 260 :=
    segoff2linear_off _ _
  have start : (s.path h r).slot MAX_DOS_PATH = ⟨segoff2linear s.emmSeg 0, 260⟩ := by
    rw [path_buffer h (paths_lfn lfn passed) (by rw [lfn]; decide)]
    rfl
  have size : b.start = segoff2linear s.emmSeg 0 + 260 ∧ b.length < 0x10000 := by
    have cx := (s.scp.lword .ecx).isLt
    rw [State.resultArea, if_pos lfn, answer] at listed
    simp only at listed
    split_ifs at listed
    · obtain rfl := List.mem_singleton.mp listed
      exact ⟨rfl, (by decide : 0x13e < 0x10000)⟩
    · obtain rfl := List.mem_singleton.mp listed
      exact ⟨rfl, (by decide : MAX_DOS_PATH < 0x10000)⟩
    · obtain rfl := List.mem_singleton.mp listed
      exact ⟨rfl, cx⟩
    · cases listed
  rw [start]
  obtain ⟨begins, small⟩ := size
  simp only [Block.Apart, Block.Covers, offset, begins]
  intro a inside
  bv_omega

theorem slots_apart (s : State σ) (rename : s.ah = 0x56) :
    ((s.path h .dsDx).slot MAX_DOS_PATH).Apart ((s.path h .esDi).slot MAX_DOS_PATH) := by
  have first := segoff2linear_toNat s.emmSeg
  have second := segoff2linear_toNat (s.emmSeg + 0x20)
  have other : s.ah ≠ 0x4b := by rw [rename]; decide
  have one : (s.path h .dsDx).slot MAX_DOS_PATH = ⟨segoff2linear s.emmSeg 0, 260⟩ := by
    rw [path_buffer h (by decide) other]
    rfl
  have two : (s.path h .esDi).slot MAX_DOS_PATH = ⟨segoff2linear (s.emmSeg + 0x20) 0, 260⟩ := by
    show (⟨segoff2linear (s.pathSeg .esDi) 0, MAX_DOS_PATH⟩ : Block) = _
    rw [State.pathSeg, if_neg other]
    rfl
  rw [one, two]
  simp only [Block.Apart, Block.Covers, offset]
  intro a inside
  bv_omega

/-! ## What is sent -/

/-- The state the real-mode side starts from holds every path at the pointer it is passed by, a first name
if the second one keeps to its slot. -/
structure PathsSent (s u : State σ) : Prop where
  passed : ∀ r ∈ s.paths, r.passed u = (s.path h r).dst
  answers : ∀ b ∈ s.resultArea, PathReg.esDi.passed u = b.start
  own : ∀ r ∈ s.paths, AgreeOn (fun a => (∀ b ∈ dtaTargets 0x21 s, ¬b.Covers a) ∧
    (r = .esDi → ¬(s.path h .dsDx).written.Covers a)) s.mem (s.path h r).source
  agree : ∀ r ∈ s.paths, (r = .dsDx → .esDi ∈ s.paths → (s.path h .esDi).length < MAX_DOS_PATH) →
    AgreeOn (fun a => ((s.path h r).slot MAX_DOS_PATH).Covers a ∧ ¬s.Restored h a) (s.path h r).copied u.mem
  changed : ∀ a, u.mem a ≠ s.mem a → (∃ r ∈ s.paths, (s.path h r).written.Covers a) ∨
    (∃ b ∈ s.parameters ++ dtaTargets 0x21 s, b.Covers a) ∨ s.Restored h a

theorem paths_rename {s : State σ} {r q : PathReg} (one : r ∈ s.paths) (two : q ∈ s.paths) (other : r ≠ q) :
    s.ah = 0x56 ∧ (r = .dsDx ∧ q = .esDi ∨ r = .esDi ∧ q = .dsDx) := by
  rw [State.paths, pathRegs] at one two
  cases fn : dosFn s.ah with
  | rename =>
    rw [fn] at one two
    refine ⟨dosFn_rename fn, ?_⟩
    rcases List.mem_pair.mp one with rfl | rfl
    · exact .inl ⟨rfl, (List.mem_pair.mp two).resolve_left (Ne.symm other)⟩
    · exact .inr ⟨rfl, (List.mem_pair.mp two).resolve_right (Ne.symm other)⟩
  | lfn =>
    rw [fn] at one two
    simp only at one two
    split_ifs at one two
    · exact absurd ((List.mem_singleton.mp one).trans (List.mem_singleton.mp two).symm) other
    · exact absurd ((List.mem_singleton.mp one).trans (List.mem_singleton.mp two).symm) other
    · cases one
  | asciiz | exec | extendedOpen =>
    rw [fn] at one two
    exact absurd ((List.mem_singleton.mp one).trans (List.mem_singleton.mp two).symm) other
  | _ =>
    rw [fn] at one
    cases one

theorem first_of_second {s : State σ} (second : .esDi ∈ s.paths) : .dsDx ∈ s.paths := by
  rw [State.paths, pathRegs] at second ⊢
  cases fn : dosFn s.ah with
  | rename => exact List.mem_cons_self
  | lfn =>
    have lfn : s.ah = 0x71 := dosFn_lfn fn
    rw [← pathRegs, ← State.paths] at second
    exact absurd rfl (paths_lfn lfn second)
  | asciiz | exec | extendedOpen =>
    rw [fn] at second
    cases List.mem_singleton.mp second
  | _ =>
    rw [fn] at second
    cases second

theorem pathsInSlots_of_sent {s u : State σ} (sent : PathsSent h s u) (short : ShortPaths h s)
    (lowmem : s.ah = 0x4b → s.client.lowmemSeg.toNat + 38 ≤ 0x10000) : PathsInSlots h s u where
  passed := sent.passed
  answers := sent.answers
  own r listed a outside := by
    refine sent.own r listed a ⟨outside.1, fun second covered => ?_⟩
    have first : PathReg.dsDx ∈ s.paths := by
      rw [second] at listed
      exact first_of_second listed
    exact outside.2 second (StringCopy.written_within (short _ first) a covered)
  found r listed :=
    StringCopy.foundIn_of_agree (short r listed) (by decide)
      (sent.agree r listed fun _ second => short .esDi second)
  changed a differs := by
    rcases sent.changed a differs with ⟨r, listed, written⟩ | rest
    · exact .inl ⟨r, listed, StringCopy.written_within (short r listed) a written⟩
    · exact .inr rest
  apart r listed b object := by
    rcases List.mem_append.mp object with parameter | result
    · rw [State.parameters] at parameter
      split at parameter
      next exec =>
        rw [paths_exec exec] at listed
        obtain rfl := List.mem_singleton.mp listed
        exact (slot_apart_parameters h s exec parameter).1
      next => cases parameter
    · have lfn : s.ah = 0x71 := by
        by_contra other
        rw [State.resultArea, if_neg other] at result
        cases result
      exact slot_apart_result h s lfn listed result
  between r one q two other := by
    obtain ⟨rename, ⟨rfl, rfl⟩ | ⟨rfl, rfl⟩⟩ := paths_rename one two other
    · exact slots_apart h s rename
    · exact (slots_apart h s rename).symm
  inside exec b listed := by
    have below := lowmem exec
    rcases List.mem_append.mp listed with path | parameter
    · obtain ⟨r, passed, rfl⟩ := List.mem_map.mp path
      rw [paths_exec exec] at passed
      obtain rfl := List.mem_singleton.mp passed
      have start : (s.path h .dsDx).dst = s.execArea.start := by
        show segoff2linear (s.pathSeg .dsDx) 0 = _
        rw [State.pathSeg, if_pos exec]
        rfl
      rw [StringCopy.slot, start]
      exact Block.within_of_le (by decide : MAX_DOS_PATH ≤ EXEC_Para_SIZE * 16)
    · rw [State.parameters, if_pos exec] at parameter
      exact (slot_apart_parameters h s exec parameter).2 below

/-- A long path is not found in its slot: the NUL at its end is missing, unless EXEC's word is there. -/
theorem short_of_pathsInSlots {s u : State σ} (sent : PathsSent h s u)
    (psp : ∀ r ∈ s.paths, ¬s.Restored h ((s.path h r).dst + BitVec.ofNat 32 (MAX_DOS_PATH - 1)))
    (slots : PathsInSlots h s u) : ShortPaths h s := by
  have short (r : PathReg) (listed : r ∈ s.paths)
      (second : r = .dsDx → .esDi ∈ s.paths → (s.path h .esDi).length < MAX_DOS_PATH) :
      (s.path h r).length < MAX_DOS_PATH := by
    by_contra long
    exact StringCopy.not_foundIn_of_agree (Nat.not_lt.mp long) (by decide) (psp r listed)
      (sent.agree r listed second) (slots.found r listed)
  -- The second name is the last to be written, so it is found as it was copied.
  intro r listed
  refine short r listed fun _ second => ?_
  exact short .esDi second fun first => by cases first

/-! ## The branches -/

/-- The state at the switch is the one the call was made in, with the DTA copied. -/
structure Reached (s v : State σ) : Prop where
  mem : v.mem = s.entryMem h
  scp : v.scp = s.scp
  client : v.client = s.client
  buffer : v.emmSeg = s.emmSeg
  base : ∀ sel, getSegmentBase h v sel = getSegmentBase h s sel

theorem reached_atSwitch (host : SteadyHost h) (s : State σ) : Reached h s (s.atSwitch h 0x21) := by
  obtain ⟨hostAfter, trace, mapped, arrived⟩ := atSwitch_eq h 0x21 s
  rw [preEnter_eq] at arrived
  have base (sel : Word) := (segment_atSwitch h host 0x21 s sel).1
  constructor
  · rw [arrived]
    rfl
  · rw [arrived]
    rfl
  · rw [arrived]
    rfl
  · rw [arrived]
    rfl
  · exact base

theorem Reached.path {s v : State σ} (reached : Reached h s v) (r : PathReg) :
    r.client h v = r.client h s := by
  have address := selAdrClnt_congr h reached.base reached.scp (congrArg MsdosStruct.is32 reached.client)
  cases r with
  | dsDx | dsSi | esDi => simp only [PathReg.client, address, reached.scp]

theorem entryMem_agree (s : State σ) :
    AgreeOn (fun a => ∀ b ∈ dtaTargets 0x21 s, ¬b.Covers a) s.mem (s.entryMem h) := by
  intro a outside
  rw [State.entryMem]
  split
  next mirrors =>
    rw [dtaTargets, if_pos mirrors] at outside
    exact copy_agree (P := (¬(dtaBlock s.client.lowmemSeg).Covers ·)) _ (fun _ => id) a
      (outside _ (List.mem_singleton_self _))
  next => rfl

theorem not_copied_of_branch {ax : Word} (branch : dosFn (hiByte ax) ≠ .plain) :
    copiesSegment 0x21 ax = false := by
  apply Bool.eq_false_iff.mpr
  intro copied
  exact branch (dosFn_copied (copiedDos_of_copies copied)).1

/-- Where no segment is copied, the branch is the last to write to memory. -/
theorem filledFrom_branch {s : State σ} (whole : copiesSegment 0x21 (s.scp.lword .eax) = false)
    {altEnt : Bool} (goes : result (preDos h (dosFn s.ah) s.al) (s.atSwitch h 0x21) = .go altEnt) :
    FilledFrom (final (preDos h (dosFn s.ah) s.al) (s.atSwitch h 0x21))
      (final (msdosPreExtender h 0x21) s).filled := by
  obtain ⟨dseg, eseg⟩ := (Bool.or_eq_false_iff).mp whole
  have outcome : s.outcome h 0x21 = .go altEnt := goes
  exact filledFrom_pre h outcome dseg eseg

theorem filledFrom_path {s : State σ} {r : PathReg} (passed : r ∈ s.paths) {altEnt : Bool}
    (goes : result (preDos h (dosFn s.ah) s.al) (s.atSwitch h 0x21) = .go altEnt) :
    FilledFrom (final (preDos h (dosFn s.ah) s.al) (s.atSwitch h 0x21))
      (final (msdosPreExtender h 0x21) s).filled := by
  refine filledFrom_branch h (not_copied_of_branch fun plain => ?_) goes
  have fn : dosFn s.ah = .plain := plain
  rw [State.paths, pathRegs, fn] at passed
  cases passed

/-! ### One path in the transfer buffer -/

def PathReg.gpr : PathReg → Gpr
  | dsDx => .edx
  | dsSi => .esi
  | esDi => .edi

def answersBehind (ah al : Byte) : Bool := ah = 0x71 && (al = 0x4e || al = 0x60 || al = 0xa0)

def passPath (r : Gpr) (answers : Bool) : M σ Unit := do
  passDs r
  onlyIf answers (passEs .edi (BitVec.ofNat 16 MAX_DOS_PATH))
  stringFromDs h r

theorem dosLfn_path {al : Byte} {r : PathReg} (one : pathRegs 0x71 al = [r]) :
    r ≠ .esDi ∧ dosLfn h al = goOn (passPath h r.gpr (answersBehind 0x71 al)) := by
  have fn : dosFn 0x71 = .lfn := rfl
  rw [pathRegs, fn] at one
  simp only at one
  split_ifs at one with dx si
  · obtain rfl := List.singleton_inj.mp one
    simp only [Bool.or_eq_true, decide_eq_true_eq] at dx
    refine ⟨nofun, ?_⟩
    rcases dx with (((rfl | rfl) | rfl) | rfl) | rfl
    all_goals rfl
  · obtain rfl := List.singleton_inj.mp one
    simp only [Bool.or_eq_true, decide_eq_true_eq] at si
    refine ⟨nofun, ?_⟩
    rcases si with rfl | rfl
    all_goals rfl

theorem preDos_path {ah al : Byte} {r : PathReg} (one : pathRegs ah al = [r]) (other : ah ≠ 0x4b) :
    r ≠ .esDi ∧ preDos h (dosFn ah) al = goOn (passPath h r.gpr (answersBehind ah al)) := by
  have plain {f : DosFn} (fn : dosFn ah = f) (noLfn : f ≠ .lfn) : answersBehind ah al = false := by
    have different : ah ≠ 0x71 := by
      rintro rfl
      exact noLfn fn.symm
    rw [answersBehind, decide_eq_false different, Bool.false_and]
  have regs := one
  rw [pathRegs] at one
  cases fn : dosFn ah with
  | asciiz =>
    rw [fn] at one
    obtain rfl := List.singleton_inj.mp one
    rw [plain fn nofun]
    exact ⟨nofun, rfl⟩
  | extendedOpen =>
    rw [fn] at one
    obtain rfl := List.singleton_inj.mp one
    rw [plain fn nofun]
    exact ⟨nofun, rfl⟩
  | lfn =>
    obtain rfl := dosFn_lfn fn
    exact dosLfn_path h regs
  | exec => exact absurd (dosFn_exec fn) other
  | rename =>
    rw [fn] at one
    cases one
  | _ =>
    rw [fn] at one
    cases one

structure StringSent (r : Gpr) (answers : Bool) (v w : State σ) : Prop where
  mem : w.mem = copyString v.mem (segoff2linear v.emmSeg 0) (selAdrClnt h v v.scp.ds r)
  scp : w.scp = v.scp
  ds : w.rmreg.ds = v.emmSeg
  offset : w.handed r = some 0
  es : answers = true → w.rmreg.es = v.emmSeg
  di : answers = true → w.handed .edi = some (BitVec.ofNat 16 MAX_DOS_PATH)

theorem final_passDs (r : Gpr) (s : State σ) : ∃ trace, final (passDs r) s = { s with
    trace := trace
    rmMask := s.rmMask ||| regBit .ds ||| regBit (.gpr r)
    rmreg := { s.rmreg with
      ds := s.emmSeg
      gpr := setGpr s.rmreg.gpr r (setLoWord (s.rmreg.gpr r) 0) } } := by
  obtain ⟨trace, run⟩ := final_transBufferSeg_bind (fun seg => do
    setRmDs seg
    setRmLword r 0) s
  exact ⟨trace, run⟩

theorem final_passEs (r : Gpr) (off : Word) (s : State σ) : ∃ trace, final (passEs r off) s = { s with
    trace := trace
    rmMask := s.rmMask ||| regBit .es ||| regBit (.gpr r)
    rmreg := { s.rmreg with
      es := s.emmSeg
      gpr := setGpr s.rmreg.gpr r (setLoWord (s.rmreg.gpr r) off) } } := by
  obtain ⟨trace, run⟩ := final_transBufferSeg_bind (fun seg => do
    setRmEs seg
    setRmLword r off) s
  exact ⟨trace, run⟩

theorem final_snprintf (dst : Dword) (size : Nat) (src : Dword) (s : State σ) :
    final (snprintf dst size src) s = { s with mem := copyString s.mem dst src } := by
  rw [snprintf, setMem, final_updates]

theorem final_stringFromDs (r : Gpr) (s : State σ) : ∃ trace, final (stringFromDs h r) s = { s with
    trace := trace
    mem := copyString s.mem (segoff2linear s.emmSeg 0) (selAdrClnt h s s.scp.ds r) } := by
  rw [stringFromDs, final_reads_bind]
  obtain ⟨trace, run⟩ := final_transBufferSeg_bind (fun seg =>
    snprintf (segoff2linear seg 0) MAX_DOS_PATH (selAdrClnt h s s.scp.ds r)) s
  rw [run, final_snprintf]
  exact ⟨trace, rfl⟩

theorem stringSent_of {r : Gpr} {answers : Bool} {v w : State σ} (mem : w.mem = v.mem) (scp : w.scp = v.scp)
    (buffer : w.emmSeg = v.emmSeg) (address : selAdrClnt h w w.scp.ds r = selAdrClnt h v v.scp.ds r)
    (ds : w.rmreg.ds = v.emmSeg) (offset : w.handed r = some 0)
    (es : answers = true → w.rmreg.es = v.emmSeg)
    (di : answers = true → w.handed .edi = some (BitVec.ofNat 16 MAX_DOS_PATH)) :
    StringSent h r answers v (final (stringFromDs h r) w) := by
  obtain ⟨trace, string⟩ := final_stringFromDs h r w
  rw [string]
  refine ⟨?_, scp, ds, offset, es, di⟩
  show copyString w.mem _ _ = _
  rw [mem, buffer, address]

theorem stringSent_passPath {r : Gpr} (other : r ≠ .edi) (answers : Bool) (v : State σ) :
    StringSent h r answers v (final (passPath h r answers) v) := by
  obtain ⟨trace, first⟩ := final_passDs r v
  rw [passPath, final_bind, final_bind]
  cases answers with
  | false =>
    show StringSent h r false v (final (stringFromDs h r) (final (passDs r) v))
    rw [first]
    apply stringSent_of
    · rfl
    · rfl
    · rfl
    · rfl
    · rfl
    · simp [State.handed, RealModeCallStructure.lword, setGpr]
    · exact fun wants => absurd wants Bool.false_ne_true
    · exact fun wants => absurd wants Bool.false_ne_true
  | true =>
    obtain ⟨trace', second⟩ := final_passEs .edi (BitVec.ofNat 16 MAX_DOS_PATH) (final (passDs r) v)
    show StringSent h r true v (final (stringFromDs h r)
      (final (passEs .edi (BitVec.ofNat 16 MAX_DOS_PATH)) (final (passDs r) v)))
    rw [second, first]
    apply stringSent_of
    · rfl
    · rfl
    · rfl
    · rfl
    · rfl
    · simp [State.handed, RealModeCallStructure.lword, setGpr, other]
    · exact fun _ => rfl
    · exact fun _ => by simp [State.handed, RealModeCallStructure.lword, setGpr]

theorem answersBehind_of_area {s : State σ} {b : Block} (listed : b ∈ s.resultArea) :
    answersBehind s.ah s.al = true ∧ b.start = segoff2linear s.emmSeg (BitVec.ofNat 16 MAX_DOS_PATH) := by
  rw [State.resultArea] at listed
  split at listed
  next lfn =>
    simp only at listed
    split_ifs at listed with first canonical volume
    · obtain rfl := List.mem_singleton.mp listed
      exact ⟨by simp [answersBehind, lfn, first], rfl⟩
    · obtain rfl := List.mem_singleton.mp listed
      exact ⟨by simp [answersBehind, lfn, canonical], rfl⟩
    · obtain rfl := List.mem_singleton.mp listed
      exact ⟨by simp [answersBehind, lfn, volume], rfl⟩
    · cases listed
  next => cases listed

theorem path_agree {s : State σ} {r : PathReg} (first : r ≠ .esDi) :
    AgreeOn (fun a => (∀ b ∈ dtaTargets 0x21 s, ¬b.Covers a) ∧ ¬(s.path h r).written.Covers a) s.mem
      (s.path h r).copied := by
  have source : (s.path h r).source = s.entryMem h := by
    cases r with
    | esDi => exact absurd rfl first
    | dsDx => rfl
    | dsSi => rfl
  rintro a ⟨dta, outside⟩
  rw [StringCopy.copied_agree a outside, source]
  exact entryMem_agree h s a dta

theorem pathsSent_one (host : SteadyHost h) {s : State σ} {r : PathReg} (one : s.paths = [r])
    (other : s.ah ≠ 0x4b) : PathsSent h s (final (msdosPreExtender h 0x21) s).filled := by
  obtain ⟨first, branch⟩ := preDos_path h one other
  have reached := reached_atSwitch h host s
  have goes : result (preDos h (dosFn s.ah) s.al) (s.atSwitch h 0x21) = .go false := by
    rw [branch]
    rfl
  have listed : r ∈ s.paths := one ▸ List.mem_singleton_self r
  have filled := filledFrom_path h listed goes
  have path := path_buffer h first other
  have offset : r.gpr ≠ .edi := by
    cases r with
    | esDi => exact absurd rfl first
    | dsDx | dsSi => exact nofun
  have sent := stringSent_passPath h offset (answersBehind s.ah s.al) (s.atSwitch h 0x21)
  have address : selAdrClnt h (s.atSwitch h 0x21) (s.atSwitch h 0x21).scp.ds r.gpr = r.client h s := by
    rw [← reached.path]
    cases r with
    | esDi => exact absurd rfl first
    | dsDx | dsSi => rfl
  rw [branch, goOn, final_bind, final_pure] at filled
  generalize (final (msdosPreExtender h 0x21) s).filled = u at filled
  generalize final (passPath h r.gpr (answersBehind s.ah s.al)) (s.atSwitch h 0x21) = w at filled sent
  have mem : u.mem = (s.path h r).copied := by
    rw [filled.mem, sent.mem, address, reached.mem, reached.buffer, path]
    rfl
  have only {q : PathReg} (passed : q ∈ s.paths) : q = r := by
    rw [one] at passed
    exact List.mem_singleton.mp passed
  constructor
  · intro q passed
    obtain rfl := only passed
    have pointer : q.passed u = segoff2linear u.rmreg.ds (u.rmreg.lword q.gpr) := by
      cases q with
      | esDi => exact absurd rfl first
      | dsDx | dsSi => rfl
    rw [pointer, filled.ds, sent.ds, filled.words, sent.offset, reached.buffer, path]
    rfl
  · intro b area
    obtain ⟨answers, start⟩ := answersBehind_of_area area
    rw [PathReg.passed, filled.es, sent.es answers, filled.words, sent.di answers, reached.buffer, start]
    rfl
  · intro q passed a outside
    obtain rfl := only passed
    rw [path]
    exact entryMem_agree h s a outside.1
  · intro q passed _
    obtain rfl := only passed
    rw [mem]
    exact .refl _
  · intro a differs
    by_contra untouched
    simp only [not_or, not_exists, not_and] at untouched
    obtain ⟨paths, rest, -⟩ := untouched
    apply differs
    rw [mem]
    refine path_agree h first a ⟨fun b target => ?_, paths r listed⟩
    exact rest b (List.mem_append_right _ target)

/-! ### The two names of a rename -/

theorem dosRename_eq (v : State σ) : ∃ trace, final (dosRename h) v = { v with
    trace := trace
    rmMask := v.rmMask ||| regBit .ds ||| regBit (.gpr .edx) ||| regBit .es ||| regBit (.gpr .edi)
    rmreg := { v.rmreg with
      ds := v.emmSeg
      es := v.emmSeg + 0x20
      gpr := setGpr (setGpr v.rmreg.gpr .edx (setLoWord (v.rmreg.gpr .edx) 0)) .edi
        (setLoWord (setGpr v.rmreg.gpr .edx (setLoWord (v.rmreg.gpr .edx) 0) .edi) 0) }
    mem := copyString (copyString v.mem (segoff2linear v.emmSeg 0) (PathReg.dsDx.client h v))
      (segoff2linear (v.emmSeg + 0x20) 0) (PathReg.esDi.client h v) } := by
  obtain ⟨trace, run⟩ := final_transBufferSeg_bind (fun seg => do
    setRmDs seg
    setRmLword .edx 0
    let old ← reads fun s => selAdrClnt h s s.scp.ds .edx
    snprintf (segoff2linear seg 0) MAX_DOS_PATH old
    setRmEs (seg + 0x20)
    setRmLword .edi 0
    let new ← reads fun s => selAdrClnt h s s.scp.es .edi
    snprintf (segoff2linear (seg + 0x20) 0) MAX_DOS_PATH new) v
  rw [dosRename, run, final_bind, final_bind, final_reads_bind, final_bind, final_snprintf, final_bind,
    final_bind, final_reads_bind, final_snprintf]
  exact ⟨trace, rfl⟩

theorem pathsSent_rename (host : SteadyHost h) {s : State σ} (rename : s.ah = 0x56) :
    PathsSent h s (final (msdosPreExtender h 0x21) s).filled := by
  have fn : dosFn s.ah = .rename := by rw [rename]; rfl
  have paths : s.paths = [.dsDx, .esDi] := by rw [State.paths, pathRegs, fn]
  have other : s.ah ≠ 0x4b := by rw [rename]; decide
  have reached := reached_atSwitch h host s
  have goes : result (preDos h (dosFn s.ah) s.al) (s.atSwitch h 0x21) = .go false := by
    rw [fn]
    rfl
  have filled := filledFrom_path h (paths ▸ List.mem_cons_self) goes
  obtain ⟨trace, run⟩ := dosRename_eq h (s.atSwitch h 0x21)
  rw [fn, preDos, goOn, final_bind, final_pure, run] at filled
  generalize (final (msdosPreExtender h 0x21) s).filled = u at filled
  have words := filled.words
  have one := path_buffer h (s := s) (r := .dsDx) (by decide) other
  have two : s.path h .esDi = ⟨(s.path h .dsDx).copied, PathReg.esDi.client h s,
      segoff2linear (s.emmSeg + 0x20) 0⟩ := by
    have seg : s.pathSeg .esDi = s.emmSeg + 0x20 := by rw [State.pathSeg, if_neg other, if_pos rfl]
    rw [← seg]
    rfl
  have mem : u.mem = (s.path h .esDi).copied := by
    rw [filled.mem, reached.mem, reached.buffer, reached.path, reached.path, two, one]
    rfl
  constructor
  · intro r passed
    rw [paths] at passed
    rcases List.mem_pair.mp passed with rfl | rfl
    · rw [PathReg.passed, filled.ds, words, reached.buffer, one]
      simp [State.handed, RealModeCallStructure.lword, setGpr]
    · rw [PathReg.passed, filled.es, words, reached.buffer, two]
      simp [State.handed, RealModeCallStructure.lword, setGpr]
  · intro b area
    have lfn := (answersBehind_of_area area).1
    simp [answersBehind, rename] at lfn
  · intro r passed a outside
    rw [paths] at passed
    rcases List.mem_pair.mp passed with rfl | rfl
    · rw [one]
      exact entryMem_agree h s a outside.1
    · rw [two]
      exact path_agree h (by decide) a ⟨outside.1, outside.2 rfl⟩
  · intro r passed short
    rw [paths] at passed
    rcases List.mem_pair.mp passed with rfl | rfl
    · rintro a ⟨inSlot, -⟩
      have second : PathReg.esDi ∈ s.paths := paths ▸ List.mem_cons_of_mem _ List.mem_cons_self
      have outside : ¬(s.path h .esDi).written.Covers a := fun covered =>
        slots_apart h s rename a inSlot (StringCopy.written_within (short rfl second) a covered)
      rw [mem, StringCopy.copied_agree a outside, two]
    · rw [mem]
      exact .refl _
  · intro a differs
    by_contra untouched
    simp only [not_or, not_exists, not_and] at untouched
    obtain ⟨written, rest, -⟩ := untouched
    apply differs
    have first := written .dsDx (paths ▸ List.mem_cons_self)
    have second := written .esDi (paths ▸ List.mem_cons_of_mem _ List.mem_cons_self)
    rw [mem, StringCopy.copied_agree a second, two]
    exact path_agree h (by decide) a ⟨fun b target => rest b (List.mem_append_right _ target), first⟩

/-! ### EXEC -/

def namePointer (s : State σ) : Word × Option Word := (s.rmreg.ds, s.handed .edx)

theorem dosExec_pointer (v : State σ) :
    namePointer (final (dosExec h) v) = (v.client.lowmemSeg + EXEC_Para_ADD, some 0) := by
  have memory (f : Memory → Memory) : Moves (Keeps namePointer) (setMem f : M σ Unit) := fun _ => rfl
  have es (seg : Word) : Moves (Keeps namePointer) (setRmEs seg : M σ Unit) := fun s => by
    simp [Keeps, namePointer, setRmEs, State.handed, RealModeCallStructure.lword]
  have ebx (word : Word) : Moves (Keeps namePointer) (setRmLword .ebx word : M σ Unit) := fun s => by
    simp [Keeps, namePointer, setRmLword, State.handed, RealModeCallStructure.lword, setGpr]
  have frame (flags cs ip : Word) : Moves (Keeps namePointer) (rmDoIntTo flags cs ip : M σ Unit) := fun s => by
    simp [Keeps, namePointer, rmDoIntTo, rmDoInt, setRmregs, State.handed, RealModeCallStructure.lword]
  have named : namePointer (final (fillName h) v) = (v.client.lowmemSeg + EXEC_Para_ADD, some 0) := by
    have edx : (final (fillName h) v).handed .edx = some 0 := by
      refine Eq.trans ?_ (handed_setRmLword .edx 0 (final (setRmDs (v.client.lowmemSeg + EXEC_Para_ADD)) v))
      rfl
    exact Prod.ext rfl edx
  have filled : namePointer (final (fillExec h) v) = (v.client.lowmemSeg + EXEC_Para_ADD, some 0) := by
    rw [fillExec, final_bind, final_bind, final_pure]
    exact (moves_fillParameters h memory es ebx _ _).trans named
  have jump (rma : Far) : Moves (Keeps namePointer) (do
      restoreEnv h
      let flags ← reads fun s => loWord s.scp.eflags
      rmDoIntTo flags rma.segment rma.offset) := by
    refine Moves.bind (moves_restoreEnv h memory) fun _ => Moves.bind (moves_reads _) fun flags => ?_
    exact frame _ _ _
  rw [dosExec_eq, final_bind]
  exact (jump _ _).trans filled

theorem pathsSent_exec (host : SteadyHost h) {s : State σ} (exec : s.ah = 0x4b) :
    PathsSent h s (final (msdosPreExtender h 0x21) s).filled := by
  have fn : dosFn s.ah = .exec := by rw [exec]; rfl
  have paths := paths_exec exec
  have ah : hiByte (s.scp.lword .eax) = 0x4b := exec
  have unmirrored : mirrorsDta 0x21 s = false := by simp [mirrorsDta, usesDta, ah]
  have unlisted := needXbuf_exec ah
  have entry := atSwitch_entered h unlisted unmirrored
  have goes : result (preDos h (dosFn s.ah) s.al) (s.atSwitch h 0x21) = .go true := by
    rw [fn]
    rfl
  have filled := filledFrom_path h (paths ▸ List.mem_cons_self) goes
  rw [fn, preDos, goOn, final_bind, final_pure, entry] at filled
  have pointer := dosExec_pointer h s.entered
  have path : s.path h .dsDx = ⟨s.mem, PathReg.dsDx.client h s,
      segoff2linear (s.client.lowmemSeg + EXEC_Para_ADD) 0⟩ := by
    have seg : s.pathSeg .dsDx = s.client.lowmemSeg + EXEC_Para_ADD := if_pos exec
    have source : s.entryMem h = s.mem := by rw [State.entryMem, unmirrored]; rfl
    show s.firstPath h .dsDx = _
    rw [State.firstPath, seg, source]
  have only {r : PathReg} (passed : r ∈ s.paths) : r = .dsDx := by
    rw [paths] at passed
    exact List.mem_singleton.mp passed
  have changes : AgreeOn (fun a => ¬(s.path h .dsDx).written.Covers a ∧
      (∀ b ∈ s.parameters, ¬b.Covers a) ∧ ¬s.Restored h a) s.mem
      (final (msdosPreExtender h 0x21) s).filled.mem := by
    refine (spares_pre host unlisted ?_ rfl).2.2.2
    have none : dtaTargets 0x21 s = [] := by rw [dtaTargets, unmirrored]; rfl
    rw [preTargets, none, if_neg (by decide), if_pos rfl, show dosFn (hiByte (s.scp.lword .eax)) = .exec from fn]
    intro b listed a outside
    obtain ⟨written, parameters, restored⟩ := outside
    rw [State.parameters, if_pos exec] at parameters
    simp only [DosFn.targets, List.nil_append, List.cons_append, List.mem_cons, List.mem_append,
      List.not_mem_nil, or_false] at listed
    rcases listed with rfl | parameter | rfl
    · rw [path] at written
      exact written
    · exact parameters b parameter
    · exact fun covered => restored ⟨exec, covered⟩
  generalize (final (msdosPreExtender h 0x21) s).filled = u at filled changes
  constructor
  · intro r passed
    obtain rfl := only passed
    have ds := congrArg Prod.fst pointer
    have dx := congrArg Prod.snd pointer
    simp only [namePointer] at ds dx
    rw [PathReg.passed, filled.ds, filled.words, ds, dx, path]
    rfl
  · intro b area
    have lfn := (answersBehind_of_area area).1
    simp [answersBehind, exec] at lfn
  · intro r passed
    obtain rfl := only passed
    rw [path]
    exact .refl _
  · intro r passed _
    obtain rfl := only passed
    have area : Clear (fun a => ((s.path h .dsDx).slot MAX_DOS_PATH).Covers a ∧ ¬s.Restored h a)
        (execBlocks s.entered.client.lowmemSeg) := fun b listed a inside =>
      (slot_apart_parameters h s exec listed).1 a inside.1
    have env : Clear (fun a => ((s.path h .dsDx).slot MAX_DOS_PATH).Covers a ∧ ¬s.Restored h a)
        [envBlock (dosGetPsp h s.entered)] := by
      refine clear_cons.mpr ⟨fun a inside covered => ?_, clear_nil⟩
      exact inside.2 ⟨exec, covered⟩
    have same := (spares_afterExecName host area env (fillName_places host s.entered)).2.2.2
    rw [fillName_mem host] at same
    rw [filled.mem, path]
    rw [path] at same
    exact same
  · intro a differs
    by_contra untouched
    simp only [not_or, not_exists, not_and] at untouched
    obtain ⟨written, parameters, restored⟩ := untouched
    apply differs
    refine changes a ⟨written .dsDx (paths ▸ List.mem_cons_self), fun b listed => ?_, restored⟩
    exact parameters b (List.mem_append_left _ listed)

theorem pathsSent_pre (host : SteadyHost h) {s : State σ} (service : s.paths ≠ []) :
    PathsSent h s (final (msdosPreExtender h 0x21) s).filled := by
  by_cases exec : s.ah = 0x4b
  · exact pathsSent_exec h host exec
  by_cases rename : s.ah = 0x56
  · exact pathsSent_rename h host rename
  have one : ∃ r, s.paths = [r] := by
    rw [State.paths, pathRegs] at service ⊢
    cases fn : dosFn s.ah with
    | asciiz | exec | extendedOpen => exact ⟨_, rfl⟩
    | rename => exact absurd (dosFn_rename fn) rename
    | lfn =>
      rw [fn] at service
      simp only at service ⊢
      split_ifs at service ⊢
      · exact ⟨_, rfl⟩
      · exact ⟨_, rfl⟩
      · exact absurd rfl service
    | _ =>
      rw [fn] at service
      exact absurd rfl service
  obtain ⟨r, one⟩ := one
  exact pathsSent_one h host one exec

/-- Short paths are in their slots, and paths in their slots are short: of what EXEC writes besides, only the
word of the PSP could put an end to a longer one. -/
theorem paths_in_slots_iff (host : SteadyHost h) {s : State σ} (service : s.paths ≠ [])
    (lowmem : s.ah = 0x4b → s.client.lowmemSeg.toNat + 38 ≤ 0x10000) :
    (ShortPaths h s → PathsInSlots h s (final (msdosPreExtender h 0x21) s).filled) ∧
      ((∀ r ∈ s.paths, ¬s.Restored h ((s.path h r).dst + BitVec.ofNat 32 (MAX_DOS_PATH - 1))) →
        PathsInSlots h s (final (msdosPreExtender h 0x21) s).filled → ShortPaths h s) := by
  have sent := pathsSent_pre h host service
  constructor
  · exact fun short => pathsInSlots_of_sent h sent short lowmem
  · exact short_of_pathsInSlots h sent

def programClient (name : Memory) : State Bump :=
  { bumpStart with
    mem := name
    scp := { bumpStart.scp with gpr := fun | .eax => 0x4b00 | .edx => 0x5000 | _ => 0 }
    clients := fun _ => { MsdosStruct.zero with lowmemSeg := 0x1000 } }

def shortExec : State Bump := programClient (store (fun _ => 0) 0x5000 [0x41, 0x2e, 0x42])

theorem paths_in_slots_exec :
    PathsInSlots bumpHost shortExec (final (msdosPreExtender bumpHost 0x21) shortExec).filled := by
  refine (paths_in_slots_iff bumpHost steadyHost_bump (by decide) fun _ => by decide).1 ?_
  intro r passed
  have listed : r ∈ [PathReg.dsDx] := passed
  obtain rfl := List.mem_singleton.mp listed
  have ends : (shortExec.path bumpHost .dsDx).length ≤ 3 := strlen_le (by decide +kernel)
  exact Nat.lt_of_le_of_lt ends (by decide)

def longExec : State Bump := programClient (fill (fun _ => 0) 0x5000 0x61 300)

/-- The byte behind the slot and the rest of the paragraph are overwritten. The parameter block, which is laid
out over the name's end, cuts it off: DOS finds 272 characters. -/
theorem paths_in_slots_overrun :
    let u := (final (msdosPreExtender bumpHost 0x21) longExec).filled
    longExec.mem 0x10184 = 0 ∧ u.mem 0x10184 = 0x61 ∧ strlen u.mem 0x10080 = 272 ∧
      ¬PathsInSlots bumpHost longExec u := by
  intro u
  have behind : u.mem 0x10184 = 0x61 := by decide +kernel
  have characters : ∀ i < 272, u.mem (0x10080 + BitVec.ofNat 32 i) = 0x61 := by decide +kernel
  have cut : u.mem (0x10080 + BitVec.ofNat 32 272) = 0 := by decide +kernel
  refine ⟨by decide, behind, ?_, fun slots => ?_⟩
  · apply Nat.le_antisymm
    · exact strlen_le cut
    · refine le_strlen (fun i inside => ?_) (by decide)
      rw [characters i inside]
      decide
  · obtain ⟨n, inside, -, -, ends⟩ := slots.found .dsDx (by decide)
    have start : (longExec.path bumpHost .dsDx).dst = 0x10080 := by decide
    have psp : envBlock (dosGetPsp bumpHost longExec) = ⟨0x2c, 2⟩ := by decide
    have elsewhere : ¬longExec.Restored bumpHost (0x10080 + BitVec.ofNat 32 n) := by
      rintro ⟨-, covered⟩
      rw [psp] at covered
      simp only [Block.Covers, offset, MAX_DOS_PATH] at covered inside
      bv_omega
    rw [start, characters n (Nat.lt_trans inside (by decide))] at ends
    cases ends elsewhere

end Pmdapi
