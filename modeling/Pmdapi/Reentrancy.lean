import Pmdapi.Entry
import Pmdapi.Library.Trace

/-!
Activations of the resident module, nested in each other through the calls of their handlers. The
single slots serve one activation at a time.
-/

namespace Pmdapi
open Bytes Effect

/-- What is under way: an activation whose handler runs, or a call that a handler made, with its own
registers. -/
inductive Live where
  | frame (f : Frame)
  | call (r : Registers)

/-- The registers, the slots, and what is under way, innermost first. -/
structure Machine where
  cpu : Registers
  statics : Statics
  live : List Live

/-- No handler runs here: the client does, or code that a handler called. -/
def Outside (live : List Live) : Prop := ∀ f rest, live ≠ .frame f :: rest

inductive Activity where
  | enter (e : ModuleEntry) (eip cs : Dword)
  | handler
  | outside
  | call
  | back
  | leave
  deriving DecidableEq, Repr

section

variable (base : Word → Dword) (moduleBase stackTop afterInt21 : Dword)

/-- A handler may change its `scp`. `int21_handler` changes no EIP and CS. -/
def HandlerMay (f : Frame) (scp : SigFrame) : Prop :=
  f.entry ≠ .stub → scp.eip = f.scp.eip ∧ scp.cs = f.scp.cs

/-- One step of a well-nested run. A handler is compiled code: it comes back to its frame by itself,
and then `tmp_ebp` says where the frame is. -/
inductive Activates : Machine → Activity → Machine → Prop where
  | enter {s : Machine} (e : ModuleEntry) (eip cs : Dword) {st : Statics} {f : Frame}
    (outside : Outside s.live)
    (entered : enterFrame base moduleBase stackTop afterInt21 e s.cpu eip cs s.statics = (st, f)) :
    Activates s (.enter e eip cs) ⟨handlerRegisters f s.cpu st, st, .frame f :: s.live⟩
  | handler {s : Machine} {f : Frame} {rest : List Live} (top : s.live = .frame f :: rest)
    (cpu : Registers) (scp : SigFrame) (stack : cpu.ss = f.ss) (may : HandlerMay f scp) :
    Activates s .handler ⟨cpu, s.statics, .frame { f with scp := scp } :: rest⟩
  | outside {s : Machine} (outside : Outside s.live) (cpu : Registers) (dseg32 : Word)
    (same : base dseg32 = moduleBase) :
    Activates s .outside ⟨cpu, { s.statics with dseg32 := dseg32 }, s.live⟩
  | call {s : Machine} {f : Frame} {rest : List Live} (top : s.live = .frame f :: rest) {st : Statics}
    {cpu : Registers} (began : beginCall base moduleBase f.scp s.cpu s.statics = (st, cpu)) :
    Activates s .call ⟨cpu, st, .call s.cpu :: .frame f :: rest⟩
  | back {s : Machine} {r : Registers} {f : Frame} {rest : List Live}
    (top : s.live = .call r :: .frame f :: rest) {st : Statics} {cpu : Registers} {scp : SigFrame}
    (ended : endCall base moduleBase s.cpu s.statics = (st, cpu, scp)) :
    Activates s .back ⟨cpu, st, .frame { f with scp := scp } :: rest⟩
  | leave {s : Machine} {f : Frame} {rest : List Live} (top : s.live = .frame f :: rest)
    (cpu : Registers) (resumed : s.statics.tmpEbp = f.ebp → ∃ flags, cpu = leaveFrame f flags) :
    Activates s .leave ⟨cpu, { s.statics with tmpFlags := f.scp.regs.eflags }, rest⟩

def Overlap (f g : Frame) : Prop := ∃ a, f.Occupies base a ∧ g.Occupies base a

/-- What an activation has to resume with: the registers of its own context, on the stack it started
on. Of a 16-bit stack pointer the low word counts. -/
structure Resumes (f : Frame) (cpu : Registers) : Prop where
  eax : cpu.eax = f.scp.regs.eax
  ebx : cpu.ebx = f.scp.regs.ebx
  ecx : cpu.ecx = f.scp.regs.ecx
  edx : cpu.edx = f.scp.regs.edx
  ebp : cpu.ebp = f.scp.regs.ebp
  esi : cpu.esi = f.scp.regs.esi
  edi : cpu.edi = f.scp.regs.edi
  ds : cpu.ds = f.scp.regs.ds
  es : cpu.es = f.scp.regs.es
  fs : cpu.fs = f.scp.regs.fs
  gs : cpu.gs = f.scp.regs.gs
  ss : cpu.ss = f.start.ss
  esp : if f.entry = .int21 false then cpu.esp.setWidth 16 = f.start.esp.setWidth 16
    else cpu.esp = f.start.esp
  eflags : f.entry ≠ .stub → cpu.eflags = f.scp.regs.eflags

def ActivityServed (s : Machine) (l : Activity) (t : Machine) : Prop :=
  match l with
  -- a frame on the private stack overwrites no live one
  | .enter _ _ _ => ∀ f, t.live = .frame f :: s.live → f.switched = true →
      ∀ g, .frame g ∈ s.live → ¬ Overlap base f g
  -- the caller has its registers back, and in its context those of its own call
  | .back => ∀ r f rest, s.live = .call r :: .frame f :: rest →
      t.cpu = r ∧ t.statics.savedContext.regs = r ∧
        t.live = .frame { f with scp := { f.scp with
          regs := { s.cpu with esp := f.scp.regs.esp, ss := f.scp.regs.ss } } } :: rest
  | .leave => ∀ f rest, s.live = .frame f :: rest → s.statics.tmpEbp = f.ebp ∧ Resumes f t.cpu
  | _ => True

/-- The condition on an entry: nothing is under way, and a stub runs on a stack segment that starts
where the module does. -/
def EntersAlone (s : Machine) : Activity → Prop
  | .enter e _ _ => s.live = [] ∧ (e = .stub → base s.cpu.ss = moduleBase)
  | _ => True

def Resident (s : Machine) : Prop := s.live = [] ∧ base s.statics.dseg32 = moduleBase

/-! ## The invariant -/

def KeepsStack (f : Frame) : Prop :=
  match f.entry with
  | .stub => f.ebp = f.start.esp - 4 ∧ f.ss = f.start.ss
  | .int21 is32 =>
    if f.switched then
      f.scp.cs = if is32 then f.start.esp - 16 else ((f.start.esp - 16).setWidth 16).setWidth 32
    else f.ebp = f.start.esp - 8 ∧ f.ss = f.start.ss

/-- The frame that `tmp_ebp` belongs to, on a stack segment that starts where the module does. -/
structure Owns (st : Statics) (f : Frame) : Prop where
  tmpEbp : st.tmpEbp = f.ebp
  stack : base f.ss = moduleBase
  keeps : KeepsStack f

def LiveAlone (s : Machine) : Prop :=
  match s.live with
  | [] => True
  | [.frame f] => Owns base moduleBase s.statics f ∧ s.cpu.ss = f.ss
  | [.call r, .frame f] => Owns base moduleBase s.statics f ∧ base r.ss = moduleBase ∧
      r.ss = f.ss ∧ s.statics.savedContext.regs = r ∧ s.statics.dosContext = f.scp
  | _ => False

def Alone (s : Machine) : Prop := base s.statics.dseg32 = moduleBase ∧ LiveAlone base moduleBase s

/-! ## One step -/

variable {base moduleBase stackTop afterInt21}

theorem enterFrame_owns {e : ModuleEntry} {r : Registers} {eip cs : Dword} {st st' : Statics} {f : Frame}
    (dseg : base st.dseg32 = moduleBase) (stub : e = .stub → base r.ss = moduleBase)
    (entered : enterFrame base moduleBase stackTop afterInt21 e r eip cs st = (st', f)) :
    Owns base moduleBase st' f ∧ base st'.dseg32 = moduleBase := by
  cases e with
  | stub =>
    obtain ⟨rfl, rfl⟩ := Prod.mk.inj entered
    exact ⟨⟨if_pos (stub rfl), stub rfl, rfl, rfl⟩, dseg⟩
  | int21 is32 =>
    obtain ⟨rfl, rfl⟩ := Prod.mk.inj entered
    by_cases same : r.ss = st.dseg32
    · have stack : base (if decide (r.ss ≠ st.dseg32) then st.dseg32 else r.ss) = moduleBase := by
        simp [same, dseg]
      refine ⟨⟨if_pos stack, stack, ?_⟩, dseg⟩
      simp [KeepsStack, same]
    · have stack : base (if decide (r.ss ≠ st.dseg32) then st.dseg32 else r.ss) = moduleBase := by
        simp [same, dseg]
      refine ⟨⟨if_pos stack, stack, ?_⟩, dseg⟩
      simp [KeepsStack, same, doInt]

theorem handlerMay_keeps {f : Frame} {scp : SigFrame} (may : HandlerMay f scp) (keeps : KeepsStack f) :
    KeepsStack { f with scp := scp } := by
  unfold KeepsStack at keeps ⊢
  unfold HandlerMay at may
  cases entry : f.entry with
  | stub => simpa [entry] using keeps
  | int21 is32 =>
    rw [entry] at may
    have cs := (may nofun).2
    simp only [entry] at keeps ⊢
    rw [cs]
    exact keeps

/-- The low word of a stack pointer comes back from the private stack. -/
theorem lowWord_back (esp : Dword) :
    ((((esp - 16).setWidth 16).setWidth 32 + 16 : Dword)).setWidth 16 = esp.setWidth 16 := by
  apply BitVec.eq_of_toNat_eq
  simp only [BitVec.toNat_setWidth, BitVec.toNat_add, BitVec.toNat_sub]
  have sixteen : (16 : Dword).toNat = 16 := rfl
  rw [sixteen]
  omega

theorem leaveFrame_resumes {f : Frame} (keeps : KeepsStack f) (flags : Dword) :
    Resumes f (leaveFrame f flags) := by
  obtain ⟨entry, start, switched, ss, ebp, scp⟩ := f
  cases entry with
  | stub =>
    obtain ⟨rfl, rfl⟩ : ebp = start.esp - 4 ∧ ss = start.ss := keeps
    refine ⟨rfl, rfl, rfl, rfl, rfl, rfl, rfl, rfl, rfl, rfl, rfl, rfl, ?_, fun other => absurd rfl other⟩
    rw [if_neg nofun]
    exact BitVec.sub_add_cancel start.esp 4
  | int21 is32 =>
    cases switched with
    | false =>
      obtain ⟨rfl, rfl⟩ : ebp = start.esp - 8 ∧ ss = start.ss := keeps
      have esp : (leaveFrame ⟨.int21 is32, start, false, start.ss, start.esp - 8, scp⟩ flags).esp =
          start.esp := BitVec.sub_add_cancel start.esp 8
      refine ⟨rfl, rfl, rfl, rfl, rfl, rfl, rfl, rfl, rfl, rfl, rfl, rfl, ?_, fun _ => rfl⟩
      split
      · rw [esp]
      · exact esp
    | true =>
      have cs : scp.cs = if is32 then start.esp - 16
        else ((start.esp - 16).setWidth 16).setWidth 32 := keeps
      refine ⟨rfl, rfl, rfl, rfl, rfl, rfl, rfl, rfl, rfl, rfl, rfl, rfl, ?_, fun _ => rfl⟩
      show if _ then (scp.cs + 16).setWidth 16 = _ else scp.cs + 16 = _
      rw [cs]
      cases is32 with
      | false => exact lowWord_back start.esp
      | true => exact BitVec.sub_add_cancel start.esp 16

theorem alone_frame {s : Machine} (live : LiveAlone base moduleBase s) {f : Frame} {rest : List Live}
    (top : s.live = .frame f :: rest) :
    rest = [] ∧ Owns base moduleBase s.statics f ∧ s.cpu.ss = f.ss := by
  rw [LiveAlone, top] at live
  cases rest with
  | nil => exact ⟨rfl, live⟩
  | cons _ _ => exact live.elim

theorem alone_call {s : Machine} (live : LiveAlone base moduleBase s) {r : Registers} {rest : List Live}
    (top : s.live = .call r :: rest) :
    ∃ f, rest = [.frame f] ∧ Owns base moduleBase s.statics f ∧ base r.ss = moduleBase ∧
      r.ss = f.ss ∧ s.statics.savedContext.regs = r ∧ s.statics.dosContext = f.scp := by
  rw [LiveAlone, top] at live
  match rest, live with
  | [.frame f], live => exact ⟨f, rfl, live⟩
  | [], live => exact live.elim
  | .call _ :: _, live => exact live.elim
  | .frame _ :: _ :: _, live => exact live.elim

/-- A step from one activation at most serves it, if it starts none inside it. -/
theorem activates_served {s t : Machine} {l : Activity} (alone : Alone base moduleBase s)
    (taken : Activates base moduleBase stackTop afterInt21 s l t) (right : EntersAlone base moduleBase s l) :
    Alone base moduleBase t ∧ ActivityServed base s l t := by
  obtain ⟨dseg, live⟩ := alone
  cases taken with
  | enter e eip cs outside entered =>
    obtain ⟨empty, stub⟩ := right
    obtain ⟨owns, dseg'⟩ := enterFrame_owns dseg stub entered
    constructor
    · rw [Alone, LiveAlone, empty]
      exact ⟨dseg', owns, rfl⟩
    · intro f _ _ g inside
      rw [empty] at inside
      cases inside
  | handler top cpu scp stack may =>
    obtain ⟨rfl, owns, -⟩ := alone_frame live top
    exact ⟨⟨dseg, ⟨owns.tmpEbp, owns.stack, handlerMay_keeps may owns.keeps⟩, stack⟩, trivial⟩
  | outside outside cpu dseg32 same =>
    refine ⟨⟨same, ?_⟩, trivial⟩
    cases top : s.live with
    | nil => trivial
    | cons first rest =>
      cases first with
      | frame f => exact absurd top (outside f rest)
      | call r =>
        obtain ⟨f, rfl, owns, called⟩ := alone_call live top
        exact ⟨⟨owns.tmpEbp, owns.stack, owns.keeps⟩, called⟩
  | call top began =>
    obtain ⟨rfl, owns, stack⟩ := alone_frame live top
    obtain ⟨rfl, rfl⟩ := Prod.mk.inj began
    have module : base s.cpu.ss = moduleBase := by rw [stack, owns.stack]
    refine ⟨⟨dseg, ⟨owns.tmpEbp, owns.stack, owns.keeps⟩, module, stack, ?_, rfl⟩, trivial⟩
    exact congrArg SigFrame.regs (if_pos module)
  | @back r f _ top _ _ _ ended =>
    obtain ⟨_, here, owns, module, stack, saved, dos⟩ := alone_call live top
    obtain ⟨same, rfl⟩ := List.cons.inj here
    obtain rfl := Live.frame.inj same
    have ends : endCall base moduleBase s.cpu s.statics =
        ({ s.statics with dosContext := { f.scp with
            regs := { s.cpu with esp := f.scp.regs.esp, ss := f.scp.regs.ss } } }, r,
          { f.scp with regs := { s.cpu with esp := f.scp.regs.esp, ss := f.scp.regs.ss } }) := by
      rw [endCall, saved, dos]
      simp only [if_pos module]
    obtain ⟨rfl, rest⟩ := Prod.mk.inj (ended.symm.trans ends)
    obtain ⟨rfl, rfl⟩ := Prod.mk.inj rest
    constructor
    · refine ⟨dseg, ⟨owns.tmpEbp, owns.stack, ?_⟩, stack⟩
      exact handlerMay_keeps (fun _ => ⟨rfl, rfl⟩) owns.keeps
    · intro r' f' rest' live'
      rw [top] at live'
      simp only [List.cons.injEq, Live.call.injEq, Live.frame.injEq] at live'
      obtain ⟨rfl, rfl, rfl⟩ := live'
      exact ⟨rfl, saved, rfl⟩
  | @leave f _ top cpu resumed =>
    obtain ⟨rfl, owns, -⟩ := alone_frame live top
    refine ⟨⟨dseg, trivial⟩, ?_⟩
    intro f' rest' live'
    rw [top] at live'
    obtain rfl := Live.frame.inj (List.cons.inj live').1
    obtain ⟨flags, rfl⟩ := resumed owns.tmpEbp
    exact ⟨owns.tmpEbp, leaveFrame_resumes owns.keeps flags⟩

/-! ## Whole runs -/

/-- In a run where every activation enters alone, every step serves the activations under way. -/
theorem activations_served {past : List (Machine × Activity)} {s t : Machine} {l : Activity}
    (run : Trace (Resident base moduleBase) (Activates base moduleBase stackTop afterInt21) past s)
    (right : ∀ p ∈ past, EntersAlone base moduleBase p.1 p.2)
    (next : Activates base moduleBase stackTop afterInt21 s l t) (last : EntersAlone base moduleBase s l) :
    ActivityServed base s l t := by
  have alone : Alone base moduleBase s := by
    apply Trace.invariant _ _ run right
    · rintro s ⟨empty, dseg⟩
      refine ⟨dseg, ?_⟩
      rw [LiveAlone, empty]
      trivial
    · intro s l t alone taken right
      exact (activates_served alone taken right).1
  exact (activates_served alone next last).2

/-- Frames on the private stack all stand at its top. -/
theorem switched_overlap {is32 is32' : Bool} {r r' : Registers} {eip eip' : Dword} {st st' : Statics}
    (away : r.ss ≠ st.dseg32) (away' : r'.ss ≠ st'.dseg32) (same : base st.dseg32 = base st'.dseg32) :
    Overlap base (enterInt21 base moduleBase stackTop afterInt21 is32 r eip st).2
      (enterInt21 base moduleBase stackTop afterInt21 is32' r' eip' st').2 := by
  refine ⟨base st.dseg32 + (stackTop - 8 - 8) - BitVec.ofNat 32 frameDepth, ?_, ?_⟩
  · simp only [Frame.Occupies, enterInt21, away, ne_eq, not_false_eq_true, decide_true, if_true, offset,
      BitVec.sub_self]
    exact Nat.lt_of_lt_of_le (by decide : (0#32).toNat < frameDepth) (Nat.le_add_right _ _)
  · simp only [Frame.Occupies, enterInt21, away', ne_eq, not_false_eq_true, decide_true, if_true, offset,
      ← same, BitVec.sub_self]
    exact Nat.lt_of_lt_of_le (by decide : (0#32).toNat < frameDepth) (Nat.le_add_right _ _)

end

/-! ### A nested client -/

def clientRegisters (ss : Word) : Registers :=
  ⟨0x2100, 0, 0, 0, 0x2000, 0x2040, 0, 0, 0x202, ss, ss, 0, 0, ss⟩

def residentStatics : Statics :=
  ⟨0, 0, 0, 0, 0x8f, ⟨clientRegisters 0x8f, 0, 0⟩, ⟨clientRegisters 0x8f, 0, 0⟩⟩

def resident : Machine := ⟨clientRegisters 0x97, residentStatics, []⟩

def int21Frame (r : Registers) (st : Statics) : Statics × Frame :=
  enterFrame (fun _ => 0) 0 0x8000 0x1000 (.int21 true) r 0 0 st

def handling : Machine :=
  let e := int21Frame (clientRegisters 0x97) residentStatics
  ⟨handlerRegisters e.2 (clientRegisters 0x97) e.1, e.1, [.frame e.2]⟩

def calling : Machine :=
  let f := (int21Frame (clientRegisters 0x97) residentStatics).2
  let b := beginCall (fun _ => 0) 0 f.scp handling.cpu handling.statics
  ⟨b.2, b.1, [.call handling.cpu, .frame f]⟩

def child : Machine := ⟨clientRegisters 0xa7, { calling.statics with dseg32 := 0x8f }, calling.live⟩

def nested : Machine :=
  let e := int21Frame (clientRegisters 0xa7) child.statics
  ⟨handlerRegisters e.2 child.cpu e.1, e.1, .frame e.2 :: child.live⟩

theorem outside_call (r : Registers) (rest : List Live) : Outside (.call r :: rest) := by
  intro f rest' same
  cases same

theorem resident_enters :
    Activates (fun _ => 0) 0 0x8000 0x1000 resident (.enter (.int21 true) 0 0) handling :=
  .enter (.int21 true) 0 0 nofun rfl

theorem activations_served_leave : ∃ f, handling.live = [.frame f] ∧
    handling.statics.tmpEbp = f.ebp ∧ Resumes f (leaveFrame f 0) := by
  obtain ⟨f, live⟩ : ∃ f, handling.live = [.frame f] := ⟨_, rfl⟩
  have run : Trace (Resident (fun _ => 0) 0) (Activates (fun _ => 0) 0 0x8000 0x1000)
      [(resident, .enter (.int21 true) 0 0)] handling := .step (.start ⟨rfl, rfl⟩) resident_enters
  have served := activations_served run
    (by
      intro p inside
      obtain rfl := List.mem_singleton.mp inside
      exact ⟨rfl, nofun⟩)
    (.leave live (leaveFrame f 0) fun _ => ⟨0, rfl⟩) trivial
  exact ⟨f, live, served f [] live⟩

/-- The code that the handler calls starts a second client, whose call of int 21h takes the first
one's frame. -/
theorem activations_overwritten : ¬ ∀ (base : Word → Dword) (moduleBase stackTop afterInt21 : Dword)
    (past : List (Machine × Activity)) (s t : Machine) (l : Activity),
    Trace (Resident base moduleBase) (Activates base moduleBase stackTop afterInt21) past s →
    Activates base moduleBase stackTop afterInt21 s l t → ActivityServed base s l t := by
  intro always
  have called : Activates (fun _ => 0) 0 0x8000 0x1000 handling .call calling := .call rfl rfl
  have started : Activates (fun _ => 0) 0 0x8000 0x1000 calling .outside child :=
    .outside (outside_call _ _) (clientRegisters 0xa7) 0x8f rfl
  have entered : Activates (fun _ => 0) 0 0x8000 0x1000 child (.enter (.int21 true) 0 0) nested :=
    .enter (.int21 true) 0 0 (outside_call _ _) rfl
  have served := always (fun _ => 0) 0 0x8000 0x1000 _ _ _ _
    (.step (.step (.step (.start ⟨rfl, rfl⟩) resident_enters) called) started) entered
  apply served _ rfl rfl _ (List.mem_cons_of_mem _ List.mem_cons_self)
  exact switched_overlap (by decide) (by decide) rfl

end Pmdapi
