import Pmdapi.Library.Alu
import Pmdapi.Library.DownStack
import Pmdapi.Library.Processor

/-!
A processor that runs assembly code: moves, the stack, calls and returns. An operand is 32 bits wide or
16, and so is the pointer of a stack. Privileges, limits and what is undefined are left out.
-/

namespace Pmdapi.X86
open Bytes

/-- Where segments start, and which of them hold stacks with a 32-bit pointer. -/
structure Segments where
  base : Word → Dword
  big : Word → Bool

structure Processor where
  regs : Context
  mem : Memory

inductive Operand where
  | reg (r : BitVec 3)
  | imm (v : Dword)
  | mem (addr32 : Bool) (seg : SegReg) (index : Option (BitVec 3)) (disp : Dword)
  deriving DecidableEq

inductive Plain where
  | mov (wide : Bool) (dst src : Operand)
  | movByte (r : BitVec 3) (v : Byte)
  | movzx (r : BitVec 3) (src : Operand)
  | movFromSeg (dst : Operand) (seg : SegReg)
  | movToSeg (seg : SegReg) (src : Operand)
  | push (wide : Bool) (src : Operand)
  | pop (wide : Bool) (dst : Operand)
  | pushSeg (wide : Bool) (seg : SegReg)
  | popSeg (wide : Bool) (seg : SegReg)
  | pusha
  | popa
  | pushf (wide : Bool)
  | popf (wide : Bool)
  | add (wide : Bool) (dst src : Operand)
  | sub (wide : Bool) (dst src : Operand)
  | cmp (wide : Bool) (dst src : Operand)
  | lss (src : Operand)
  | enter (n : Dword)
  | leave
  deriving DecidableEq

def espReg : BitVec 3 := 4

def ebpReg : BitVec 3 := 5

def setPart (wide : Bool) (d v : Dword) : Dword := if wide then v else setLow d (low v)

/-! ## Flags -/

def setFlag (d : Dword) (i : Nat) (b : Bool) : Dword :=
  if b then d ||| (1 : Dword) <<< i else d &&& ~~~((1 : Dword) <<< i)

theorem setFlag_self (d : Dword) {i : Nat} (small : i < 32) (b : Bool) : (setFlag d i b).getLsbD i = b := by
  cases b <;> simp [setFlag, small]

def FlagEffect.value (effect : FlagEffect) (before : Bool) : Bool :=
  match effect with
  | .becomes value => value
  | _ => before

def AluResult.flags {w : Nat} (r : AluResult w) (d : Dword) : Dword :=
  setFlag (setFlag (setFlag (setFlag (setFlag (setFlag d 0 (r.carry.value (d.getLsbD 0))) 2 r.parity)
    4 (r.adjust.value (d.getLsbD 4))) 7 r.sign) 11 r.overflow) 6 r.zero

theorem AluResult.flags_zero {w : Nat} (r : AluResult w) (d : Dword) : (r.flags d).getLsbD 6 = r.zero :=
  setFlag_self _ (by decide) _

def flagsOf (op : AluOp) (wide : Bool) (a b d : Dword) : Dword :=
  if wide then (op.run a b false).flags d else (op.run (low a) (low b) false).flags d

/-! ## Stack pointers -/

/-- A stack pointer of either width moved down by `n`; a narrow one keeps the upper half of ESP. -/
def below (big : Bool) (esp n : Dword) : Dword := if big then esp - n else setLow esp (low esp - low n)

def above (big : Bool) (esp n : Dword) : Dword := if big then esp + n else setLow esp (low esp + low n)

def pointed (big : Bool) (esp : Dword) : Dword := if big then esp else (low esp).setWidth 32

section

variable (S : Segments)

namespace Processor

variable (p : Processor)

def big : Bool := S.big (p.regs.seg .ss)

def stackTop : Dword := S.base (p.regs.seg .ss) + pointed (p.big S) (p.regs.gpr espReg)

def lower (n : Dword) : Processor :=
  { p with regs := p.regs.withGpr espReg (below (p.big S) (p.regs.gpr espReg) n) }

def raise (n : Dword) : Processor :=
  { p with regs := p.regs.withGpr espReg (above (p.big S) (p.regs.gpr espReg) n) }

def push (wide : Bool) (v : Dword) : Processor :=
  let q := p.lower S (BitVec.ofNat 32 (itemSize wide))
  { q with mem := writeItem wide p.mem (q.stackTop S) v }

def top (wide : Bool) : Dword := readItem wide p.mem (p.stackTop S)

def drop (wide : Bool) : Processor := p.raise S (BitVec.ofNat 32 (itemSize wide))

/-- A doubleword popped into a register, as POPA does it: what stands for ESP is not used. -/
def popInto (r : BitVec 3) : Processor :=
  let q := p.drop S true
  if r = espReg then q else { q with regs := q.regs.withGpr r (p.top S true) }

end Processor

namespace Operand

variable (p : Processor)

def address (addr32 : Bool) (seg : SegReg) (index : Option (BitVec 3)) (disp : Dword) : Dword :=
  let start := (index.map p.regs.gpr).getD 0 + disp
  S.base (p.regs.seg seg) + if addr32 then start else (low start).setWidth 32

def read (wide : Bool) : Operand → Dword
  | reg r => cutItem wide (p.regs.gpr r)
  | imm v => cutItem wide v
  | mem addr32 seg index disp => readItem wide p.mem (address S p addr32 seg index disp)

def write (wide : Bool) (v : Dword) : Operand → Processor
  | reg r => { p with regs := p.regs.withGpr r (setPart wide (p.regs.gpr r) v) }
  | imm _ => p
  | mem addr32 seg index disp =>
    { p with mem := writeItem wide p.mem (address S p addr32 seg index disp) v }

end Operand

/-- A segment register to a register fills it; to memory it is a word. -/
def storeSeg (p : Processor) (v : Word) (dst : Operand) : Processor :=
  match dst with
  | .reg _ => dst.write S p true (v.setWidth 32)
  | _ => dst.write S p false (v.setWidth 32)

/-- A far pointer in memory: an offset of either width, and behind it a segment. -/
def loadFar (wide : Bool) (p : Processor) : Operand → Dword × Word
  | .mem addr32 seg index disp =>
    let a := Operand.address S p addr32 seg index disp
    (readItem wide p.mem a, readWord p.mem (a + BitVec.ofNat 32 (itemSize wide)))
  | _ => (0, 0)

/-- The registers in the order of PUSHA, with ESP as it was. -/
def generalRegs (c : Context) : List Dword := [0, 1, 2, 3, 4, 5, 6, 7].map c.gpr

def Plain.exec (p : Processor) : Plain → Processor
  | mov wide dst src => dst.write S p wide (src.read S p wide)
  | movByte r v => { p with regs := p.regs.withGpr r ((p.regs.gpr r).extractLsb' 8 24 ++ v) }
  | movzx r src => { p with regs := p.regs.withGpr r (src.read S p false) }
  | movFromSeg dst seg => storeSeg S p (p.regs.seg seg) dst
  | movToSeg seg src => { p with regs := p.regs.withSeg seg (low (src.read S p false)) }
  | push wide src => p.push S wide (src.read S p wide)
  -- the address is that of the raised stack pointer
  | pop wide dst => dst.write S (p.drop S wide) wide (p.top S wide)
  | pushSeg wide seg => p.push S wide ((p.regs.seg seg).setWidth 32)
  | popSeg wide seg =>
    let q := p.drop S wide
    { q with regs := q.regs.withSeg seg (low (p.top S wide)) }
  | pusha => (generalRegs p.regs).foldl (Processor.push S · true) p
  | popa => [7, 6, 5, 4, 3, 2, 1, 0].foldl (Processor.popInto S) p
  | pushf wide => p.push S wide p.regs.eflags
  | popf wide =>
    let q := p.drop S wide
    { q with regs := { q.regs with eflags := setPart wide q.regs.eflags (p.top S wide) } }
  | add wide dst src =>
    let a := dst.read S p wide
    let b := src.read S p wide
    let q := dst.write S p wide (a + b)
    { q with regs := { q.regs with eflags := flagsOf .add wide a b p.regs.eflags } }
  | sub wide dst src =>
    let a := dst.read S p wide
    let b := src.read S p wide
    let q := dst.write S p wide (a - b)
    { q with regs := { q.regs with eflags := flagsOf .sub wide a b p.regs.eflags } }
  | cmp wide dst src =>
    { p with regs := { p.regs with
      eflags := flagsOf .cmp wide (dst.read S p wide) (src.read S p wide) p.regs.eflags } }
  | lss src =>
    let far := loadFar S true p src
    { p with regs := (p.regs.withGpr espReg far.1).withSeg .ss far.2 }
  | enter n =>
    let q := p.push S true (p.regs.gpr ebpReg)
    let q := { q with regs := q.regs.withGpr ebpReg (q.regs.gpr espReg) }
    q.lower S n
  | leave =>
    let q := { p with regs := p.regs.withGpr espReg (p.regs.gpr ebpReg) }
    { q.drop S true with regs := (q.drop S true).regs.withGpr ebpReg (q.top S true) }

/-! ## Programs -/

/-- A place in a program: a label and a number of instructions behind it. -/
structure Position (Label : Type) where
  label : Label
  index : Nat

def Position.next {Label : Type} (here : Position Label) : Position Label := ⟨here.label, here.index + 1⟩

inductive Instruction (Label : Type) where
  | plain (i : Plain)
  | call (target : Position Label)
  | callAt (src : Operand)
  | lcallAt (wide : Bool) (src : Operand)
  | jmp (target : Position Label)
  | je (target : Position Label)
  | jne (target : Position Label)
  | ret
  | lret (wide : Bool) (n : Dword)
  | iret (wide : Bool)

structure Layout {Label : Type} (code : Label → List (Instruction Label)) where
  place : Position Label → Dword
  fetch : Dword → Option (Position Label)
  found : ∀ l k, k < (code l).length → fetch (place ⟨l, k⟩) = some ⟨l, k⟩

variable {Label : Type} {code : Label → List (Instruction Label)} (layout : Layout code)

def Processor.jumpTo (p : Processor) (eip : Dword) : Processor :=
  { p with regs := { p.regs with eip := eip } }

def Instruction.exec (here : Position Label) (p : Processor) : Instruction Label → Processor
  | plain i => (i.exec S p).jumpTo (layout.place here.next)
  | call target => (p.push S true (layout.place here.next)).jumpTo (layout.place target)
  | callAt src => (p.push S true (layout.place here.next)).jumpTo (src.read S p true)
  | lcallAt wide src =>
    let far := loadFar S wide p src
    let q := ((p.push S wide ((p.regs.seg .cs).setWidth 32)).push S wide (layout.place here.next)).jumpTo far.1
    { q with regs := q.regs.withSeg .cs far.2 }
  | jmp target => p.jumpTo (layout.place target)
  | je target => p.jumpTo (layout.place (if p.regs.eflags.getLsbD 6 then target else here.next))
  | jne target => p.jumpTo (layout.place (if p.regs.eflags.getLsbD 6 then here.next else target))
  | ret => (p.drop S true).jumpTo (p.top S true)
  | lret wide n =>
    let q := p.drop S wide
    let r := ((q.drop S wide).raise S n).jumpTo (p.top S wide)
    { r with regs := r.regs.withSeg .cs (low (q.top S wide)) }
  | iret wide =>
    let q := p.drop S wide
    let r := q.drop S wide
    let t := (r.drop S wide).jumpTo (p.top S wide)
    { t with regs := { t.regs.withSeg .cs (low (q.top S wide)) with
      eflags := setPart wide t.regs.eflags (r.top S wide) } }

/-- One instruction; there is none where the code of others stands. -/
def stepCode (p : Processor) : Option Processor := do
  let here ← layout.fetch p.regs.eip
  let i ← (code here.label)[here.index]?
  return i.exec S layout here p

def runCode : Nat → Processor → Option Processor
  | 0, p => some p
  | n + 1, p => do runCode n (← stepCode S layout p)

end

end Pmdapi.X86
