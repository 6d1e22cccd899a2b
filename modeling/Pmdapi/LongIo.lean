import Pmdapi.Callbacks

/-! `rmhlp.S`: the real-mode loops behind int 21h/3Fh and 40h. They cut a 32-bit count into 16-bit
ones and call back for every chunk. -/

namespace Pmdapi
open Bytes

/-- What a loop does, in order. A reply of DOS is an error code or the bytes it moved. -/
inductive IoEvent where
  | dos (count : Word) (reply : Except Word (List Byte))
  | callback (al : Byte) (edi ecx : Dword)

/-- The processor in a loop, and what its calls work on. -/
structure RmHelper where
  regs : RealModeCallStructure
  carry : Bool
  stack : List Dword
  mem : Memory
  io : IoBuffer
  served : Nat
  log : List IoEvent

/-- DOS's answers to the requests of a read: a code, or no more data than asked for. -/
abbrev ReadOracle :=
  Nat → (count : Word) → Except Word { data : List Byte // data.length ≤ count.toNat }

/-- DOS's answers to the requests of a write: a code, or how many bytes it took. -/
abbrev WriteOracle := Nat → (count : Word) → Except Word { n : Word // n ≤ count }

namespace RmHelper

def reg (s : RmHelper) (r : Gpr) : Dword := s.regs.gpr r

def lword (s : RmHelper) (r : Gpr) : Word := s.regs.lword r

def movl (r : Gpr) (v : Dword) (s : RmHelper) : RmHelper :=
  { s with regs := { s.regs with gpr := setGpr s.regs.gpr r v } }

def movbAl (v : Byte) (s : RmHelper) : RmHelper :=
  s.movl .eax ((s.reg .eax).extractLsb' 8 24 ++ v)

def movbAh (v : Byte) (s : RmHelper) : RmHelper :=
  s.movl .eax ((s.reg .eax).extractLsb' 16 16 ++ (v ++ (s.reg .eax).extractLsb' 0 8))

def pushl (r : Gpr) (s : RmHelper) : RmHelper := { s with stack := s.reg r :: s.stack }

def popl (r : Gpr) (s : RmHelper) : RmHelper :=
  { s.movl r (s.stack.headD 0) with stack := s.stack.tail }

/-- `lcall` through the entry of the callback `RMCB_IO`. The handler leaves the registers alone. -/
def lcall (s : RmHelper) : RmHelper :=
  { s with
    io := (rmcbHandler s.io s.mem s.regs).1,
    mem := (rmcbHandler s.io s.mem s.regs).2,
    log := s.log ++ [.callback (loByte (s.lword .eax)) (s.reg .edi) (s.reg .ecx)] }

def dosPtr (s : RmHelper) : Dword := segoff2linear s.regs.ds (s.lword .edx)

def answered (s : RmHelper) (ax : Word) (carry : Bool) (reply : Except Word (List Byte)) : RmHelper :=
  { s.movl .eax (setLoWord (s.reg .eax) ax) with
    carry := carry, served := s.served + 1, log := s.log ++ [.dos (s.lword .ecx) reply] }

def int21Read (dos : ReadOracle) (s : RmHelper) : RmHelper :=
  match dos s.served (s.lword .ecx) with
  | .error code => s.answered code true (.error code)
  | .ok data =>
    { s.answered (BitVec.ofNat 16 data.val.length) false (.ok data.val) with
      mem := store s.mem s.dosPtr data.val }

def atDosPtr (s : RmHelper) (n : Nat) : List Byte :=
  (List.range n).map fun i => s.mem (s.dosPtr + BitVec.ofNat 32 i)

def int21Write (dos : WriteOracle) (s : RmHelper) : RmHelper :=
  match dos s.served (s.lword .ecx) with
  | .error code => s.answered code true (.error code)
  | .ok n => s.answered n.val false (.ok (s.atDosPtr n.val.toNat))

/-- From `start_read` or `start_write`: the rest in ESI, a count of at most FFFFh in ECX. -/
def cutCount (s : RmHelper) : RmHelper :=
  let s := s.movl .esi (s.reg .ecx)
  if s.reg .esi < 0x10000 then s else s.movl .ecx 0xffff

/-- `read_set_cf` and `write_set_cf`: an error after some data is not reported. -/
def setCf (s : RmHelper) : RmHelper :=
  if s.reg .edi ≠ 0 then s.movl .eax (s.reg .edi)
  else ((s.movl .ecx (s.reg .eax)).movbAl 2).lcall

def movzwl (s : RmHelper) : RmHelper := s.movl .eax (zext (s.lword .eax))

def addTotal (s : RmHelper) : RmHelper := s.movl .edi (s.reg .edi + s.reg .eax)

end RmHelper

/-- Where a pass leads: back to the head of the loop, or to `done_read` or `done_write`. -/
inductive Flow where
  | again (s : RmHelper)
  | done (s : RmHelper)

/-- From `cmpw %ax, %cx` to the end of the pass. -/
def RmHelper.advance (s : RmHelper) : Flow :=
  if s.lword .ecx ≠ s.lword .eax then .done s
  else
    let s := s.movl .ecx (s.reg .esi - s.reg .eax)
    if s.reg .ecx ≠ 0 then .again s else .done (s.movl .eax (s.reg .edi))

def runLoop (pass : RmHelper → Flow) : Nat → RmHelper → Option RmHelper
  | 0, _ => none
  | fuel + 1, s =>
    match pass s with
    | .again t => runLoop pass fuel t
    | .done t => some t

def RmHelper.enter (s : RmHelper) : RmHelper :=
  (((s.pushl .esi).pushl .edi).pushl .ecx).movl .edi 0

def RmHelper.leave (s : RmHelper) : RmHelper := ((s.popl .ecx).popl .edi).popl .esi

/-- The data passed up, AX and CX kept over the call. -/
def RmHelper.deliver (s : RmHelper) : RmHelper :=
  let s := (s.pushl .ecx).pushl .eax
  let s := ((s.movl .ecx (s.reg .eax)).movbAl 0).lcall
  (s.popl .eax).popl .ecx

def readPass (dos : ReadOracle) (s : RmHelper) : Flow :=
  let s := (s.cutCount.movbAh 0x3f).int21Read dos
  if s.carry then .done s.setCf else s.movzwl.deliver.addTotal.advance

def lrStart (dos : ReadOracle) (fuel : Nat) (s : RmHelper) : Option RmHelper :=
  (runLoop (readPass dos) fuel s.enter).map RmHelper.leave

def RmHelper.fetch (s : RmHelper) : RmHelper := (s.movbAl 1).lcall

def writePass (dos : WriteOracle) (s : RmHelper) : Flow :=
  let s := (s.cutCount.fetch.movbAh 0x40).int21Write dos
  if s.carry then .done s.setCf else s.movzwl.addTotal.advance

def lwStart (dos : WriteOracle) (fuel : Nat) (s : RmHelper) : Option RmHelper :=
  (runLoop (writePass dos) fuel s.enter).map RmHelper.leave

end Pmdapi
