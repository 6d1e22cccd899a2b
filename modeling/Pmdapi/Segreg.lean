import Pmdapi.Clients
import Pmdapi.InstrDec

/-! `segreg.c`: a fault on a selector that stood for a DOS area is answered with a descriptor of the
client's own. -/

namespace Pmdapi
open Bytes Effect

variable {σ : Type} (h : DpmiHost σ)

inductive MfRet where
  | handled | notHandled | error
  deriving DecidableEq, Repr

/-- The only GDT selectors that are replaced. -/
def fixableSegments : List Word :=
  [0x0040, 0xa000, 0xb000, 0xb800, 0xc000, 0xe000, 0xf000, 0xbf8, 0xf800, 0xff00, 0x38]

def dpmiMhpGetSelectorSize (s : State σ) (selector : Word) : Bool :=
  h.getDescriptorAccessRights s.host selector &&& 0x4000 ≠ 0

def Sigcontext.setSeg (scp : Sigcontext) (reg : Nat) (desc : Word) : Sigcontext :=
  match reg with
  | 0 => { scp with es := desc }
  | 1 => { scp with cs := desc }
  | 2 => { scp with ss := desc }
  | 3 => { scp with ds := desc }
  | 4 => { scp with fs := desc }
  | 5 => { scp with gs := desc }
  | _ => scp

/-- The descriptor for the segment that the selector was meant as; 38h is flat data. -/
def replacement (segment : Word) : M σ Word :=
  if segment = 0x38 then convertSegmentToDescriptorLim h 0 0xffffffff
  else loWord <$> convertSegmentToDescriptor h segment

def msdosSelFault (err : Dword) : M σ MfRet :=
  let segment := loWord err &&& 0xfff8
  if loWord err = 0 then pure .notHandled
  else if segment ∉ fixableSegments then pure .error
  else do
    let s ← reads id
    match decodeSegreg s.mem (getSegmentBase h s) (dpmiMhpGetSelectorSize h s) s.scp with
    | (none, _) => pure .error
    | (some reg, newSct) => do
      let desc ← replacement h segment
      if desc = 0 then pure .error
      else do
        setScp fun _ => newSct.setSeg reg desc
        pure .handled

/-- `msdos_fault`; 1 is `true`. -/
def msdosFault (err : Dword) : M σ Bool := do
  let ret ← msdosSelFault h err
  pure (ret = .handled)

end Pmdapi
