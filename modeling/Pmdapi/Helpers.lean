import Pmdapi.Callbacks

/-! `msdoshlp.c` and `msdh_inc.h`: one table binds each entry point to a handler and to the address
of the client data the handler works on. -/

namespace Pmdapi
open Bytes Effect

variable {σ : Type} (h : DpmiHost σ)

def MsdosOps.zero : MsdosOps where
  apiCall := none
  apiArg := none
  apiWinos2Call := none
  apiWinos2Arg := none
  xmsCall := none
  xmsArg := none
  xmsRet := none
  rmcbHandler := fun _ => none
  rmcbArg := fun _ => none
  rmcbRetHandler := fun _ => none

/-- `get_pmcb_handler`. The address it returns stands for the entry of callback `num`. -/
def getPmcbHandler (handler : OpsHandler) (arg : Option ClientRef) (retHandler : OpsHandler)
    (num : Rmcb) : M σ Rmcb := do
  updates fun s => { s with ops := { s.ops with
    rmcbHandler := Function.update s.ops.rmcbHandler num (some handler),
    rmcbArg := Function.update s.ops.rmcbArg num arg,
    rmcbRetHandler := Function.update s.ops.rmcbRetHandler num (some retHandler) } }
  pure num

def entryAddress (e : EntryPoint) : M σ Pmaddr :=
  reads fun s => ⟨s.entryOffset e, s.myCs⟩

def getApiHandler (arg : ClientRef) : M σ Pmaddr := do
  updates fun s =>
    { s with ops := { s.ops with apiCall := some .msdosApiCall, apiArg := some arg } }
  entryAddress .apiCall

def getApiWinos2Handler (arg : ClientRef) : M σ Pmaddr := do
  updates fun s =>
    { s with ops := { s.ops with
        apiWinos2Call := some .msdosApiWinos2Call, apiWinos2Arg := some arg } }
  entryAddress .apiWinos2Call

def getXmsHandler (arg : ClientRef) : M σ Pmaddr := do
  updates fun s =>
    { s with ops := { s.ops with
        xmsCall := some .xmsCall, xmsArg := some arg, xmsRet := some .xmsRet } }
  entryAddress .xmsCall

/-- `get_lr_helper`: without DOSEMU the helper is not set up, its address is 0:0. -/
def getLrHelper (_rmcb : Far) : Far := ⟨0, 0⟩

def getLwHelper (_rmcb : Far) : Far := ⟨0, 0⟩

/-- `get_exec_helper`: the entry is never set without DOSEMU. -/
def getExecHelper : M σ Far := do
  hostCall h .getStateSaveRestoreAddr
  pure ⟨0, 0⟩

/-! ## Following the table -/

def derefMouse (s : State σ) : Option ClientRef → Option Pmaddr
  | some (.mouseCallBack slot) => some (s.clients slot).mouseCallBack
  | some (.ps2mouseCallBack slot) => some (s.clients slot).ps2mouseCallBack
  | _ => none

def derefAlias (s : State σ) : Option ClientRef → Option Word
  | some (.ldtAlias slot) => some (s.clients slot).ldtAlias
  | some (.ldtAliasWinos2 slot) => some (s.clients slot).ldtAliasWinos2
  | _ => none

def derefXms (s : State σ) : Option ClientRef → Option Far
  | some (.xmsCall slot) => some (s.clients slot).xmsCall
  | _ => none

/-- What the call handler of callback `n` does: `msdos.rmcb_handler[n](scp, rmreg, clnt_is_32,
msdos.rmcb_arg[n])`. -/
def rmcbCall (n : Rmcb) : M σ Unit := do
  let s ← reads id
  match s.ops.rmcbHandler n, derefMouse s (s.ops.rmcbArg n) with
  | some .rmcbHandler, _ =>
    updates fun s =>
      { s with io := (rmcbHandler s.io s.mem s.rmreg).1, mem := (rmcbHandler s.io s.mem s.rmreg).2 }
  | some .mouseCallback, some target => mouseCallback h s.clntIs32 target
  | some .ps2MouseCallback, some target => ps2MouseCallback h s.clntIs32 target
  | _, _ => pure ()

def retHandler (is32 : Bool) : OpsHandler → M σ Unit
  | .rmcbRetHandler => rmcbRetHandler
  | .rmcbRetFromPs2 => rmcbRetFromPs2 is32
  | _ => pure ()

def rmcbReturn (n : Rmcb) : M σ Unit := do
  let s ← reads id
  match s.ops.rmcbRetHandler n with
  | some entry => retHandler s.clntIs32 entry
  | none => pure ()

/-- `handler`. What the client does in `do_pm_call` is a parameter. -/
def handler (doPmCall : M σ Unit) (n : Rmcb) : M σ Unit := do
  rmcbCall h n
  doPmCall
  rmcbReturn n

def apiCallEntry : M σ Unit := do
  let s ← reads id
  match s.ops.apiCall, derefAlias s s.ops.apiArg with
  | some .msdosApiCall, some sel => setScp (msdosApiCall sel)
  | _, _ => pure ()

def apiWinos2CallEntry : M σ Unit := do
  let s ← reads id
  match s.ops.apiWinos2Call, derefAlias s s.ops.apiWinos2Arg with
  | some .msdosApiWinos2Call, some sel => setScp (msdosApiCall sel)
  | _, _ => pure ()

def RealModeCallStructure.zero : RealModeCallStructure where
  gpr := fun _ => 0
  flags := 0
  es := 0
  ds := 0
  fs := 0
  gs := 0
  ip := 0
  cs := 0
  sp := 0
  ss := 0

/-- `MSDOS_XMS_call` up to the real-mode procedure call. -/
def xmsCallEntry : M σ Unit := do
  let s ← reads id
  match s.ops.xmsCall, derefXms s s.ops.xmsArg with
  | some .xmsCall, some target =>
    let call := xmsCall s.scp target s.mem .zero
    updates fun s => { s with mem := call.1, rmreg := call.2 }
  | _, _ => pure ()

end Pmdapi
