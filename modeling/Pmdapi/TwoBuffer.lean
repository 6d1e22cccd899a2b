import Pmdapi.Library.Windows
import Pmdapi.SegmentCopy

/-! The int 21h functions that get two windows of the client copied to the transfer buffer and back. -/

namespace Pmdapi
open Bytes Effect

/-- The length of the second window; the first one has 100h bytes. -/
def secondLength (ax : Word) : Option Nat :=
  if hiByte ax = 0x29 then some 0x50
  else if hiByte ax = 0x5f ∧ 2 ≤ loByte ax ∧ loByte ax ≤ 6 then some 0x100
  else none

theorem secondLength_cases {ax : Word} {k : Nat} (service : secondLength ax = some k) :
    hiByte ax = 0x29 ∧ k = 0x50 ∨
      hiByte ax = 0x5f ∧ (2 ≤ loByte ax && loByte ax ≤ 6) = true ∧ k = 0x100 := by
  unfold secondLength at service
  split_ifs at service with parse redirection
  · exact .inl ⟨parse, (Option.some.inj service).symm⟩
  · refine .inr ⟨redirection.1, ?_, (Option.some.inj service).symm⟩
    simpa using redirection.2

variable {σ : Type} (h : DpmiHost σ)

/-- DS:ESI, at the start of the transfer buffer. -/
def firstWindow (s : State σ) : Window := ⟨selAdrClnt h s s.scp.ds .esi, segoff2linear s.emmSeg 0, 0x100⟩

def secondWindow (s : State σ) (k : Nat) : Window :=
  ⟨selAdrClnt h s s.scp.es .edi, segoff2linear (s.emmSeg + 0x10) 0, k⟩

theorem windows_apart (s : State σ) {k : Nat} (small : k ≤ 0x100) (x : Dword)
    (one : (firstWindow h s).Holds x) : ¬(secondWindow h s k).Holds x := by
  simp only [firstWindow, secondWindow, Window.Holds, Block.Covers, offset] at *
  have start := segoff2linear_toNat s.emmSeg
  have next := segoff2linear_toNat (s.emmSeg + 0x10)
  generalize segoff2linear s.emmSeg 0 = a at *
  generalize segoff2linear (s.emmSeg + 0x10) 0 = b at *
  bv_omega

/-! ## The way down -/

theorem passTwoWindows_eq (si di : Gpr) (n k : Nat) (paras : Word) (s : State σ) :
    ∃ trace, final (passTwoWindows h si di n k paras) s = { s with
      trace := trace
      rmMask := s.rmMask ||| regBit .ds ||| regBit (.gpr si) ||| regBit .es ||| regBit (.gpr di)
      rmreg := { s.rmreg with
        ds := s.emmSeg
        es := s.emmSeg + paras
        gpr := setGpr (setGpr s.rmreg.gpr si (setLoWord (s.rmreg.gpr si) 0)) di
          (setLoWord (setGpr s.rmreg.gpr si (setLoWord (s.rmreg.gpr si) 0) di) 0) }
      mem := copy (copy s.mem (segoff2linear s.emmSeg 0) (selAdrClnt h s s.scp.ds si) n)
        (segoff2linear (s.emmSeg + paras) 0) (selAdrClnt h s s.scp.es di) k } := by
  obtain ⟨trace, run⟩ := final_transBufferSeg_bind (fun seg => do
    setRmDs seg
    setRmLword si 0
    let src ← reads fun s => selAdrClnt h s s.scp.ds si
    memcpy (segoff2linear seg 0) src n
    setRmEs (seg + paras)
    setRmLword di 0
    let dst ← reads fun s => selAdrClnt h s s.scp.es di
    memcpy (segoff2linear (seg + paras) 0) dst k) s
  exact ⟨trace, run⟩

theorem preSwitch_twoWindows {ax : Word} {k : Nat} (service : secondLength ax = some k) (act : Bool) :
    preSwitch h 0x21 ax act = goOn (passTwoWindows h .esi .edi 0x100 k 0x10) := by
  have branch : preSwitch h 0x21 ax act = preDos h (dosFn (hiByte ax)) (loByte ax) := rfl
  rw [branch]
  rcases secondLength_cases service with ⟨ah, rfl⟩ | ⟨ah, al, rfl⟩
  · rw [ah]
    rfl
  · have fn : dosFn (hiByte ax) = .redirection := by rw [ah]; rfl
    rw [fn, preDos, al]
    rfl

theorem twoWindows_tables {ax : Word} {k : Nat} (service : secondLength ax = some k) :
    needCopyDseg 0x21 ax = false ∧ needCopyEseg 0x21 ax = false ∧ usesDta (hiByte ax) = false ∧
      k ≤ 0x100 := by
  rcases secondLength_cases service with ⟨ah, rfl⟩ | ⟨ah, -, rfl⟩
  all_goals simp [needCopyDseg, needCopyEseg, usesDta, ah]

structure WindowsSent (k : Nat) (s u : State σ) : Prop where
  mem : u.mem = downBoth (firstWindow h s) (secondWindow h s k) s.mem
  scp : u.scp = s.scp
  is32 : u.client.is32 = s.client.is32
  base : ∀ sel, getSegmentBase h u sel = getSegmentBase h s sel
  ds : u.rmreg.ds = s.emmSeg
  es : u.rmreg.es = s.emmSeg + 0x10
  si : u.rmreg.lword .esi = 0
  di : u.rmreg.lword .edi = 0

theorem windowsSent_branch {k : Nat} {s v u : State σ} (mem : v.mem = s.mem) (scp : v.scp = s.scp)
    (is32 : v.client.is32 = s.client.is32) (base : ∀ sel, getSegmentBase h v sel = getSegmentBase h s sel)
    (buffer : v.emmSeg = s.emmSeg) (filled : FilledFrom (final (passTwoWindows h .esi .edi 0x100 k 0x10) v) u) :
    WindowsSent h k s u := by
  obtain ⟨trace, run⟩ := passTwoWindows_eq h .esi .edi 0x100 k 0x10 v
  have address := selAdrClnt_congr h base scp is32
  rw [run] at filled
  have words := filled.words
  constructor
  · rw [filled.mem, firstWindow, secondWindow, ← mem, ← buffer, ← address, ← address, ← scp]
    rfl
  · exact filled.scp.trans scp
  · exact (congrArg MsdosStruct.is32 filled.client).trans is32
  · intro sel
    rw [getSegmentBase, filled.host]
    exact base sel
  · exact filled.ds.trans buffer
  · exact filled.es.trans (congrArg (· + 0x10) buffer)
  · rw [words]
    simp [State.handed, RealModeCallStructure.lword, setGpr]
  · rw [words]
    simp [State.handed, RealModeCallStructure.lword, setGpr]

theorem windowsSent_pre (host : SteadyHost h) {s : State σ} {k : Nat}
    (service : secondLength (s.scp.lword .eax) = some k) :
    WindowsSent h k s (final (msdosPreExtender h 0x21) s).filled := by
  obtain ⟨noDseg, noEseg, noDta, -⟩ := twoWindows_tables service
  have branch := preSwitch_twoWindows h service (needXbuf 0x21 (s.scp.lword .eax))
  have outcome : s.outcome h 0x21 = .go false := by
    rw [State.outcome, branch]
    rfl
  have switched : s.switched h 0x21 =
      final (passTwoWindows h .esi .edi 0x100 k 0x10) (s.atSwitch h 0x21) := by
    rw [State.switched, branch]
    rfl
  have filled := filledFrom_pre h outcome noDseg noEseg
  rw [switched] at filled
  have base (sel : Word) := (segment_atSwitch h host 0x21 s sel).1
  obtain ⟨hostAfter, trace, mapped, arrived⟩ := atSwitch_eq h 0x21 s
  have unmirrored : mirrorsDta 0x21 s = false := by simp [mirrorsDta, noDta]
  rw [preEnter_eq, unmirrored] at arrived
  refine windowsSent_branch h ?_ ?_ ?_ base ?_ filled
  all_goals rw [arrived]; rfl

/-! ## The way back -/

/-- The state in which the service is left: only the two parts of the buffer may be changed. -/
structure WindowsServed (k : Nat) (s t : State σ) : Prop where
  scp : t.scp = s.scp
  is32 : t.client.is32 = s.client.is32
  base : ∀ sel, getSegmentBase h t sel = getSegmentBase h s sel
  ds : t.rmreg.ds = (final (msdosPreExtender h 0x21) s).filled.rmreg.ds
  es : t.rmreg.es = (final (msdosPreExtender h 0x21) s).filled.rmreg.es
  si : t.rmreg.lword .esi = (final (msdosPreExtender h 0x21) s).filled.rmreg.lword .esi
  di : t.rmreg.lword .edi = (final (msdosPreExtender h 0x21) s).filled.rmreg.lword .edi
  mem : AgreeOn (¬Buffered (firstWindow h s) (secondWindow h s k) ·)
    (final (msdosPreExtender h 0x21) s).mem t.mem

theorem retParseFcb_mem (t : State σ) : (final (retParseFcb h) t).mem =
    copy (copy t.mem (selAdrClnt h t t.scp.ds .esi) (rmDsAdr t 0) 0x100)
      (selAdrClnt h t t.scp.es .edi) (rmEsAdr t (t.rmreg.lword .edi)) 0x50 := rfl

theorem retRedirection_mem {al : Byte} (listed : (2 ≤ al && al ≤ 6) = true) (t : State σ) :
    (final (postDos h .redirection al) t).mem =
      copy (copy t.mem (selAdrClnt h t t.scp.ds .esi) (rmDsAdr t (t.rmreg.lword .esi)) 0x100)
        (selAdrClnt h t t.scp.es .edi) (rmEsAdr t (t.rmreg.lword .edi)) 0x100 := by
  rw [postDos, listed]
  rfl

theorem postSwitch_twoWindows {t : State σ} {ax : Word} {k : Nat} (service : secondLength ax = some k)
    (si : t.rmreg.lword .esi = 0) (di : t.rmreg.lword .edi = 0) :
    (final (postSwitch h 0x21 ax) t).mem =
      copy (copy t.mem (selAdrClnt h t t.scp.ds .esi) (rmDsAdr t 0) 0x100)
        (selAdrClnt h t t.scp.es .edi) (rmEsAdr t 0) k := by
  have branch : postSwitch h 0x21 ax = postDos h (dosRet (hiByte ax)) (loByte ax) := rfl
  rw [branch]
  rcases secondLength_cases service with ⟨ah, rfl⟩ | ⟨ah, al, rfl⟩
  · have ret : dosRet (hiByte ax) = .parseFcb := by rw [ah]; rfl
    rw [ret]
    refine (retParseFcb_mem h t).trans ?_
    rw [di]
  · have ret : dosRet (hiByte ax) = .redirection := by rw [ah]; rfl
    rw [ret, retRedirection_mem h al, si, di]

theorem unpacked_twoWindows {t : State σ} {k : Nat} (service : secondLength (t.scp.lword .eax) = some k) :
    unpacked h 0x21 t = { t with updateMask := ~~~0 } := by
  obtain ⟨noDseg, noEseg, noDta, -⟩ := twoWindows_tables service
  exact unpacked_eq h noDseg noEseg (by simp [mirrorsDta, noDta])

theorem post_twoWindows (host : SteadyHost h) {s t : State σ} {k : Nat}
    (service : secondLength (s.scp.lword .eax) = some k) (served : WindowsServed h k s t) :
    (final (msdosPostExtender h 0x21) t).mem = upBoth (firstWindow h s) (secondWindow h s k) t.mem := by
  have sent := windowsSent_pre h host service
  have again : secondLength (t.scp.lword .eax) = some k := by rw [served.scp, service]
  have unpacks := unpacked_twoWindows h again
  have mem : (unpacked h 0x21 t).mem = t.mem := by rw [unpacks]
  have scp : (unpacked h 0x21 t).scp = s.scp := (congrArg State.scp unpacks).trans served.scp
  have is32 : (unpacked h 0x21 t).client.is32 = s.client.is32 :=
    (congrArg (fun u => u.client.is32) unpacks).trans served.is32
  have base (sel : Word) : getSegmentBase h (unpacked h 0x21 t) sel = getSegmentBase h s sel :=
    (congrArg (getSegmentBase h · sel) unpacks).trans (served.base sel)
  have rmreg : (unpacked h 0x21 t).rmreg = t.rmreg := by rw [unpacks]
  rw [mem_post]
  generalize unpacked h 0x21 t = u at mem scp is32 base rmreg
  have si : u.rmreg.lword .esi = 0 := by rw [rmreg, served.si, sent.si]
  have di : u.rmreg.lword .edi = 0 := by rw [rmreg, served.di, sent.di]
  rw [postSwitch_twoWindows h again si di, selAdrClnt_congr h base scp is32,
    selAdrClnt_congr h base scp is32, rmDsAdr, rmEsAdr, rmreg, served.ds, served.es, sent.ds, sent.es, mem, scp]
  rfl

/-! ## Both ways -/

/-- Every byte of the client whose copies the service changed has a value that the service wrote to one
of them, and no other byte has changed. -/
def NoLostUpdate (k : Nat) (s t : State σ) : Prop :=
  KeepsUpdates (firstWindow h s) (secondWindow h s k) s.mem (final (msdosPreExtender h 0x21) s).mem t.mem
    (final (msdosPostExtender h 0x21) t).mem

theorem windowsServed_filled (host : SteadyHost h) {s : State σ} {k : Nat}
    (service : secondLength (s.scp.lword .eax) = some k) {m : Memory}
    (same : AgreeOn (¬Buffered (firstWindow h s) (secondWindow h s k) ·)
      (final (msdosPreExtender h 0x21) s).mem m) :
    WindowsServed h k s { (final (msdosPreExtender h 0x21) s).filled with mem := m } := by
  obtain ⟨-, scp, is32, base, -, -, -, -⟩ := windowsSent_pre h host service
  exact ⟨scp, is32, base, rfl, rfl, rfl, rfl, same⟩

/-- No change of the service is lost just if the second window is apart from the first, and what stands
for it in the buffer as well. -/
theorem two_buffer_iff (host : SteadyHost h) {s : State σ} {k : Nat}
    (service : secondLength (s.scp.lword .eax) = some k) :
    (∀ t, WindowsServed h k s t → NoLostUpdate h k s t) ↔
      SecondApart (firstWindow h s) (secondWindow h s k) := by
  have down : (final (msdosPreExtender h 0x21) s).mem =
      downBoth (firstWindow h s) (secondWindow h s k) s.mem := (windowsSent_pre h host service).mem
  have apart := windows_apart h s (twoWindows_tables service).2.2.2
  rw [← keepsUpdates_iff s.mem apart]
  constructor
  · intro keeps served same
    rw [← down] at same
    have there := windowsServed_filled h host service same
    have lossless := keeps _ there
    rw [NoLostUpdate, post_twoWindows h host service there, down] at lossless
    exact lossless
  · intro keeps t served
    rw [NoLostUpdate, post_twoWindows h host service served, down]
    exact keeps t.mem (down ▸ served.mem)

def parseClient : State Bump := bumpStart.withGpr fun
  | .eax => 0x2900
  | .esi => 0x1000
  | .edi => 0x2000
  | _ => 0

def parseServed : State Bump :=
  let u := final (msdosPreExtender bumpHost 0x21) parseClient
  { u.filled with mem := Function.update u.mem 0xd0101 0x41 }

theorem two_buffer_parse : NoLostUpdate bumpHost 0x50 parseClient parseServed := by
  have first : firstWindow bumpHost parseClient = ⟨0x1000, 0xd0000, 0x100⟩ := by decide
  have second : secondWindow bumpHost parseClient 0x50 = ⟨0x2000, 0xd0100, 0x50⟩ := by decide
  have apart : SecondApart (firstWindow bumpHost parseClient) (secondWindow bumpHost parseClient 0x50) := by
    intro a _ shown
    rw [second] at shown
    rw [first, second]
    simp only [Window.Shows, Window.copyOf, Block.Covers, offset] at *
    constructor
    · bv_omega
    · bv_omega
  apply (two_buffer_iff bumpHost steadyHost_bump (by decide)).mpr apart
  apply windowsServed_filled bumpHost steadyHost_bump rfl
  intro a outside
  apply Function.update_of_ne
  rintro rfl
  rw [first, second] at outside
  exact outside (by decide)

/-- A client that asks for a redirected device, the buffer for the local name right behind the 128 bytes
of the network name. -/
def redirectedClient : State Bump := bumpStart.withGpr fun
  | .eax => 0x5f02
  | .esi => 0x1080
  | .edi => 0x1000
  | _ => 0

def redirectedServed : State Bump :=
  let u := final (msdosPreExtender bumpHost 0x21) redirectedClient
  { u.filled with mem := Function.update u.mem 0xd0000 0x41 }

/-- The client does not get it. -/
theorem two_buffer_loses_name :
    WindowsServed bumpHost 0x100 redirectedClient redirectedServed ∧
      redirectedServed.mem 0xd0000 = 0x41 ∧
      (final (msdosPostExtender bumpHost 0x21) redirectedServed).mem 0x1080 = 0 ∧
      ¬NoLostUpdate bumpHost 0x100 redirectedClient redirectedServed := by
  have first : firstWindow bumpHost redirectedClient = ⟨0x1080, 0xd0000, 0x100⟩ := by decide
  have second : secondWindow bumpHost redirectedClient 0x100 = ⟨0x1000, 0xd0100, 0x100⟩ := by decide
  have lost : (final (msdosPostExtender bumpHost 0x21) redirectedServed).mem 0x1080 = 0 := by
    decide +kernel
  refine ⟨?_, rfl, lost, fun keeps => ?_⟩
  · apply windowsServed_filled bumpHost steadyHost_bump rfl
    intro a outside
    apply Function.update_of_ne
    rintro rfl
    rw [first, second] at outside
    exact outside (by decide)
  · have copied : IsCopy (firstWindow bumpHost redirectedClient)
        (secondWindow bumpHost redirectedClient 0x100) 0x1080 0xd0000 := by
      rw [first, second]
      exact .inl (by decide)
    have client : ¬Buffered (firstWindow bumpHost redirectedClient)
        (secondWindow bumpHost redirectedClient 0x100) 0x1080 := by
      rw [first, second]
      decide
    obtain ⟨y, -, written, value⟩ := keeps.changed _ client _ copied (by decide +kernel)
    have here : y = 0xd0000 := by
      by_contra different
      exact written (Function.update_of_ne different _ _)
    rw [lost, here] at value
    revert value
    decide +kernel

end Pmdapi
