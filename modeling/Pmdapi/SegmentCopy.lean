import Pmdapi.RealModeEntry

/-! The services that get a whole segment of the client copied to the transfer buffer and back. -/

namespace Pmdapi
open Bytes Effect

/-! ## The length -/

/-- The length of a copy: the segment, but no more than the transfer buffer holds. -/
def wholeLen (limit : Dword) : Nat := min (limit.toNat + 1) 0x10000

theorem segmentLen_eq {limit : Dword} (small : limit.toNat < 0x7fffffff) :
    segmentLen limit = wholeLen limit := by
  have next : (limit + 1).toNat = limit.toNat + 1 := by bv_omega
  have positive : (limit + 1).toInt = (limit + 1).toNat := by
    rw [BitVec.toInt_eq_toNat_cond, if_pos (by omega)]
  rw [segmentLen, positive, next, wholeLen]
  split
  · omega
  · omega

/-- A length that is negative as an `int` is enormous as a `size_t`; of 4 GiB nothing is left. -/
theorem segmentLen_large {limit : Dword} (large : 0x7fffffff ≤ limit.toNat) :
    segmentLen limit = 0 ∨ 0x10000 < segmentLen limit := by
  have bound := limit.isLt
  by_cases last : limit.toNat = 0xffffffff
  · left
    have all : limit = 0xffffffff := BitVec.eq_of_toNat_eq last
    rw [all]
    decide
  · right
    have next : (limit + 1).toNat = limit.toNat + 1 := by bv_omega
    have negative : (limit + 1).toInt < 0x10000 := by
      rw [BitVec.toInt_eq_toNat_cond, if_neg (by omega)]
      omega
    rw [segmentLen, if_pos negative, next]
    omega

/-! ## Copies -/

structure CopiedExactly (m m' : Memory) (dst src : Dword) (n : Nat) (other : Dword → Prop) : Prop where
  inside : ∀ o < n, ¬other (dst + BitVec.ofNat 32 o) →
    m' (dst + BitVec.ofNat 32 o) = m (src + BitVec.ofNat 32 o)
  outside : ∀ a, ¬other a → (∀ o < n, dst + BitVec.ofNat 32 o ≠ a) → m' a = m a

theorem copiedExactly_copy {m m' : Memory} {dst src : Dword} {n : Nat} {other : Dword → Prop}
    (fits : n ≤ 2 ^ 32) (same : AgreeOn (¬other ·) (copy m dst src n) m') :
    CopiedExactly m m' dst src n other where
  inside o small elsewhere := by
    rw [same _ elsewhere]
    exact copy_inside m dst src fits small
  outside a elsewhere apart := by
    rw [same a elsewhere]
    exact copy_outside m dst src apart

/-- A copy of another length shows in some memory. -/
theorem not_copiedExactly {dst src : Dword} {n k : Nat} (positive : 0 < n) (fits : n < 2 ^ 32)
    (wrong : k = 0 ∨ n < k) (apart : dst ≠ src) :
    ∃ m, ¬CopiedExactly m (copy m dst src k) dst src n fun _ => False := by
  rcases wrong with rfl | longer
  · refine ⟨Function.update (fun _ => 0) src 1, fun exact => ?_⟩
    have first := exact.inside 0 positive id
    have none : ¬offset dst dst < 0 := Nat.not_lt_zero _
    simp [copy, none, apart] at first
  · refine ⟨Function.update (fun _ => 0) (src + BitVec.ofNat 32 n) 1, fun exact => ?_⟩
    have elsewhere : dst + BitVec.ofNat 32 n ≠ src + BitVec.ofNat 32 n := by
      intro same
      exact apart ((BitVec.add_left_inj _).mp same)
    have past := exact.outside (dst + BitVec.ofNat 32 n) id fun o small same => by
      have left := congrArg (offset dst) same
      rw [offset_add dst (by omega), offset_add dst fits] at left
      omega
    rw [copy, offset_add dst fits, if_pos longer, Function.update_of_ne elsewhere,
      BitVec.add_comm dst, BitVec.add_sub_cancel, Function.update_self] at past
    cases past

variable {σ : Type} (h : DpmiHost σ)

/-! ## The way down -/

def copiesSegment (intr : Nat) (ax : Word) : Bool := needCopyDseg intr ax || needCopyEseg intr ax

def copiedDos (ah : Byte) : Bool :=
  ah = 0x0a || ah = 0x44 || ah = 0x57 || ah = 0x5a || ah = 0x5d || ah = 0x5e || ah = 0x69

theorem copiedDos_of_copies {ax : Word} (copied : copiesSegment 0x21 ax = true) :
    copiedDos (hiByte ax) = true := by
  by_contra other
  simp [copiedDos] at other
  obtain ⟨⟨⟨⟨⟨⟨input, ioctl⟩, file⟩, temporary⟩, server⟩, network⟩, serial⟩ := other
  simp [copiesSegment, needCopyDseg, needCopyEseg, input, temporary, serial, ioctl, server, network,
    file] at copied

theorem dosFn_copied : ∀ {ah}, copiedDos ah = true → dosFn ah = .plain ∧ usesDta ah = false := by
  decide +kernel

theorem mouse_copied {ax v : Word} (copied : copiesSegment 0x33 ax = true) (low : hiByte v = 0x00) :
    ax ≠ v := by
  have ah : hiByte ax = 0x16 ∨ hiByte ax = 0x17 := by
    simpa [copiesSegment, needCopyDseg, needCopyEseg] using copied
  rintro rfl
  rw [low] at ah
  revert ah
  decide

theorem preMouse_copied {ax : Word} (copied : copiesSegment 0x33 ax = true) :
    preMouse h ax = pure (.go false) := by
  have other {v : Word} (low : hiByte v = 0x00) : ax ≠ v := mouse_copied copied low
  unfold preMouse
  rw [if_neg (other rfl), if_neg (other rfl), if_neg (other rfl)]

theorem preSwitch_copied {intr : Nat} {ax : Word} (copied : copiesSegment intr ax = true) :
    preSwitch h intr ax true = pure (.go false) := by
  unfold preSwitch
  split_ifs with int41 int15 int20 int21 int2f int33
  · simp [copiesSegment, needCopyDseg, needCopyEseg, int41] at copied
  · simp [copiesSegment, needCopyDseg, needCopyEseg, int15] at copied
  · simp [copiesSegment, needCopyDseg, needCopyEseg, int20] at copied
  · subst int21
    rw [(dosFn_copied (copiedDos_of_copies copied)).1]
    rfl
  · simp [copiesSegment, needCopyDseg, needCopyEseg, int2f] at copied
  · subst int33
    exact preMouse_copied h copied
  · rfl
  · contradiction

theorem selAdrClnt_congr {s u : State σ} (base : ∀ sel, getSegmentBase h u sel = getSegmentBase h s sel)
    (scp : u.scp = s.scp) (is32 : u.client.is32 = s.client.is32) (sel : Word) (r : Gpr) :
    selAdrClnt h u sel r = selAdrClnt h s sel r := by
  rw [selAdrClnt, selAdr, selAdrLdt, base, scp, is32]
  rfl

theorem segoff2linear_toNat (seg : Word) : (segoff2linear seg 0).toNat = seg.toNat * 16 := by
  have bound := seg.isLt
  rw [segoff2linear, zext, zext, BitVec.toNat_add, BitVec.toNat_shiftLeft, BitVec.toNat_setWidth,
    BitVec.toNat_setWidth, Nat.shiftLeft_eq]
  simp only [BitVec.ofNat_eq_ofNat, BitVec.toNat_ofNat]
  omega

def copiedSelector (intr : Nat) (s : State σ) : Word :=
  if needCopyDseg intr (s.scp.lword .eax) then s.scp.ds else s.scp.es

theorem final_transBufferSeg_bind {α : Type} (k : Word → M σ α) (s : State σ) :
    ∃ trace, final (transBufferSeg >>= k) s = final (k s.emmSeg) { s with trace := trace } := by
  rw [transBufferSeg, bind_assoc, final_reads_bind, bind_assoc, final_bind, bind_assoc, final_bind,
    final_onlyIf, final_reads_bind]
  split
  · exact ⟨_, rfl⟩
  · exact ⟨_, rfl⟩

theorem copyDsegIn_mem (intr : Nat) (s : State σ) :
    (final (copyDsegIn h intr) s).mem =
      if needCopyDseg intr (s.scp.lword .eax) then
        copy s.mem (segoff2linear s.emmSeg 0) (getSegmentBase h s s.scp.ds)
          (segmentLen (getSegmentLimit h s s.scp.ds))
      else s.mem := by
  rw [copyDsegIn, final_reads_bind, final_onlyIf]
  split
  · obtain ⟨trace, first⟩ := final_transBufferSeg_bind (fun seg => do
      setRmDs seg
      let sel ← reads fun s => s.scp.ds
      let src ← reads fun s => getSegmentBase h s sel
      let dst ← transBufferSeg
      let limit ← reads fun s => getSegmentLimit h s sel
      memcpy (segoff2linear dst 0) src (segmentLen limit)) s
    rw [first, final_bind, final_reads_bind, final_reads_bind]
    obtain ⟨trace', second⟩ := final_transBufferSeg_bind (fun dst => do
      let limit ← reads fun t => getSegmentLimit h t s.scp.ds
      memcpy (segoff2linear dst 0) (getSegmentBase h s s.scp.ds) (segmentLen limit))
      (final (setRmDs s.emmSeg) { s with trace := trace })
    exact congrArg State.mem second
  · rfl

theorem copyEsegIn_mem (intr : Nat) (s : State σ) :
    (final (copyEsegIn h intr) s).mem =
      if needCopyEseg intr (s.scp.lword .eax) then
        copy s.mem (segoff2linear s.emmSeg 0) (getSegmentBase h s s.scp.es)
          (segmentLen (getSegmentLimit h s s.scp.es))
      else s.mem := by
  rw [copyEsegIn, final_reads_bind, final_onlyIf]
  split
  · obtain ⟨trace, first⟩ := final_transBufferSeg_bind (fun seg => do
      setRmEs seg
      let sel ← reads fun s => s.scp.es
      let src ← reads fun s => getSegmentBase h s sel
      let dst ← transBufferSeg
      let limit ← reads fun s => getSegmentLimit h s sel
      memcpy (segoff2linear dst 0) src (segmentLen limit)) s
    rw [first, final_bind, final_reads_bind, final_reads_bind]
    obtain ⟨trace', second⟩ := final_transBufferSeg_bind (fun dst => do
      let limit ← reads fun t => getSegmentLimit h t s.scp.es
      memcpy (segoff2linear dst 0) (getSegmentBase h s s.scp.es) (segmentLen limit))
      (final (setRmEs s.emmSeg) { s with trace := trace })
    exact congrArg State.mem second
  · rfl

theorem not_both {intr : Nat} {ax : Word} (dseg : needCopyDseg intr ax = true) :
    needCopyEseg intr ax = false := by
  by_cases int21 : intr = 0x21
  · subst int21
    by_contra both
    simp [needCopyEseg] at both
    split at both
    next ah => simp [needCopyDseg, ah] at dseg
    next =>
      obtain ⟨ah, al⟩ := Classical.not_imp.mp both
      simp [needCopyDseg, ah, not_not.mp al] at dseg
  · have disk : intr = 0x25 ∨ intr = 0x26 := by simpa [needCopyDseg, int21] using dseg
    rcases disk with rfl | rfl
    · rfl
    · rfl

/-- The segments are where they were, the EMS frame mapped or not. -/
theorem segment_atSwitch (host : SteadyHost h) (intr : Nat) (s : State σ) (sel : Word) :
    getSegmentBase h (s.atSwitch h intr) sel = getSegmentBase h s sel ∧
      getSegmentLimit h (s.atSwitch h intr) sel = getSegmentLimit h s sel := by
  have same : (final (preEnter h intr) s).host = s.host := by
    rw [preEnter_eq]
    rfl
  unfold getSegmentBase getSegmentLimit State.atSwitch
  rw [← same]
  generalize final (preEnter h intr) s = t
  cases listed : needXbuf intr (t.scp.lword .eax) with
  | false =>
    rw [final, preMap_unlisted h listed]
    exact ⟨rfl, rfl⟩
  | true =>
    rw [final, preMap_listed h listed, prepareEmsFrame, final_reads_bind, final_ite]
    split
    · exact ⟨rfl, rfl⟩
    · constructor
      · exact (host.base (.emmMapUnmapMultiple _ _) rfl _ _).trans (host.base (.emmSavePageMap _) rfl _ _)
      · exact (host.limit (.emmMapUnmapMultiple _ _) rfl _ _).trans (host.limit (.emmSavePageMap _) rfl _ _)

theorem needXbuf_of_copied {intr : Nat} {ax : Word} (copied : copiesSegment intr ax = true) :
    needXbuf intr ax = true := by
  rcases (Bool.or_eq_true _ _).mp copied with dseg | eseg
  · exact needXbuf_of_dseg dseg
  · exact needXbuf_of_eseg eseg

theorem not_mirrorsDta {intr : Nat} {s : State σ} (copied : copiesSegment intr (s.scp.lword .eax) = true) :
    mirrorsDta intr s = false := by
  by_cases int21 : intr = 0x21
  · subst int21
    have noDta := (dosFn_copied (copiedDos_of_copies copied)).2
    simp [mirrorsDta, noDta]
  · simp [mirrorsDta, int21]

theorem scp_fill : FillEffect h (Keeps State.scp) where
  call _ _ _ _ := rfl
  memory _ _ := rfl
  client _ _ _ := rfl
  rmDs _ _ := rfl
  rmEs _ _ := rfl
  targetKept _ := rfl
  io _ _ := rfl
  table _ _ := rfl

theorem copiesIn_mem {intr : Nat} {s : State σ} (copied : copiesSegment intr (s.scp.lword .eax) = true) :
    (final (do copyDsegIn h intr; copyEsegIn h intr) s).mem =
      copy s.mem (segoff2linear s.emmSeg 0) (getSegmentBase h s (copiedSelector intr s))
        (segmentLen (getSegmentLimit h s (copiedSelector intr s))) := by
  have scp : (final (copyDsegIn h intr) s).scp = s.scp :=
    (scp_fill h).copyDsegIn (Moves.transBufferSeg fun _ _ => rfl) intr s
  rw [final_bind, copyEsegIn_mem, scp]
  cases dseg : needCopyDseg intr (s.scp.lword .eax) with
  | true =>
    rw [not_both dseg, copyDsegIn_mem, dseg, copiedSelector, dseg]
    rfl
  | false =>
    have eseg : needCopyEseg intr (s.scp.lword .eax) = true := by
      simpa [copiesSegment, dseg] using copied
    rw [copyDsegIn_skipped h dseg, eseg, copiedSelector, dseg]
    rfl

theorem pre_mem (host : SteadyHost h) {intr : Nat} {s : State σ}
    (copied : copiesSegment intr (s.scp.lword .eax) = true) :
    (final (msdosPreExtender h intr) s).mem =
      copy s.mem (segoff2linear s.emmSeg 0) (getSegmentBase h s (copiedSelector intr s))
        (segmentLen (getSegmentLimit h s (copiedSelector intr s))) := by
  have listed := needXbuf_of_copied copied
  have outcome : s.outcome h intr = .go false := by
    rw [State.outcome, listed, preSwitch_copied h copied]
    rfl
  have switched : s.switched h intr = s.atSwitch h intr := by
    rw [State.switched, listed, preSwitch_copied h copied]
    rfl
  have whole : (final (msdosPreExtender h intr) s).mem =
      (final (do copyDsegIn h intr; copyEsegIn h intr) (s.atSwitch h intr)).mem := by
    rw [final_pre, outcome, switched]
    rfl
  obtain ⟨base, limit⟩ := segment_atSwitch h host intr s (copiedSelector intr s)
  obtain ⟨hostAfter, trace, mapped, arrived⟩ := atSwitch_eq h intr s
  rw [preEnter_eq, not_mirrorsDta copied] at arrived
  have scp : (s.atSwitch h intr).scp = s.scp := by rw [arrived]; rfl
  have mem : (s.atSwitch h intr).mem = s.mem := by rw [arrived]; rfl
  have buffer : (s.atSwitch h intr).emmSeg = s.emmSeg := by rw [arrived]; rfl
  have selector : copiedSelector intr (s.atSwitch h intr) = copiedSelector intr s := by
    rw [copiedSelector, scp]
    rfl
  rw [whole, copiesIn_mem h (scp ▸ copied), mem, buffer, selector, base, limit]

/-! ## The way back -/

def diskFlags (s : State σ) : Block :=
  if s.client.is32 then ⟨selAdr h s s.scp.ss (s.scp.esp - 4 - 4) true, 4⟩
  else ⟨selAdr h s s.scp.ss (zext (loWord (s.scp.esp - 2)) - 2) false, 2⟩

def Flagged (intr : Nat) (s : State σ) (a : Dword) : Prop :=
  (intr = 0x25 ∨ intr = 0x26) ∧ (diskFlags h s).Covers a

theorem retDisk_mem (s : State σ) : AgreeOn (¬(diskFlags h s).Covers ·) s.mem (final (retDisk h) s).mem := by
  rw [retDisk, final_reads_bind, final_bind, final_reads_bind, diskFlags]
  cases s.client.is32 with
  | true => exact store_agree _ fun _ outside => outside
  | false => exact store_agree _ fun _ outside => outside

theorem mem_quiet : QuietEffect h (Keeps State.mem) where
  call _ _ _ _ := rfl
  client _ _ _ := rfl
  segments _ _ _ := rfl
  rmDs _ _ := rfl
  rmEs _ _ := rfl
  target _ _ _ := rfl
  targetKept _ := rfl
  frame _ _ _ _ := rfl
  table _ _ := rfl
  keepOther _ _ _ := rfl

theorem dosRet_copied : ∀ {ah}, copiedDos ah = true → dosRet ah = .other ∨ dosRet ah = .serverCall := by
  decide +kernel

theorem postMouse_copied {ax : Word} (copied : copiesSegment 0x33 ax = true) :
    retMouse h ax = pure () := by
  have other {v : Word} (low : hiByte v = 0x00) : ax ≠ v := mouse_copied copied low
  have pointer : (ax = 0x09 || ax = 0x14) = false := by
    rw [decide_eq_false (other rfl), decide_eq_false (other rfl)]
    rfl
  rw [retMouse, pointer, if_neg Bool.false_ne_true, if_neg (other rfl)]

theorem postSwitch_mem {intr : Nat} {ax : Word} (copied : copiesSegment intr ax = true) (s : State σ) :
    AgreeOn (¬Flagged h intr s ·) s.mem (final (postSwitch h intr ax) s).mem := by
  have quiet := mem_quiet h
  have same {m : M σ Unit} (keeps : Moves (Keeps State.mem) m) :
      AgreeOn (¬Flagged h intr s ·) s.mem (final m s).mem := fun a _ => congrFun (keeps s) a
  unfold postSwitch
  split_ifs with int10 int15 int2f int21 disk int33
  · exact same (Moves.onlyIf fun _ => quiet.selectorForEs)
  · simp [copiesSegment, needCopyDseg, needCopyEseg, int15] at copied
  · simp [copiesSegment, needCopyDseg, needCopyEseg, int2f] at copied
  · subst int21
    rcases dosRet_copied (copiedDos_of_copies copied) with ret | ret
    · rw [ret]
      exact same (moves_pure _)
    · rw [ret]
      exact same (Moves.onlyIf fun _ => quiet.selectorForDs)
  · intro a outside
    have service : intr = 0x25 ∨ intr = 0x26 := by simpa using disk
    exact retDisk_mem h s a fun covered => outside ⟨service, covered⟩
  · subst int33
    rw [postMouse_copied h copied]
    exact same (moves_pure _)
  · exact same (moves_pure _)

theorem copyDsegOut_eq {intr : Nat} {ax : Word} (copied : needCopyDseg intr ax = true) (s : State σ) :
    ∃ trace, final (copyDsegOut h intr ax) s = { s with
      trace := trace
      mem := copy s.mem (getSegmentBase h s s.scp.ds) (segoff2linear s.emmSeg 0)
        (segmentLen (getSegmentLimit h s s.scp.ds)) } := by
  obtain ⟨trace, run⟩ := final_transBufferSeg_bind (fun seg => do
    let s ← reads id
    memcpy (getSegmentBase h s s.scp.ds) (segoff2linear seg 0)
      (segmentLen (getSegmentLimit h s s.scp.ds))) s
  rw [copyDsegOut, copied]
  exact ⟨trace, run⟩

theorem copyEsegOut_eq {intr : Nat} {ax : Word} (copied : needCopyEseg intr ax = true) (s : State σ) :
    ∃ trace, final (copyEsegOut h intr ax) s = { s with
      trace := trace
      mem := copy s.mem (getSegmentBase h s s.scp.es) (segoff2linear s.emmSeg 0)
        (segmentLen (getSegmentLimit h s s.scp.es)) } := by
  obtain ⟨trace, run⟩ := final_transBufferSeg_bind (fun seg => do
    let s ← reads id
    memcpy (getSegmentBase h s s.scp.es) (segoff2linear seg 0)
      (segmentLen (getSegmentLimit h s s.scp.es))) s
  rw [copyEsegOut, copied]
  exact ⟨trace, run⟩

theorem postCopies_eq {intr : Nat} {s : State σ} (copied : copiesSegment intr (s.scp.lword .eax) = true) :
    ∃ trace, final (postCopies h intr (s.scp.lword .eax)) s = { s with
      updateMask := ~~~0
      trace := trace
      mem := copy s.mem (getSegmentBase h s (copiedSelector intr s)) (segoff2linear s.emmSeg 0)
        (segmentLen (getSegmentLimit h s (copiedSelector intr s))) } := by
  have unmirrored : final (dtaCopyOut h intr (s.scp.lword .eax)) { s with updateMask := ~~~0 } =
      { s with updateMask := ~~~0 } := by
    rw [dtaCopyOut, final_reads_bind, final_onlyIf]
    exact if_neg (Bool.not_eq_true _ ▸ not_mirrorsDta copied)
  rw [postCopies, final_bind, final_updates, final_bind, unmirrored, final_bind]
  cases dseg : needCopyDseg intr (s.scp.lword .eax) with
  | true =>
    obtain ⟨trace, run⟩ := copyDsegOut_eq h dseg { s with updateMask := ~~~0 }
    rw [run, copyEsegOut, not_both dseg, copiedSelector, dseg]
    exact ⟨trace, rfl⟩
  | false =>
    have eseg : needCopyEseg intr (s.scp.lword .eax) = true := by
      simpa [copiesSegment, dseg] using copied
    obtain ⟨trace, run⟩ := copyEsegOut_eq h eseg { s with updateMask := ~~~0 }
    rw [copyDsegOut, dseg, copiedSelector, dseg]
    exact ⟨trace, run⟩

theorem mem_post (intr : Nat) (s : State σ) : (final (msdosPostExtender h intr) s).mem =
    (final (postSwitch h intr (s.scp.lword .eax)) (unpacked h intr s)).mem := by
  have rest : Moves (Keeps State.mem) (do
      onlyIf (needXbuf intr (s.scp.lword .eax)) (restoreEmsFrame h)
      postRegs) := by
    refine Moves.bind (Moves.onlyIf fun _ => ?_) fun _ => fun _ => rfl
    exact Moves.restoreEmsFrame h (fun _ _ => rfl) (fun _ _ => rfl) fun _ _ => rfl
  rw [msdosPostExtender, final_reads_bind, final_bind, final_bind]
  exact rest _

theorem post_mem {intr : Nat} {s : State σ} (copied : copiesSegment intr (s.scp.lword .eax) = true) :
    AgreeOn (¬Flagged h intr s ·)
      (copy s.mem (getSegmentBase h s (copiedSelector intr s)) (segoff2linear s.emmSeg 0)
        (segmentLen (getSegmentLimit h s (copiedSelector intr s))))
      (final (msdosPostExtender h intr) s).mem := by
  obtain ⟨trace, copies⟩ := postCopies_eq h copied
  rw [mem_post, unpacked, copies]
  exact fun a outside => postSwitch_mem h copied _ a outside

/-! ## Both ways -/

structure SegmentServed (intr : Nat) (s t : State σ) : Prop where
  ax : t.scp.lword .eax = s.scp.lword .eax
  base : getSegmentBase h t (copiedSelector intr t) = getSegmentBase h s (copiedSelector intr s)
  limit : getSegmentLimit h t (copiedSelector intr t) = getSegmentLimit h s (copiedSelector intr s)
  buffer : t.emmSeg = s.emmSeg

/-- The segment goes down and comes back as a whole, whatever is in memory. -/
structure WholeSegment (intr : Nat) (s t : State σ) : Prop where
  down : ∀ m, CopiedExactly m (final (msdosPreExtender h intr) { s with mem := m }).mem
    (segoff2linear s.emmSeg 0) (getSegmentBase h s (copiedSelector intr s))
    (wholeLen (getSegmentLimit h s (copiedSelector intr s))) fun _ => False
  up : ∀ m, CopiedExactly m (final (msdosPostExtender h intr) { t with mem := m }).mem
    (getSegmentBase h s (copiedSelector intr s)) (segoff2linear s.emmSeg 0)
    (wholeLen (getSegmentLimit h s (copiedSelector intr s))) (Flagged h intr t)

theorem wholeLen_le (limit : Dword) : 0 < wholeLen limit ∧ wholeLen limit ≤ 0x10000 := by
  unfold wholeLen
  omega

/-- The copies are exact unless the limit is 7FFFFFFFh or more. -/
theorem whole_segment_iff (host : SteadyHost h) {intr : Nat} {s t : State σ}
    (copied : copiesSegment intr (s.scp.lword .eax) = true) (served : SegmentServed h intr s t)
    (apart : ∀ o < wholeLen (getSegmentLimit h s (copiedSelector intr s)), ∀ p < 0x10000,
      getSegmentBase h s (copiedSelector intr s) + BitVec.ofNat 32 o ≠
        segoff2linear s.emmSeg 0 + BitVec.ofNat 32 p) :
    WholeSegment h intr s t ↔
      (getSegmentLimit h s (copiedSelector intr s)).toNat < 0x7fffffff := by
  have down (m : Memory) := pre_mem h host (s := { s with mem := m }) copied
  have up (m : Memory) := post_mem h (s := { t with mem := m }) (served.ax ▸ copied)
  obtain ⟨positive, fits⟩ := wholeLen_le (getSegmentLimit h s (copiedSelector intr s))
  constructor
  · intro whole
    by_contra large
    have wrong : segmentLen (getSegmentLimit h s (copiedSelector intr s)) = 0 ∨
        wholeLen (getSegmentLimit h s (copiedSelector intr s)) <
          segmentLen (getSegmentLimit h s (copiedSelector intr s)) :=
      (segmentLen_large (Nat.le_of_not_lt large)).imp_right (Nat.lt_of_le_of_lt fits)
    have elsewhere : segoff2linear s.emmSeg 0 ≠ getSegmentBase h s (copiedSelector intr s) := by
      have starts := apart 0 positive 0 (by decide)
      simpa using starts.symm
    obtain ⟨m, fails⟩ := not_copiedExactly positive (by omega) wrong elsewhere
    have exact := whole.down m
    rw [down m] at exact
    exact fails exact
  · intro small
    have len := segmentLen_eq small
    refine ⟨fun m => ?_, fun m => ?_⟩
    · refine copiedExactly_copy (by omega) ?_
      rw [down m, ← len]
      exact .refl _
    · refine copiedExactly_copy (by omega) ?_
      rw [← len, ← served.base, ← served.limit, ← served.buffer]
      exact up m

def inputClient : State Bump := bumpStart.withGpr fun | .eax => 0x0a00 | _ => 0

theorem whole_segment_input : WholeSegment bumpHost 0x21 inputClient inputClient := by
  have served : SegmentServed bumpHost 0x21 inputClient inputClient := ⟨rfl, rfl, rfl, rfl⟩
  refine (whole_segment_iff bumpHost steadyHost_bump (by decide) served ?_).mpr (by decide)
  intro o small p inside
  have length : wholeLen (getSegmentLimit bumpHost inputClient (copiedSelector 0x21 inputClient)) =
      0x10000 := by decide
  have base : getSegmentBase bumpHost inputClient (copiedSelector 0x21 inputClient) = 0 := rfl
  have buffer : segoff2linear inputClient.emmSeg 0 = 0xd0000 := by decide
  rw [length] at small
  rw [base, buffer]
  bv_omega

def hugeHost : DpmiHost Bump :=
  { bumpHost with getSegmentBaseAddress := fun _ _ => 0x100000, getSegmentLimit := fun _ _ => 0x7fffffff }

/-- All of it is copied down, over what follows the transfer buffer. -/
theorem whole_segment_overruns :
    segmentLen (getSegmentLimit hugeHost inputClient (copiedSelector 0x21 inputClient)) = 0x80000000 ∧
      ¬WholeSegment hugeHost 0x21 inputClient inputClient := by
  refine ⟨by decide, fun whole => ?_⟩
  have past := (whole.down (Function.update (fun _ => 0) 0x110000 1)).outside 0xe0000 id
    fun o small => ?_
  · revert past
    decide +kernel
  · have length : wholeLen (getSegmentLimit hugeHost inputClient (copiedSelector 0x21 inputClient)) =
        0x10000 := by decide
    have buffer : segoff2linear inputClient.emmSeg 0 = 0xd0000 := by decide
    rw [length] at small
    rw [buffer]
    bv_omega

end Pmdapi
