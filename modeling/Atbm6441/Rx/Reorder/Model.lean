import Atbm6441.Ieee80211.Hdr
import Mathlib.Logic.Function.Basic
import Mathlib.Data.Int.Init

/-!
# The RX reorder buffer

The functions of `rx.c` that keep the reorder buffer of an RX aggregation session, and the set-up
of a session by an ADDBA request in `agg-rx.c`. The counters of the session are the `u16` values
of the source as natural numbers; jiffies are words of any width `w`. The loops of the source are
recursions on a bound for the number of their rounds; `Count` shows that the bounds are never
what ends them.
-/

namespace Atbm6441.Rx.Reorder

open Atbm6441.Ieee80211

/-! ### Sequence numbers -/

/-- `(sq1 - sq2) & SEQ_MASK`. -/
def seqSub (sq1 sq2 : ℕ) : ℕ := (((sq1 : ℤ) - sq2) % 0x1000).toNat

/-- `sq1` is behind `sq2`: their distance is more than `SEQ_MODULO >> 1`. -/
def seqLess (sq1 sq2 : ℕ) : Bool := 0x800 < seqSub sq1 sq2

/-- `(sq + 1) & SEQ_MASK`. -/
def seqInc (sq : ℕ) : ℕ := (sq + 1) % 0x1000

/-- The sequence number of a frame, `(seq_ctrl & IEEE80211_SCTL_SEQ) >> 4`. -/
def mpduSeqNum (skb : SkBuff) : ℕ := (seqCtrl skb.data &&& 0xfff0) >>> 4

/-! ### The session -/

/-- `struct tid_ampdu_rx`. A timer is armed with its expiry time, or not. -/
structure TidAmpduRx (w : ℕ) where
  reorderBuf : ℕ → Option SkBuff
  reorderTime : ℕ → BitVec w
  sessionTimer : Option (BitVec w)
  reorderTimer : Option (BitVec w)
  headSeqNum : ℕ
  storedMpduNum : ℕ
  ssn : ℕ
  bufSize : ℕ
  timeout : ℕ

/-- The file-scope variables: `HT_RX_REORDER_BUF_TIMEOUT` and `Sta_shortTcp_RxCnt`. -/
structure ReorderTimeout where
  htRxReorderBufTimeout : ℕ
  staShortTcpRxCnt : ℕ

/-- `HZ` of the port. -/
def hz : ℕ := 1000

/-- The initial values: `HZ / 10` and `0`. -/
def reorderTimeoutInit : ReorderTimeout := ⟨hz / 10, 0⟩

variable {w : ℕ}

/-- `time_after(a, b)`: the signed difference `b - a` is negative. -/
def timeAfter (a b : BitVec w) : Bool := (b - a).slt 0

/-- The slot of a sequence number. -/
def slot (t : TidAmpduRx w) (sq : ℕ) : ℕ := seqSub sq t.ssn % t.bufSize

/-! ### Releasing frames -/

/-- Release the frame in a slot, if any, and move the head by one. -/
def ieee80211ReleaseReorderFrame (t : TidAmpduRx w) (index : ℕ) (frames : List SkBuff) :
    TidAmpduRx w × List SkBuff :=
  match t.reorderBuf index with
  | none => ({ t with headSeqNum := seqInc t.headSeqNum }, frames)
  | some skb =>
    ({ t with
        storedMpduNum := (t.storedMpduNum + 0xffff) % 0x10000
        reorderBuf := Function.update t.reorderBuf index none
        headSeqNum := seqInc t.headSeqNum }, frames ++ [skb])

/-- Release frames while the head is behind `headSeqNum`. -/
def releaseFramesLoop (headSeqNum : ℕ) :
    ℕ → TidAmpduRx w → List SkBuff → TidAmpduRx w × List SkBuff
  | 0, t, frames => (t, frames)
  | n + 1, t, frames =>
    if seqLess t.headSeqNum headSeqNum then
      let r := ieee80211ReleaseReorderFrame t (slot t t.headSeqNum) frames
      releaseFramesLoop headSeqNum n r.1 r.2
    else (t, frames)

def ieee80211ReleaseReorderFrames (t : TidAmpduRx w) (headSeqNum : ℕ) (frames : List SkBuff) :
    TidAmpduRx w × List SkBuff :=
  releaseFramesLoop headSeqNum 0x1000 t frames

/-- The scan for frames that have timed out, from slot `j` on. The third component is the slot at
which the scan jumps to `set_release_timer`, if it does. -/
def timeoutScan (tmo : ReorderTimeout) (now : BitVec w) (index : ℕ) :
    ℕ → TidAmpduRx w → ℕ → ℕ → List SkBuff → TidAmpduRx w × List SkBuff × Option ℕ
  | 0, t, _, _, frames => (t, frames, none)
  | n + 1, t, j, skipped, frames =>
    if j = index then (t, frames, none)
    else if (t.reorderBuf j).isNone then
      timeoutScan tmo now index n t ((j + 1) % t.bufSize) (skipped + 1) frames
    else if skipped ≠ 0 ∧
        ¬ timeAfter now (t.reorderTime j + BitVec.ofNat w tmo.htRxReorderBufTimeout) then
      (t, frames, some j)
    else
      let r := ieee80211ReleaseReorderFrame t j frames
      -- the head also moves over the skipped slots
      timeoutScan tmo now index n
        { r.1 with headSeqNum := (r.1.headSeqNum + skipped) % 0x1000 } ((j + 1) % t.bufSize) 0 r.2

/-- Release frames in order until the slot of the head is empty. -/
def inOrderLoop : ℕ → TidAmpduRx w → List SkBuff → TidAmpduRx w × List SkBuff
  | 0, t, frames => (t, frames)
  | n + 1, t, frames =>
    if (t.reorderBuf (slot t t.headSeqNum)).isSome then
      let r := ieee80211ReleaseReorderFrame t (slot t t.headSeqNum) frames
      inOrderLoop n r.1 r.2
    else (t, frames)

/-- The search for the first stored frame; `(index - 1) % buf_size` is the remainder of C, which
is `-1` at slot `0`. -/
def firstStored (t : TidAmpduRx w) (index : ℕ) : ℕ → ℕ → ℕ
  | 0, j => j
  | n + 1, j =>
    if (j : ℤ) = ((index : ℤ) - 1).tmod t.bufSize then j
    else if (t.reorderBuf j).isSome then j
    else firstStored t index n ((j + 1) % t.bufSize)

/-- `set_release_timer`. -/
def setReleaseTimer (tmo : ReorderTimeout) (t : TidAmpduRx w) (j : ℕ) : TidAmpduRx w :=
  { t with reorderTimer := some (t.reorderTime j + 1 + BitVec.ofNat w tmo.htRxReorderBufTimeout) }

/-- The end of `ieee80211_sta_reorder_release`: arm the reorder timer for the first stored frame,
or delete it. -/
def updateReleaseTimer (tmo : ReorderTimeout) (t : TidAmpduRx w) : TidAmpduRx w :=
  if t.storedMpduNum ≠ 0 then
    let index := slot t t.headSeqNum
    setReleaseTimer tmo t (firstStored t index t.bufSize index)
  else { t with reorderTimer := none }

def ieee80211StaReorderRelease (tmo : ReorderTimeout) (now : BitVec w) (t : TidAmpduRx w)
    (frames : List SkBuff) : TidAmpduRx w × List SkBuff :=
  let index := slot t t.headSeqNum
  if (t.reorderBuf index).isNone ∧ t.storedMpduNum ≠ 0 then
    match timeoutScan tmo now index t.bufSize t ((index + 1) % t.bufSize) 1 frames with
    | (t', frames', some j) => (setReleaseTimer tmo t' j, frames')
    | (t', frames', none) => (updateReleaseTimer tmo t', frames')
  else
    let r := inOrderLoop t.bufSize t frames
    (updateReleaseTimer tmo r.1, r.2)

/-! ### A frame arrives -/

/-- The timeout is short while short frames keep coming, and long after a long frame. -/
def updateTimeout (tmo : ReorderTimeout) (skb : SkBuff) : ReorderTimeout :=
  if skb.len < 150 then
    if 50 < tmo.staShortTcpRxCnt + 1 then ⟨hz / 4, 50⟩
    else ⟨tmo.htRxReorderBufTimeout, tmo.staShortTcpRxCnt + 1⟩
  else
    let cnt := if 20 ≤ tmo.staShortTcpRxCnt then tmo.staShortTcpRxCnt - 20
      else tmo.staShortTcpRxCnt
    if cnt < 20 then ⟨hz / 2, 0⟩ else ⟨tmo.htRxReorderBufTimeout, cnt⟩

/-- The frame is data with the EtherType of EAPOL. -/
def isEapol (skb : SkBuff) : Bool :=
  ieee80211IsData (frameControl skb.data) && ieee80211FrameEapol skb.data

/-- What a call of `ieee80211_sta_manage_reorder_buf` leaves: whether the frame was consumed, the
session, the frames released, and the frames freed. -/
structure Managed (w : ℕ) where
  ret : Bool
  agg : TidAmpduRx w
  frames : List SkBuff
  freed : List SkBuff

/-- The part under `reorder_lock` after the window has been moved to hold the frame. -/
def storeOrPass (tmo : ReorderTimeout) (now : BitVec w) (t : TidAmpduRx w) (skb : SkBuff)
    (frames : List SkBuff) : Managed w :=
  let index := slot t (mpduSeqNum skb)
  if (t.reorderBuf index).isSome then ⟨true, t, frames, [skb]⟩
  else if mpduSeqNum skb = t.headSeqNum ∧ t.storedMpduNum = 0 then
    ⟨false, { t with headSeqNum := seqInc t.headSeqNum }, frames, []⟩
  else if isEapol skb ∧ mpduSeqNum skb = t.headSeqNum + 1 ∧ t.storedMpduNum = 0 then
    ⟨false, { t with headSeqNum := seqInc t.headSeqNum }, frames, []⟩
  else
    let r := ieee80211StaReorderRelease tmo now
      { t with
        reorderBuf := Function.update t.reorderBuf index (some skb)
        reorderTime := Function.update t.reorderTime index now
        storedMpduNum := (t.storedMpduNum + 1) % 0x10000 } frames
    ⟨true, r.1, r.2, []⟩

/-- `ieee80211_sta_manage_reorder_buf`, with `tmo` already brought up to date. -/
def ieee80211StaManageReorderBuf (tmo : ReorderTimeout) (now : BitVec w) (t : TidAmpduRx w)
    (skb : SkBuff) (frames : List SkBuff) : Managed w :=
  if seqLess (mpduSeqNum skb) t.headSeqNum then ⟨true, t, frames, [skb]⟩
  else if ¬ seqLess (mpduSeqNum skb) ((t.headSeqNum + t.bufSize) % 0x10000) then
    -- the frame lies beyond the window: move the window so that it ends with the frame
    let r := ieee80211ReleaseReorderFrames t (seqInc (seqSub (mpduSeqNum skb) t.bufSize)) frames
    storeOrPass tmo now r.1 skb r.2
  else storeOrPass tmo now t skb frames

/-- What the caller, `ieee80211_rx_reorder_ampdu`, hands on: the frames released and, if the frame
was not consumed, the frame itself. -/
def Managed.handedOn (m : Managed w) (skb : SkBuff) : List SkBuff :=
  if m.ret then m.frames else m.frames ++ [skb]

/-! ### Teardown -/

/-- `ieee80211_free_tid_rx`: the frames that it frees; to free no frame does nothing. -/
def ieee80211FreeTidRx (t : TidAmpduRx w) : List SkBuff :=
  (List.range t.bufSize).filterMap t.reorderBuf

/-! ### Setting up a session -/

/-- The fields of an ADDBA request, in host order. -/
structure AddbaReq where
  capab : UInt16
  timeout : UInt16
  startSeqNum : UInt16

/-- What `ieee80211_process_addba_request` reads of the station. -/
structure AddbaSta where
  blockBa : Bool
  htCap : ℕ

/-- `capab & IEEE80211_ADDBA_PARAM_TID_MASK`. -/
def AddbaReq.tid (req : AddbaReq) : ℕ := (req.capab.toNat &&& 0x003c) >>> 2

/-- The buffer size of the session; `0` asks for `IEEE80211_MAX_AMPDU_BUF`. -/
def AddbaReq.bufSize (req : AddbaReq) : ℕ :=
  let size := (req.capab.toNat &&& 0xffc0) >>> 6
  if size = 0 then 0x40 else size

/-- `ieee80211_process_addba_request`: the session it sets up, if it accepts the request and the
allocations succeed. The slots are empty, as the `kcalloc` of Linux leaves them. -/
def ieee80211ProcessAddbaRequest (now : BitVec w) (sta : AddbaSta) (req : AddbaReq)
    (alloc : Bool) : Option (TidAmpduRx w) :=
  let baPolicy := (req.capab.toNat &&& 0x0002) >>> 1
  if sta.blockBa then none
  else if (baPolicy ≠ 1 ∧ sta.htCap &&& 0x0400 = 0) ∨
      0x40 < (req.capab.toNat &&& 0xffc0) >>> 6 then none
  else if ¬ alloc then none
  else some {
    reorderBuf := fun _ => none
    reorderTime := fun _ => 0
    sessionTimer := if req.timeout.toNat ≠ 0 then
      some (now + BitVec.ofNat w (req.timeout.toNat * 1024)) else none
    reorderTimer := none
    headSeqNum := req.startSeqNum.toNat >>> 4
    storedMpduNum := 0
    ssn := req.startSeqNum.toNat >>> 4
    bufSize := req.bufSize
    timeout := req.timeout.toNat }

/-- **The session that an ADDBA request sets up**: the head is at the starting sequence number and
nothing is stored. -/
theorem addba_spec {now : BitVec w} {sta : AddbaSta} {req : AddbaReq} {t : TidAmpduRx w}
    (h : ieee80211ProcessAddbaRequest now sta req true = some t) :
    0 < t.bufSize ∧ t.bufSize ≤ 0x40 ∧ t.ssn < 0x1000 ∧ t.headSeqNum = t.ssn ∧
      t.storedMpduNum = 0 ∧ ∀ i, t.reorderBuf i = none := by
  have hssn : req.startSeqNum.toNat >>> 4 < 0x1000 := by
    have := req.startSeqNum.toNat_lt
    rw [Nat.shiftRight_eq_div_pow]
    omega
  have hpos : 0 < req.bufSize := by
    unfold AddbaReq.bufSize
    dsimp only
    split_ifs <;> omega
  have hsize : ¬ 0x40 < (req.capab.toNat &&& 0xffc0) >>> 6 → req.bufSize ≤ 0x40 := fun hle => by
    unfold AddbaReq.bufSize
    dsimp only
    split_ifs <;> omega
  unfold ieee80211ProcessAddbaRequest at h
  dsimp only at h
  rcases sta.blockBa.eq_false_or_eq_true with hb | hb
  · rw [if_pos hb] at h; cases h
  · rw [if_neg (by rw [hb]; exact Bool.false_ne_true)] at h
    split at h
    · cases h
    · next hparam =>
      rw [if_neg (by simp)] at h
      obtain rfl := Option.some.inj h
      exact ⟨hpos, hsize fun hgt => hparam (Or.inr hgt), hssn, rfl, rfl, fun _ => rfl⟩

/-- A QoS data frame with a sequence number. -/
def qosFrame (sn : ℕ) : SkBuff :=
  ⟨0x88 :: List.replicate 21 0 ++ [UInt8.ofNat (sn * 16), UInt8.ofNat (sn / 16), 0, 0]⟩

/-- A session of 8 slots from sequence number 0 on. -/
def freshSession : TidAmpduRx 32 :=
  (ieee80211ProcessAddbaRequest 0 ⟨false, 0⟩ ⟨0x0202, 0, 0⟩ true).get (by decide)

theorem freshSession_eq :
    ieee80211ProcessAddbaRequest 0 ⟨false, 0⟩ ⟨0x0202, 0, 0⟩ true = some freshSession :=
  (Option.some_get (by decide)).symm

end Atbm6441.Rx.Reorder
