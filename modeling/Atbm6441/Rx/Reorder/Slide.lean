import Atbm6441.Rx.Reorder.Slots

/-!
# The window-slide step

`ieee80211_sta_manage_reorder_buf` moves the window for a frame that lies beyond it, and goes on as if
the frame now were always in the range of the reordering buffer. The move is a loop that ends when the
head is no longer behind its new value; two numbers at distance 2048 are behind each other in neither
way.

* `head_releaseFramesLoop` : the head moves to the new value, or not at all;
* `slide_iff` : the frame is in the range, at the end of the window, unless the buffer has one slot
  and the frame lies 2048 beyond the head.
-/

namespace Atbm6441.Rx.Reorder

open Atbm6441.Ieee80211 Atbm6441.Lib

variable {w : ℕ} {t : TidAmpduRx w}

/-- The window-slide step of `ieee80211_sta_manage_reorder_buf`. -/
def slideWindow (t : TidAmpduRx w) (mpduSeqNum : ℕ) (frames : List SkBuff) :
    TidAmpduRx w × List SkBuff :=
  if ¬ seqLess mpduSeqNum ((t.headSeqNum + t.bufSize) % 0x10000) then
    ieee80211ReleaseReorderFrames t (seqInc (seqSub mpduSeqNum t.bufSize)) frames
  else (t, frames)

/-- **The step is that of the function**, for a frame that is not out of date. -/
theorem manage_slide (tmo : ReorderTimeout) (now : BitVec w) {skb : SkBuff} (frames : List SkBuff)
    (hnew : ¬ seqLess (mpduSeqNum skb) t.headSeqNum) :
    ieee80211StaManageReorderBuf tmo now t skb frames =
      storeOrPass tmo now (slideWindow t (mpduSeqNum skb) frames).1 skb
        (slideWindow t (mpduSeqNum skb) frames).2 := by
  unfold ieee80211StaManageReorderBuf slideWindow
  rw [if_neg hnew]
  by_cases hbeyond : ¬ seqLess (mpduSeqNum skb) ((t.headSeqNum + t.bufSize) % 0x10000)
  · rw [if_pos hbeyond, if_pos hbeyond]
  · rw [if_neg hbeyond, if_neg hbeyond]

/-! ### Where the head goes -/

/-- **The loop moves the head** to the new value if it is behind it, and not at all if it is not. -/
theorem head_releaseFramesLoop {target : ℕ} (ht : target < 0x1000) {n : ℕ} (frames : List SkBuff)
    (hhead : t.headSeqNum < 0x1000)
    (hn : seqLess t.headSeqNum target → seqSub target t.headSeqNum ≤ n) :
    (releaseFramesLoop target n t frames).1.headSeqNum =
        (if seqLess t.headSeqNum target then target else t.headSeqNum) ∧
      (releaseFramesLoop target n t frames).1.bufSize = t.bufSize := by
  induction n generalizing t frames with
  | zero =>
    have hnot : ¬ seqLess t.headSeqNum target := fun hless => by
      have h0 := hn hless
      rw [seqLess_iff] at hless
      unfold seqSub at h0 hless
      omega
    rw [if_neg hnot]
    exact ⟨rfl, rfl⟩
  | succ n ih =>
    rw [releaseFramesLoop]
    by_cases hless : seqLess t.headSeqNum target
    · obtain ⟨hinc, hsize⟩ := releaseFrame_head (t := t) (slot t t.headSeqNum) frames
      have hstep := hn hless
      rw [seqLess_iff] at hless
      -- one step further the head is at the new value, or still behind it
      have hnext : seqLess (seqInc t.headSeqNum) target ∨ seqInc t.headSeqNum = target := by
        rw [seqLess_iff]
        unfold seqSub seqInc at *
        omega
      have hrest := ih (ieee80211ReleaseReorderFrame t (slot t t.headSeqNum) frames).2
        (hinc ▸ seqInc_lt _) fun _ => by
          rw [hinc]
          unfold seqSub seqInc at *
          omega
      rw [if_pos (seqLess_iff _ _ |>.mpr hless), if_pos (seqLess_iff _ _ |>.mpr hless)]
      refine ⟨?_, hrest.2.trans hsize⟩
      rw [hrest.1, hinc]
      rcases hnext with hbehind | heq
      · rw [if_pos hbehind]
      · rw [heq, ite_self]
    · rw [if_neg hless, if_neg hless]
      exact ⟨rfl, rfl⟩

theorem head_releaseFrames {target : ℕ} (ht : target < 0x1000) (frames : List SkBuff)
    (hhead : t.headSeqNum < 0x1000) :
    (ieee80211ReleaseReorderFrames t target frames).1.headSeqNum =
        (if seqLess t.headSeqNum target then target else t.headSeqNum) ∧
      (ieee80211ReleaseReorderFrames t target frames).1.bufSize = t.bufSize := by
  refine head_releaseFramesLoop ht frames hhead fun _ => ?_
  unfold seqSub
  omega

/-! ### The range of the buffer -/

/-- What the function relies on after the step: the frame is in `[head_seq_num, head_seq_num +
buf_size)`, and if it was beyond the window, the window ends with it. -/
structure Slid (t t' : TidAmpduRx w) (mpduSeqNum : ℕ) : Prop where
  inRange : InWindow t' mpduSeqNum
  head : ¬ seqLess mpduSeqNum ((t.headSeqNum + t.bufSize) % 0x10000) →
    (t'.headSeqNum : ℤ) = (mpduSeqNum - t.bufSize + 1) % 0x1000

/-- **The frame is in the range of the buffer** after the step, unless the buffer has one slot and the
frame lies 2048 beyond the head. -/
theorem slide_iff {sq : ℕ} (hhead : t.headSeqNum < 0x1000) (hsq : sq < 0x1000)
    (hpos : 1 ≤ t.bufSize) (hle : t.bufSize ≤ 0x40) (hnew : ¬ seqLess sq t.headSeqNum)
    (frames : List SkBuff) : Slid t (slideWindow t sq frames).1 sq ↔
      ¬ (t.bufSize = 1 ∧ seqSub sq t.headSeqNum = 0x800) := by
  have hnear : seqSub sq t.headSeqNum ≤ 0x800 := by
    rw [seqLess_iff] at hnew
    omega
  have hbeyond : ¬ seqLess sq ((t.headSeqNum + t.bufSize) % 0x10000) ↔
      t.bufSize ≤ seqSub sq t.headSeqNum := by
    rw [seqLess_iff]
    unfold seqSub at *
    omega
  unfold slideWindow
  by_cases hb : t.bufSize ≤ seqSub sq t.headSeqNum
  · rw [if_pos (hbeyond.mpr hb)]
    have htarget : (seqInc (seqSub sq t.bufSize) : ℤ) = (sq - t.bufSize + 1) % 0x1000 := by
      unfold seqInc seqSub
      omega
    obtain ⟨hto, hsize⟩ := head_releaseFrames (seqInc_lt (seqSub sq t.bufSize)) frames hhead
    have hmoves : seqLess t.headSeqNum (seqInc (seqSub sq t.bufSize)) ↔
        ¬ (t.bufSize = 1 ∧ seqSub sq t.headSeqNum = 0x800) := by
      rw [seqLess_iff]
      unfold seqInc seqSub at *
      omega
    by_cases hm : seqLess t.headSeqNum (seqInc (seqSub sq t.bufSize))
    · rw [if_pos hm] at hto
      refine iff_of_true ⟨⟨hsq, ?_⟩, fun _ => ?_⟩ (hmoves.mp hm)
      · rw [hto, hsize]
        unfold seqInc seqSub
        omega
      · rw [hto, htarget]
    · rw [if_neg hm] at hto
      refine iff_of_false (fun hslid => ?_) fun hnot => hm (hmoves.mpr hnot)
      have hin := hslid.inRange.2
      rw [hto, hsize] at hin
      omega
  · rw [if_neg (mt hbeyond.mp hb)]
    exact iff_of_true ⟨⟨hsq, Nat.lt_of_not_le hb⟩, fun hno => absurd (hbeyond.mp hno) hb⟩
      fun hone => hb (by omega)

/-- A buffer of eight slots, and a frame 2048 beyond the head. -/
theorem slide_iff_eight : Slid freshSession (slideWindow freshSession 2048 []).1 2048 :=
  (slide_iff (by decide) (by decide) (by decide) (by decide) (by decide) []).mpr (by decide)

/-- A session of one slot from sequence number 0 on. -/
def oneSlot : TidAmpduRx 32 :=
  (ieee80211ProcessAddbaRequest 0 ⟨false, 0⟩ ⟨0x0042, 0, 0⟩ true).get (by decide)

/-- **The window does not move**: with one slot, a frame 2048 beyond the head is not out of date, and
not in the range of the buffer after the step. -/
theorem slide_stays : ieee80211ProcessAddbaRequest 0 ⟨false, 0⟩ ⟨0x0042, 0, 0⟩ true = some oneSlot ∧
    oneSlot.bufSize = 1 ∧ oneSlot.headSeqNum = 0 ∧ seqLess 2048 0 = false ∧
    (slideWindow oneSlot 2048 []).1.headSeqNum = 0 ∧
    ¬ Slid oneSlot (slideWindow oneSlot 2048 []).1 2048 := by
  refine ⟨(Option.some_get (by decide)).symm, by decide, by decide, by decide, by decide +kernel,
    fun hslid => ?_⟩
  have hin := hslid.inRange.2
  revert hin
  decide +kernel

end Atbm6441.Rx.Reorder
