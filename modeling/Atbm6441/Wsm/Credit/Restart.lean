import Atbm6441.Wsm.Credit.Run

/-!
# The credits after a restart of the firmware

`wsm_startup_indication` sets `hw_xmits` and `hw_bufs_free` again, but not `n_xmits`, which nothing
ever resets. `startup_iff` : the credits are established again exactly when `n_xmits` is zero.
-/

namespace Atbm6441.Wsm.Credit

open Atbm6441.Lib

/-- `wsm_startup_indication`. -/
def HwPriv.startup (h : HwPriv) (numInpChBufs : BitVec 16) : HwPriv :=
  { h with
    numInpChBufs := numInpChBufs
    hwXmits := numInpChBufs.zeroExtend 32
    hwBufsFree := numInpChBufs.zeroExtend 32
    hwBufsFreeInit := numInpChBufs.zeroExtend 32 }

/-- Runs of an idle bottom half with these counters and a device that has started again. -/
def restarted (h : HwPriv) : System State Act where
  init s := s = ⟨.idle, h, 0, 0, 0, []⟩
  step := State.step

/-- **The credits are established**: the counters agree with the number of buffers, and in what
follows no `BUG_ON` is reached and no check fails while the last event leaves a buffer. -/
structure Established (h : HwPriv) (numInpChBufs : BitVec 16) : Prop where
  diff : (h.hwXmits - h.nXmits).toInt = h.hwBufsFree.toInt
  free : h.hwBufsFree.toInt = numInpChBufs.toNat
  noBug : ∀ s, Reach (restarted h) (fun _ _ => True) s → s.hw.bug = false
  noBlock : ∀ s, Reach (restarted h) (fun _ _ => True) s →
    s.hw.hwXmits = numInpChBufs.zeroExtend 32 + BitVec.ofNat 32 s.consumed →
    s.sent < s.consumed + numInpChBufs.toNat → (atbmSdioHaveEnoughSpace s.hw 1).1 = true

variable {h : HwPriv} {c : Credit} {s : State}

theorem startup_eq (hbug : h.bug = false) (hx : h.nXmits = 0) (n : BitVec 16) :
    h.startup n = wsmStartupIndication n := by
  rw [HwPriv.startup, hx, hbug]
  rfl

theorem zeroExtend_toInt (n : BitVec 16) : (n.zeroExtend 32).toInt = n.toNat := by
  rw [show n.zeroExtend 32 = BitVec.ofNat 32 n.toNat from BitVec.eq_of_toNat_eq (by simp)]
  exact ofNat_toInt (by omega)

theorem step_numInpChBufs {t : State} {a : Act} (ht : s.step a = some t) :
    t.hw.numInpChBufs = s.hw.numInpChBufs := by
  have hspace : ∀ h : HwPriv, (atbmSdioHaveEnoughSpace h 1).2.numInpChBufs = h.numInpChBufs := by
    intro h
    unfold atbmSdioHaveEnoughSpace
    split_ifs <;> rfl
  obtain ⟨pc, hw, sent, delivered, consumed, events⟩ := s
  cases a with
  | start | get | count | waitTest =>
    cases pc <;> cases ht
    rfl
  | check | poll =>
    cases pc <;> cases ht
    exact hspace hw
  | write ok arrived =>
    cases pc <;> try cases ht
    simp only [State.step] at ht
    split_ifs at ht <;> cases ht <;> rfl
  | consume =>
    simp only [State.step] at ht
    split_ifs at ht
    cases ht
    rfl
  | announce =>
    cases ht
    rfl
  | event ignored =>
    rcases events with _ | ⟨e, es⟩
    · cases ht
    · cases ignored <;> cases ht <;> rfl

/-- **The check** finds space when a message may be sent now or once the last event is taken up. -/
theorem haveEnough_true (hc : Counters h c) (ho : c.Ok) (hfree : 0 < c.refresh.free) :
    (atbmSdioHaveEnoughSpace h 1).1 = true := by
  unfold atbmSdioHaveEnoughSpace
  by_cases henough : h.enough 1 = true
  · rw [if_pos henough]
  · rw [if_neg henough]
    have hadd := ho.refresh.free_add_le
    have hcap : c.refresh.cap < 65536 := hc.cap_lt
    dsimp only
    rw [HwPriv.enough]
    dsimp only
    rw [hc.sub_eq ho, BitVec.ule, BitVec.toNat_ofNat, Nat.mod_eq_of_lt (by omega)]
    exact decide_eq_true hfree

theorem seen_eq (hc : Counters h c) (ho : c.Ok)
    (hx : h.hwXmits = h.numInpChBufs.zeroExtend 32 + BitVec.ofNat 32 c.consumed) :
    c.seen = c.consumed := by
  have hcap := hc.cap_lt
  have hseen := ho.seen_le
  have hout := ho.outstanding_le
  have hdel := ho.consumed_le
  have hsent := ho.delivered_le
  have hle := ho.sent_le
  have hgr := ho.granted_le
  rw [hc.hwXmits] at hx
  have hmod := congrArg BitVec.toNat hx
  rw [BitVec.toNat_ofNat, BitVec.toNat_add, BitVec.toNat_ofNat] at hmod
  have hn : (h.numInpChBufs.zeroExtend 32).toNat = c.cap := by
    rw [hc.cap, BitVec.toNat_setWidth]
    omega
  rw [hn] at hmod
  omega

/-- **What follows a startup indication** refines a sender with credits, when `n_xmits` was zero. -/
theorem restarted_refines (hbug : h.bug = false) (hx : h.nXmits = 0) {n : BitVec 16}
    (hs : Reach (restarted (h.startup n)) (fun _ _ => True) s) :
    s.hw.numInpChBufs = n ∧ ∃ c, Refines s c := by
  refine Reach.inv (I := fun s => s.hw.numInpChBufs = n ∧ ∃ c, Refines s c) ?_ ?_ hs
  · rintro s rfl
    rw [startup_eq hbug hx]
    exact ⟨rfl, refines_init ⟨n, rfl⟩⟩
  · rintro s a t ⟨hn, c, hc⟩ - ht
    exact ⟨(step_numInpChBufs ht).trans hn, refines_step hc ht⟩

theorem nXmits_eq_zero {n : BitVec 16} (hdiff : (n.zeroExtend 32 - h.nXmits).toInt = n.toNat) :
    h.nXmits = 0 := by
  rw [← zeroExtend_toInt n] at hdiff
  have heq : n.zeroExtend 32 - h.nXmits = n.zeroExtend 32 := BitVec.eq_of_toInt_eq hdiff
  have hnat := congrArg BitVec.toNat heq
  have hlt := h.nXmits.isLt
  have hlt' := (n.zeroExtend 32).isLt
  rw [BitVec.toNat_sub] at hnat
  refine BitVec.eq_of_toNat_eq ?_
  show h.nXmits.toNat = 0
  omega

/-- **The credits are established again exactly when `n_xmits` is zero.** -/
theorem startup_iff (hbug : h.bug = false) (n : BitVec 16) :
    Established (h.startup n) n ↔ h.nXmits = 0 := by
  constructor
  · intro he
    exact nXmits_eq_zero (he.diff.trans he.free)
  · intro hx
    refine ⟨?_, zeroExtend_toInt n, fun s hs => ?_, fun s hs hlast hout => ?_⟩
    · show (n.zeroExtend 32 - h.nXmits).toInt = (n.zeroExtend 32).toInt
      rw [hx]
      exact congrArg BitVec.toInt (BitVec.sub_zero _)
    · obtain ⟨-, c, hc⟩ := restarted_refines hbug hx hs
      exact hc.counters.noBug
    · obtain ⟨hn, c, hc⟩ := restarted_refines hbug hx hs
      rw [← hn, hc.consumed] at hlast
      have hseen := seen_eq hc.counters hc.ok hlast
      refine haveEnough_true hc.counters hc.ok ?_
      show 0 < c.cap + c.seen - c.sent
      rw [hseen, hc.counters.cap, hn]
      rw [hc.sent, hc.consumed] at hout
      omega

/-! ### Runs -/

/-- The first startup indication. -/
theorem startup_iff_first : Established (HwPriv.startup ⟨0, 0, 0, 0, 0, false⟩ 4) 4 :=
  (startup_iff rfl 4).mpr rfl

/-- **After one message the firmware has started again**, with one buffer: when its buffer is used,
the next check takes the difference of the counters for free buffers, and the `BUG_ON` on them is
reached. -/
theorem restarted_bug : ¬ Established (HwPriv.startup ⟨1, 1, 1, 0, 0, false⟩ 1) 1 ∧
    ∃ s, Reach (restarted (HwPriv.startup ⟨1, 1, 1, 0, 0, false⟩ 1)) (fun _ _ => True) s ∧
      s.hw.bug = true := by
  have hout : (exec (restarted (HwPriv.startup ⟨1, 1, 1, 0, 0, false⟩ 1))
      ⟨.idle, HwPriv.startup ⟨1, 1, 1, 0, 0, false⟩ 1, 0, 0, 0, []⟩
      [.start, .check, .get true, .count true, .check, .get true, .count true]).map
        (fun s => s.hw.bug) = some true := by
    decide
  obtain ⟨s, hs, hbug⟩ := Option.map_eq_some_iff.mp hout
  have hr := Reach.of_exec (.init rfl) hs
  refine ⟨fun he => ?_, s, hr, hbug⟩
  rw [he.noBug s hr] at hbug
  cases hbug

end Atbm6441.Wsm.Credit
