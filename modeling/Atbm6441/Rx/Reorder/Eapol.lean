import Atbm6441.Rx.Reorder.Slide

/-!
# EAPOL frames that are passed on early

An EAPOL frame one position beyond the head is passed on at once if nothing is stored, ahead of the
frame that is missing. The head moves by one position only, on to the number of the EAPOL frame.

* `early_again`, `early_head` : so a second frame with that number is passed on as well;
* `kept_of_not_early` : a frame that is passed on in order leaves the head behind its number, which is
  not handed on again until the head is far beyond it;
* `eapol_kept_iff` : in every state of a session, the contract of a frame that is passed on is kept
  exactly if it was not passed on early.
-/

namespace Atbm6441.Rx.Reorder

open Atbm6441.Ieee80211 Atbm6441.Lib

variable {w : ℕ} {t : TidAmpduRx w}

/-! ### How far the head moves -/

theorem head_inOrderLoop : ∀ (n : ℕ) {t : TidAmpduRx w} (frames : List SkBuff),
    t.headSeqNum < 0x1000 →
      ∃ k ≤ n, (inOrderLoop n t frames).1.headSeqNum = (t.headSeqNum + k) % 0x1000
  | 0, t, frames, h => ⟨0, Nat.le_refl 0, (Nat.mod_eq_of_lt h).symm⟩
  | n + 1, t, frames, h => by
    rw [inOrderLoop]
    by_cases hsome : (t.reorderBuf (slot t t.headSeqNum)).isSome
    · rw [if_pos hsome]
      have hhead := (releaseFrame_head (t := t) (slot t t.headSeqNum) frames).1
      obtain ⟨k, hk, hrest⟩ := head_inOrderLoop n
        (ieee80211ReleaseReorderFrame t (slot t t.headSeqNum) frames).2 (hhead ▸ seqInc_lt _)
      refine ⟨k + 1, by omega, hrest.trans ?_⟩
      rw [hhead]
      unfold seqInc
      omega
    · rw [if_neg hsome]
      exact ⟨0, Nat.zero_le _, (Nat.mod_eq_of_lt h).symm⟩

theorem head_timeoutScan (tmo : ReorderTimeout) (now : BitVec w) (index : ℕ) : ∀ (n : ℕ)
    {t : TidAmpduRx w} (j skipped : ℕ) (frames : List SkBuff), t.headSeqNum < 0x1000 →
      ∃ k ≤ n + skipped, (timeoutScan tmo now index n t j skipped frames).1.headSeqNum =
        (t.headSeqNum + k) % 0x1000
  | 0, t, j, skipped, frames, h => ⟨0, Nat.zero_le _, (Nat.mod_eq_of_lt h).symm⟩
  | n + 1, t, j, skipped, frames, h => by
    have hstay : t.headSeqNum = (t.headSeqNum + 0) % 0x1000 := (Nat.mod_eq_of_lt h).symm
    rw [timeoutScan]
    by_cases hj : j = index
    · rw [if_pos hj]
      exact ⟨0, Nat.zero_le _, hstay⟩
    · rw [if_neg hj]
      by_cases hnone : (t.reorderBuf j).isNone
      · rw [if_pos hnone]
        obtain ⟨k, hk, hrest⟩ := head_timeoutScan tmo now index n ((j + 1) % t.bufSize)
          (skipped + 1) frames h
        exact ⟨k, by omega, hrest⟩
      · rw [if_neg hnone]
        by_cases hwait : skipped ≠ 0 ∧
            ¬ timeAfter now (t.reorderTime j + BitVec.ofNat w tmo.htRxReorderBufTimeout)
        · rw [if_pos hwait]
          exact ⟨0, Nat.zero_le _, hstay⟩
        · rw [if_neg hwait]
          have hhead := (releaseFrame_head (t := t) j frames).1
          obtain ⟨k, hk, hrest⟩ := head_timeoutScan tmo now index n
            (t := { (ieee80211ReleaseReorderFrame t j frames).1 with headSeqNum :=
              ((ieee80211ReleaseReorderFrame t j frames).1.headSeqNum + skipped) % 0x1000 })
            ((j + 1) % t.bufSize) 0 (ieee80211ReleaseReorderFrame t j frames).2
            (Nat.mod_lt _ (by decide))
          refine ⟨k + (skipped + 1), by omega, hrest.trans ?_⟩
          dsimp only
          rw [hhead]
          unfold seqInc
          omega

theorem head_updateReleaseTimer (tmo : ReorderTimeout) (t : TidAmpduRx w) :
    (updateReleaseTimer tmo t).headSeqNum = t.headSeqNum := by
  unfold updateReleaseTimer
  split_ifs <;> rfl

theorem head_reorderRelease (tmo : ReorderTimeout) (now : BitVec w) (hc : Counted t)
    (frames : List SkBuff) :
    ∃ k ≤ 0x41, (ieee80211StaReorderRelease tmo now t frames).1.headSeqNum =
      (t.headSeqNum + k) % 0x1000 := by
  have hsize := hc.size_le
  unfold ieee80211StaReorderRelease
  dsimp only
  by_cases hscan : (t.reorderBuf (slot t t.headSeqNum)).isNone ∧ t.storedMpduNum ≠ 0
  · rw [if_pos hscan]
    obtain ⟨k, hk, hhead⟩ := head_timeoutScan tmo now (slot t t.headSeqNum) t.bufSize
      ((slot t t.headSeqNum + 1) % t.bufSize) 1 frames hc.head
    refine ⟨k, by omega, ?_⟩
    rw [← hhead]
    rcases timeoutScan tmo now (slot t t.headSeqNum) t.bufSize t
      ((slot t t.headSeqNum + 1) % t.bufSize) 1 frames with ⟨t', frames', _ | j⟩
    · exact head_updateReleaseTimer tmo t'
    · rfl
  · rw [if_neg hscan]
    obtain ⟨k, hk, hhead⟩ := head_inOrderLoop t.bufSize frames hc.head
    exact ⟨k, by omega, (head_updateReleaseTimer tmo _).trans hhead⟩

theorem head_storeOrPass (tmo : ReorderTimeout) (now : BitVec w) (hc : Counted t) (skb : SkBuff)
    (frames : List SkBuff) : ∃ k ≤ 0x41,
      (storeOrPass tmo now t skb frames).agg.headSeqNum = (t.headSeqNum + k) % 0x1000 := by
  unfold storeOrPass
  dsimp only
  by_cases hdup : (t.reorderBuf (slot t (mpduSeqNum skb))).isSome
  · rw [if_pos hdup]
    exact ⟨0, by omega, (Nat.mod_eq_of_lt hc.head).symm⟩
  · rw [if_neg hdup]
    split_ifs
    · exact ⟨1, by omega, rfl⟩
    · exact ⟨1, by omega, rfl⟩
    · exact head_reorderRelease tmo now (hc.put hdup (hc.slot_lt _) skb now).1 frames

theorem counted_slideWindow (hc : Counted t) (sq : ℕ) (frames : List SkBuff) :
    Counted (slideWindow t sq frames).1 := by
  unfold slideWindow
  split_ifs
  · exact hc
  · exact (conserves_releaseFramesLoop _ _ frames hc).counted

/-- **The head moves by at most half of the sequence numbers** and the size of the buffer. -/
theorem head_manage (tmo : ReorderTimeout) (now : BitVec w) (hc : Counted t) (skb : SkBuff)
    (frames : List SkBuff) : ∃ k ≤ 0x841,
      (ieee80211StaManageReorderBuf tmo now t skb frames).agg.headSeqNum =
        (t.headSeqNum + k) % 0x1000 := by
  have hhead := hc.head
  have hpos := hc.size_pos
  have hsize := hc.size_le
  by_cases hstale : seqLess (mpduSeqNum skb) t.headSeqNum
  · rw [manage_stale frames tmo now ((seqLess_iff _ _).mp hstale)]
    exact ⟨0, by omega, (Nat.mod_eq_of_lt hhead).symm⟩
  · rw [manage_slide tmo now frames hstale]
    have hslid : ∃ k ≤ 0x800,
        (slideWindow t (mpduSeqNum skb) frames).1.headSeqNum = (t.headSeqNum + k) % 0x1000 := by
      unfold slideWindow
      split_ifs with hin
      · exact ⟨0, by omega, (Nat.mod_eq_of_lt hhead).symm⟩
      · rw [(head_releaseFrames (seqInc_lt _) frames hhead).1]
        split_ifs with hless
        · refine ⟨seqSub (seqInc (seqSub (mpduSeqNum skb) t.bufSize)) t.headSeqNum, ?_, ?_⟩
          · rw [seqLess_iff] at hstale hless
            unfold seqInc seqSub at *
            omega
          · unfold seqInc seqSub
            omega
        · exact ⟨0, by omega, (Nat.mod_eq_of_lt hhead).symm⟩
    obtain ⟨k, hk, hmove⟩ := hslid
    obtain ⟨k', hk', hstore⟩ := head_storeOrPass tmo now
      (counted_slideWindow hc (mpduSeqNum skb) frames) skb
      (slideWindow t (mpduSeqNum skb) frames).2
    refine ⟨k + k', by omega, ?_⟩
    rw [hstore, hmove]
    omega

/-! ### The contract of a frame that is passed on -/

/-- **A frame takes the early branch**: it is an EAPOL frame, not out of date, and after the
window-slide step it is one position beyond the head and nothing is stored. -/
structure Early (t : TidAmpduRx w) (skb : SkBuff) : Prop where
  fresh : ¬ seqLess (mpduSeqNum skb) t.headSeqNum
  eapol : isEapol skb
  seq : mpduSeqNum skb = (slideWindow t (mpduSeqNum skb) []).1.headSeqNum + 1
  empty : (slideWindow t (mpduSeqNum skb) []).1.storedMpduNum = 0

/-- The life that goes on from `s`. -/
def lifeFrom (s : Life w) : System (Life w) (LifeEv w) := ⟨(· = s), Life.step⟩

/-- The head is less than a quarter of the sequence numbers beyond `sn`, which so has not come round
again. -/
def headNear (sn : ℕ) (s : Life w) (_ : LifeEv w) : Prop :=
  ∀ t, s.agg = some t → seqSub t.headSeqNum sn < 0x400

/-- **The contract** after a frame with the number `sn` was passed on: no frame with that number is
handed on again, and the next consecutive frame is handed on when it arrives. -/
structure Kept (s : Life w) (sn : ℕ) : Prop where
  once : ∀ s', Reach (lifeFrom s) (headNear sn) s' →
    ∀ f ∈ s'.handed.drop s.handed.length, mpduSeqNum f ≠ sn
  next : ∀ skb now s', mpduSeqNum skb = seqInc sn → s.step (.frame skb now) = some s' →
    s'.handed = s.handed ++ [skb]

/-- The contract of the frame `skb`, if it is passed on when it arrives. -/
def Contract (s : Life w) (skb : SkBuff) (now : BitVec w) : Prop :=
  ∀ t s', s.agg = some t → s.step (.frame skb now) = some s' →
    (ieee80211StaManageReorderBuf (updateTimeout s.tmo skb) now t skb []).ret = false →
    Kept s' (mpduSeqNum skb)

theorem storeOrPass_passed {tmo : ReorderTimeout} {now : BitVec w} {skb : SkBuff}
    {frames : List SkBuff} (h : (storeOrPass tmo now t skb frames).ret = false) :
    t.storedMpduNum = 0 ∧
      (storeOrPass tmo now t skb frames).agg = { t with headSeqNum := seqInc t.headSeqNum } ∧
      (mpduSeqNum skb = t.headSeqNum ∨ isEapol skb ∧ mpduSeqNum skb = t.headSeqNum + 1) := by
  unfold storeOrPass at h ⊢
  dsimp only at h ⊢
  by_cases hdup : (t.reorderBuf (slot t (mpduSeqNum skb))).isSome
  · rw [if_pos hdup] at h
    cases h
  · rw [if_neg hdup] at h ⊢
    by_cases horder : mpduSeqNum skb = t.headSeqNum ∧ t.storedMpduNum = 0
    · rw [if_pos horder]
      exact ⟨horder.2, rfl, Or.inl horder.1⟩
    · rw [if_neg horder] at h ⊢
      by_cases hearly : isEapol skb ∧ mpduSeqNum skb = t.headSeqNum + 1 ∧ t.storedMpduNum = 0
      · rw [if_pos hearly]
        exact ⟨hearly.2.2, rfl, Or.inr ⟨hearly.1, hearly.2.1⟩⟩
      · rw [if_neg hearly] at h
        cases h

theorem manage_passed {tmo : ReorderTimeout} {now : BitVec w} {skb : SkBuff}
    (h : (ieee80211StaManageReorderBuf tmo now t skb []).ret = false) :
    ¬ seqLess (mpduSeqNum skb) t.headSeqNum ∧
      (slideWindow t (mpduSeqNum skb) []).1.storedMpduNum = 0 ∧
      (ieee80211StaManageReorderBuf tmo now t skb []).agg =
        { (slideWindow t (mpduSeqNum skb) []).1 with
          headSeqNum := seqInc (slideWindow t (mpduSeqNum skb) []).1.headSeqNum } ∧
      (mpduSeqNum skb = (slideWindow t (mpduSeqNum skb) []).1.headSeqNum ∨
        isEapol skb ∧ mpduSeqNum skb = (slideWindow t (mpduSeqNum skb) []).1.headSeqNum + 1) := by
  have hfresh : ¬ seqLess (mpduSeqNum skb) t.headSeqNum := fun hstale => by
    rw [manage_stale [] tmo now ((seqLess_iff _ _).mp hstale)] at h
    cases h
  rw [manage_slide tmo now [] hfresh] at h ⊢
  exact ⟨hfresh, storeOrPass_passed h⟩

/-- **An early frame is passed on**, and the head is at its own number. -/
theorem early_head (tmo : ReorderTimeout) (now : BitVec w) {skb : SkBuff} (hc : Counted t)
    (h : Early t skb) :
    (ieee80211StaManageReorderBuf tmo now t skb []).ret = false ∧
      (ieee80211StaManageReorderBuf tmo now t skb []).agg.headSeqNum = mpduSeqNum skb ∧
      (ieee80211StaManageReorderBuf tmo now t skb []).agg.storedMpduNum = 0 := by
  have hslid := counted_slideWindow hc (mpduSeqNum skb) []
  have hlt := mpduSeqNum_lt skb
  have hseq := h.seq
  have hnone : ¬ ((slideWindow t (mpduSeqNum skb) []).1.reorderBuf
      (slot (slideWindow t (mpduSeqNum skb) []).1 (mpduSeqNum skb))).isSome = true := by
    rw [hslid.empty h.empty]
    exact Bool.false_ne_true
  have hpass : storeOrPass tmo now (slideWindow t (mpduSeqNum skb) []).1 skb
      (slideWindow t (mpduSeqNum skb) []).2 =
      ⟨false, { (slideWindow t (mpduSeqNum skb) []).1 with
        headSeqNum := seqInc (slideWindow t (mpduSeqNum skb) []).1.headSeqNum },
        (slideWindow t (mpduSeqNum skb) []).2, []⟩ := by
    unfold storeOrPass
    dsimp only
    rw [if_neg hnone, if_neg (by omega), if_pos ⟨h.eapol, h.seq, h.empty⟩]
  rw [manage_slide tmo now [] h.fresh, hpass]
  refine ⟨rfl, ?_, h.empty⟩
  show seqInc (slideWindow t (mpduSeqNum skb) []).1.headSeqNum = mpduSeqNum skb
  unfold seqInc
  omega

section Life

variable {t₀ : TidAmpduRx w} {s s' : Life w}

/-- The frame passed on early **is passed on again** if it is received again. -/
theorem early_again {skb : SkBuff} (now : BitVec w) (hagg : s.agg = some t) (hc : Counted t)
    (h0 : t.storedMpduNum = 0) (hhead : t.headSeqNum = mpduSeqNum skb) :
    ¬ Kept s (mpduSeqNum skb) := by
  intro hkept
  have hm := manage_inOrder (updateTimeout s.tmo skb) now hc h0 hhead.symm
  have hstep : ∃ s', s.step (.frame skb now) = some s' ∧ s'.handed = s.handed ++ [skb] := by
    refine ⟨_, congrArg (Option.map _) hagg, ?_⟩
    dsimp only
    rw [hm]
    rfl
  obtain ⟨s', hs', hhanded⟩ := hstep
  have hnear : headNear (mpduSeqNum skb) s (.frame skb now) := fun t' ht' => by
    obtain rfl := Option.some.inj (hagg.symm.trans ht')
    rw [hhead]
    unfold seqSub
    omega
  have hr : Reach (lifeFrom s) (headNear (mpduSeqNum skb)) s' := .step (.init rfl) hnear hs'
  refine hkept.once s' hr skb ?_ rfl
  rw [hhanded, List.drop_left]
  exact List.mem_singleton_self skb

/-- What holds after a frame with the number `sn` was passed on in order, in state `s`: the head is
behind it, and no frame with that number is stored or handed on. -/
structure Past (s : Life w) (sn : ℕ) (s' : Life w) : Prop where
  handed : ∃ L, s'.handed = s.handed ++ L ∧ ∀ f ∈ L, mpduSeqNum f ≠ sn
  stored : ∀ f ∈ s'.stored, mpduSeqNum f ≠ sn
  counted : ∀ t, s'.agg = some t → Counted t
  head : ∀ t, s'.agg = some t → t.headSeqNum ≠ sn

theorem Past.move {sn : ℕ} (h : Past s sn s') (hsn : sn < 0x1000) (ht : s'.agg = some t)
    (hnear : seqSub t.headSeqNum sn < 0x400) {t' : TidAmpduRx w} {frames : List SkBuff}
    (hc : Counted t') (hout : ∀ f ∈ t'.stored ++ frames, mpduSeqNum f ≠ sn) {k : ℕ}
    (hk : k ≤ 0x841) (hmove : t'.headSeqNum = (t.headSeqNum + k) % 0x1000) {s'' : Life w}
    (hagg : s''.agg = some t') (hhanded : s''.handed = s'.handed ++ frames) : Past s sn s'' := by
  obtain ⟨L, hL, hLsn⟩ := h.handed
  have hhead := (h.counted t ht).head
  have hne := h.head t ht
  have hne' : t'.headSeqNum ≠ sn := by
    unfold seqSub at hnear
    omega
  refine ⟨⟨L ++ frames, by rw [hhanded, hL, List.append_assoc], fun f hf => ?_⟩, fun f hf => ?_,
    fun t₂ ht₂ => ?_, fun t₂ ht₂ => ?_⟩
  · rcases List.mem_append.mp hf with hf | hf
    · exact hLsn f hf
    · exact hout f (List.mem_append_right _ hf)
  · rw [stored_of_agg hagg] at hf
    exact hout f (List.mem_append_left _ hf)
  · obtain rfl := Option.some.inj (hagg.symm.trans ht₂)
    exact hc
  · obtain rfl := Option.some.inj (hagg.symm.trans ht₂)
    exact hne'

/-- **Each event** as long as the number has not come round again. -/
theorem past_step {sn : ℕ} (hsn : sn < 0x1000) {ev : LifeEv w} (h : Past s sn s')
    (hnear : headNear sn s' ev) {s'' : Life w} (hs : s'.step ev = some s'') : Past s sn s'' := by
  match ev with
  | .frame skb now =>
    obtain ⟨t, ht, rfl⟩ := Option.map_eq_some_iff.mp hs
    have hc := h.counted t ht
    have hstored := h.stored
    rw [stored_of_agg ht] at hstored
    have hm := disposes_manage (updateTimeout s'.tmo skb) now hc skb []
    obtain ⟨k, hk, hmove⟩ := head_manage (updateTimeout s'.tmo skb) now hc skb []
    refine h.move hsn ht (hnear t ht) hm.counted (fun f hf => ?_) hk hmove rfl rfl
    by_cases hseq : mpduSeqNum skb = sn
    · -- a frame with the number is out of date
      have hstale : 0x800 < seqSub (mpduSeqNum skb) t.headSeqNum := by
        have hhead := hc.head
        have hne := h.head t ht
        have hfar := hnear t ht
        unfold seqSub at hfar ⊢
        omega
      rw [manage_stale [] _ now hstale] at hf
      rcases List.mem_append.mp hf with hf | hf
      · exact hstored f hf
      · cases hf
    · have hmem := hm.perm.mem_iff.mpr (List.mem_append_left _ hf)
      rw [List.append_nil] at hmem
      rcases List.mem_append.mp hmem with hf | hf
      · exact hstored f hf
      · obtain rfl := List.mem_singleton.mp hf
        exact hseq
  | .expiry now =>
    obtain ⟨t, ht, rfl⟩ := Option.map_eq_some_iff.mp hs
    have hstored := h.stored
    rw [stored_of_agg ht] at hstored
    have hm := conserves_reorderRelease s'.tmo now (h.counted t ht) []
    obtain ⟨k, hk, hmove⟩ := head_reorderRelease s'.tmo now (h.counted t ht) []
    refine h.move hsn ht (hnear t ht) hm.counted (fun f hf => ?_) (by omega) hmove rfl rfl
    have hmem := hm.perm.mem_iff.mpr hf
    rw [List.append_nil] at hmem
    exact hstored f hmem
  | .other skb =>
    obtain rfl := Option.some.inj hs
    exact ⟨h.handed, h.stored, h.counted, h.head⟩
  | .teardown =>
    obtain ⟨t, ht, rfl⟩ := Option.map_eq_some_iff.mp hs
    exact ⟨h.handed, nofun, nofun, nofun⟩

/-- **In order**: a session whose head has moved just past `sn`, with nothing stored, keeps the
contract. -/
theorem kept_of_passed {sn : ℕ} (hsn : sn < 0x1000) (hagg : s.agg = some t) (hc : Counted t)
    (h0 : t.storedMpduNum = 0) (hhead : t.headSeqNum = seqInc sn) : Kept s sn := by
  have hnil : t.stored = [] := List.length_eq_zero_iff.mp (hc.count.symm.trans h0)
  refine ⟨fun s' hs' => ?_, fun skb now s' hseq hs' => ?_⟩
  · have hstart : Past s sn s := by
      refine ⟨⟨[], (List.append_nil _).symm, nofun⟩, ?_, fun t' ht' => ?_, fun t' ht' => ?_⟩
      · rw [stored_of_agg hagg, hnil]
        exact nofun
      · obtain rfl := Option.some.inj (hagg.symm.trans ht')
        exact hc
      · obtain rfl := Option.some.inj (hagg.symm.trans ht')
        rw [hhead]
        unfold seqInc
        omega
    have hpast : Past s sn s' := hs'.inv_of_start (I := Past s sn) (fun _ => id) hstart
      fun _ _ _ hI hnear hst => past_step hsn hI hnear hst
    obtain ⟨L, hL, hLsn⟩ := hpast.handed
    rw [hL, List.drop_left]
    exact hLsn
  · obtain ⟨t', ht', rfl⟩ := Option.map_eq_some_iff.mp hs'
    obtain rfl := Option.some.inj (hagg.symm.trans ht')
    dsimp only
    rw [manage_inOrder _ now hc h0 (hseq.trans hhead.symm)]
    rfl

/-- **The early branch breaks the contract**: in every state that a run of a session reaches, the
contract of an arriving frame is kept exactly if it does not take the early branch. -/
theorem eapol_kept_iff {now₀ : BitVec w} {sta : AddbaSta} {req : AddbaReq}
    (h : ieee80211ProcessAddbaRequest now₀ sta req true = some t₀)
    (hs : Reach (life t₀) (fun _ _ => True) s) (hagg : s.agg = some t) (skb : SkBuff)
    (now : BitVec w) : Contract s skb now ↔ ¬ Early t skb := by
  obtain ⟨hc, -, -⟩ := (counts_of_reach h hs).counted t hagg
  have hm := disposes_manage (updateTimeout s.tmo skb) now hc skb []
  constructor
  · intro hcontract hearly
    obtain ⟨hret, hhead, h0⟩ := early_head (updateTimeout s.tmo skb) now hc hearly
    exact early_again now rfl hm.counted h0 hhead
      (hcontract t _ hagg (congrArg (Option.map _) hagg) hret)
  · intro hno t' s' ht' hs' hret
    obtain rfl := Option.some.inj (hagg.symm.trans ht')
    obtain ⟨t', ht', rfl⟩ := Option.map_eq_some_iff.mp hs'
    obtain rfl := Option.some.inj (hagg.symm.trans ht')
    obtain ⟨hfresh, hempty, hto, hseq⟩ := manage_passed hret
    refine kept_of_passed (mpduSeqNum_lt skb) rfl hm.counted ?_ ?_
    · rw [hto]
      exact hempty
    · rw [hto]
      rcases hseq with hseq | ⟨heapol, hseq⟩
      · exact congrArg seqInc hseq.symm
      · exact absurd ⟨hfresh, heapol, hseq, hempty⟩ hno

end Life

/-- The start of the life of the session of 8 slots. -/
def eightStart : Life 32 := ⟨reorderTimeoutInit, some freshSession, [], [], [], []⟩

theorem eightStart_reach : Reach (life freshSession) (fun _ _ => True) eightStart :=
  .init ⟨rfl, rfl, rfl, rfl, rfl⟩

/-- A frame in order. -/
theorem eapol_kept_iff_inOrder : Contract eightStart (qosFrame 0) 0 := by
  refine (eapol_kept_iff freshSession_eq eightStart_reach rfl (qosFrame 0) 0).mpr fun hearly => ?_
  have hno : isEapol (qosFrame 0) = false := by decide
  rw [hearly.eapol] at hno
  cases hno

/-- A QoS data frame with the EtherType of EAPOL. -/
def eapolFrame (sn : ℕ) : SkBuff :=
  ⟨0x88 :: List.replicate 21 0 ++ [UInt8.ofNat (sn * 16), UInt8.ofNat (sn / 16), 0, 0,
    0xaa, 0xaa, 3, 0, 0, 0, 0x88, 0x8e, 1]⟩

/-- **EAPOL frame 1 while frame 0 is missing**: received twice, it is handed on twice; and frame 2
after it is stored and not handed on. -/
theorem eapol_twice :
    isEapol (eapolFrame 1) ∧ mpduSeqNum (eapolFrame 1) = freshSession.headSeqNum + 1 ∧
    (∃ s, Reach (life freshSession) (fun _ _ => True) s ∧ s.handed = [eapolFrame 1, eapolFrame 1]) ∧
    (∃ s, Reach (life freshSession) (fun _ _ => True) s ∧
      s.arrived = [eapolFrame 1, qosFrame 2] ∧ s.handed = [eapolFrame 1] ∧
      s.stored = [qosFrame 2]) ∧ ¬ Contract eightStart (eapolFrame 1) 0 := by
  have hearly : Early freshSession (eapolFrame 1) :=
    ⟨by decide +kernel, by decide, by decide +kernel, by decide +kernel⟩
  have htwice : (exec (life freshSession) eightStart
      [.frame (eapolFrame 1) 0, .frame (eapolFrame 1) 1]).map Life.handed =
        some [eapolFrame 1, eapolFrame 1] := by decide +kernel
  have hnext : (exec (life freshSession) eightStart
      [.frame (eapolFrame 1) 0, .frame (qosFrame 2) 1]).map
        (fun s => (s.arrived, s.handed, s.stored)) =
        some ([eapolFrame 1, qosFrame 2], [eapolFrame 1], [qosFrame 2]) := by decide +kernel
  obtain ⟨s, hs, hhanded⟩ := Option.map_eq_some_iff.mp htwice
  obtain ⟨s', hs', hout⟩ := Option.map_eq_some_iff.mp hnext
  obtain ⟨harrived, hhanded', hstored⟩ : s'.arrived = _ ∧ s'.handed = _ ∧ s'.stored = _ := by
    simpa using hout
  refine ⟨by decide, by decide, ⟨s, eightStart_reach.of_exec hs, hhanded⟩,
    ⟨s', eightStart_reach.of_exec hs', harrived, hhanded', hstored⟩, fun hcontract => ?_⟩
  obtain ⟨hret, hhead, h0⟩ := early_head (updateTimeout reorderTimeoutInit (eapolFrame 1)) 0
    (counted_addba freshSession_eq) hearly
  have hc := (disposes_manage (updateTimeout reorderTimeoutInit (eapolFrame 1)) 0
    (counted_addba freshSession_eq) (eapolFrame 1) []).counted
  exact early_again 0 rfl hc h0 hhead (hcontract freshSession _ rfl rfl hret)

end Atbm6441.Rx.Reorder
