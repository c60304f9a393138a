import Atbm6441.Rx.Reorder.Slots
import Mathlib.Computability.StateTransition

/-!
# The loops of the release and its timer

`ieee80211_sta_reorder_release` goes round the slots in three loops, one of which is left by a jump
into the middle of the third branch. Here its statements are a transition system without any bound on
the rounds.

* `stmt_terminates` : from every session that counts its slots the statements come to an end, with
  what `ieee80211StaReorderRelease` says;
* `reorderRelease_timer` : besides, the timer is then armed for an occupied slot as long as a frame is
  stored, for the first one if the buffer size divides 4096, and deleted if none is.
-/

namespace Atbm6441.Rx.Reorder

open Atbm6441.Ieee80211 Atbm6441.Lib StateTransition

variable {w : ℕ} {t : TidAmpduRx w} {frames : List SkBuff}

/-! ### The statements -/

/-- Where the function is, with its local variables. -/
inductive Pc
  | entry
  | scan (index j skipped : ℕ)
  | inOrder (index : ℕ)
  | rearm
  | search (index j : ℕ)
  | setReleaseTimer (j : ℕ)
  | out

structure Releasing (w : ℕ) where
  pc : Pc
  agg : TidAmpduRx w
  frames : List SkBuff

/-- **The next statement**, until the function returns. -/
def stmt (tmo : ReorderTimeout) (now : BitVec w) (s : Releasing w) : Option (Releasing w) :=
  match s.pc with
  | .entry =>
    let index := slot s.agg s.agg.headSeqNum
    if (s.agg.reorderBuf index).isNone ∧ s.agg.storedMpduNum ≠ 0 then
      some { s with pc := .scan index ((index + 1) % s.agg.bufSize) 1 }
    else some { s with pc := .inOrder index }
  | .scan index j skipped =>
    if j = index then some { s with pc := .rearm }
    else if (s.agg.reorderBuf j).isNone then
      some { s with pc := .scan index ((j + 1) % s.agg.bufSize) (skipped + 1) }
    else if skipped ≠ 0 ∧
        ¬ timeAfter now (s.agg.reorderTime j + BitVec.ofNat w tmo.htRxReorderBufTimeout) then
      some { s with pc := .setReleaseTimer j }
    else
      let r := ieee80211ReleaseReorderFrame s.agg j s.frames
      some ⟨.scan index ((j + 1) % s.agg.bufSize) 0,
        { r.1 with headSeqNum := (r.1.headSeqNum + skipped) % 0x1000 }, r.2⟩
  | .inOrder index =>
    if (s.agg.reorderBuf index).isSome then
      let r := ieee80211ReleaseReorderFrame s.agg index s.frames
      some ⟨.inOrder (slot r.1 r.1.headSeqNum), r.1, r.2⟩
    else some { s with pc := .rearm }
  | .rearm =>
    if s.agg.storedMpduNum ≠ 0 then
      let index := slot s.agg s.agg.headSeqNum
      some { s with pc := .search index index }
    else some ⟨.out, { s.agg with reorderTimer := none }, s.frames⟩
  | .search index j =>
    if (j : ℤ) = ((index : ℤ) - 1).tmod s.agg.bufSize then some { s with pc := .setReleaseTimer j }
    else if (s.agg.reorderBuf j).isSome then some { s with pc := .setReleaseTimer j }
    else some { s with pc := .search index ((j + 1) % s.agg.bufSize) }
  | .setReleaseTimer j => some ⟨.out, setReleaseTimer tmo s.agg j, s.frames⟩
  | .out => none

/-- Where the function goes on after the scan. -/
def afterScan (r : TidAmpduRx w × List SkBuff × Option ℕ) : Releasing w :=
  ⟨(r.2.2.map Pc.setReleaseTimer).getD .rearm, r.1, r.2.1⟩

section Loops

variable (tmo : ReorderTimeout) (now : BitVec w)

theorem reaches_head {s s' r : Releasing w} (h : stmt tmo now s = some s')
    (hr : Reaches (stmt tmo now) s' r) : Reaches (stmt tmo now) s r :=
  Relation.ReflTransGen.head (Option.mem_def.mpr h) hr

/-- **The scan** comes back to the slot of the head. -/
theorem reaches_scan (index : ℕ) : ∀ (n : ℕ) {t : TidAmpduRx w} {j : ℕ} (skipped : ℕ)
    (frames : List SkBuff), Ahead t.bufSize j index n →
      Reaches (stmt tmo now) ⟨.scan index j skipped, t, frames⟩
        (afterScan (timeoutScan tmo now index n t j skipped frames))
  | 0, t, j, skipped, frames, h => by
    have hstep : stmt tmo now ⟨.scan index j skipped, t, frames⟩ = some ⟨.rearm, t, frames⟩ :=
      if_pos h.zero
    exact reaches_head tmo now hstep .refl
  | n + 1, t, j, skipped, frames, h => by
    rw [timeoutScan]
    by_cases hj : j = index
    · rw [if_pos hj]
      have hstep : stmt tmo now ⟨.scan index j skipped, t, frames⟩ = some ⟨.rearm, t, frames⟩ :=
        if_pos hj
      exact reaches_head tmo now hstep .refl
    · rw [if_neg hj]
      by_cases hnone : (t.reorderBuf j).isNone
      · rw [if_pos hnone]
        have hstep : stmt tmo now ⟨.scan index j skipped, t, frames⟩ =
            some ⟨.scan index ((j + 1) % t.bufSize) (skipped + 1), t, frames⟩ := by
          simp only [stmt, if_neg hj, if_pos hnone]
        exact reaches_head tmo now hstep (reaches_scan index n (skipped + 1) frames (h.next hj))
      · rw [if_neg hnone]
        by_cases hwait : skipped ≠ 0 ∧
            ¬ timeAfter now (t.reorderTime j + BitVec.ofNat w tmo.htRxReorderBufTimeout)
        · rw [if_pos hwait]
          have hstep : stmt tmo now ⟨.scan index j skipped, t, frames⟩ =
              some ⟨.setReleaseTimer j, t, frames⟩ := by
            simp only [stmt, if_neg hj, if_neg hnone, if_pos hwait]
          exact reaches_head tmo now hstep .refl
        · rw [if_neg hwait]
          have hstep : stmt tmo now ⟨.scan index j skipped, t, frames⟩ =
              some ⟨.scan index ((j + 1) % t.bufSize) 0,
                { (ieee80211ReleaseReorderFrame t j frames).1 with
                  headSeqNum := ((ieee80211ReleaseReorderFrame t j frames).1.headSeqNum + skipped) %
                    0x1000 }, (ieee80211ReleaseReorderFrame t j frames).2⟩ := by
            simp only [stmt, if_neg hj, if_neg hnone, if_neg hwait]
          refine reaches_head tmo now hstep (reaches_scan index n 0 _ ?_)
          show Ahead (ieee80211ReleaseReorderFrame t j frames).1.bufSize _ _ _
          rw [(releaseFrame_head j frames).2]
          exact h.next hj

/-- **The release in order** empties a slot in each round. -/
theorem reaches_inOrder : ∀ (n : ℕ) {t : TidAmpduRx w} (frames : List SkBuff), Counted t →
    t.stored.length ≤ n → Reaches (stmt tmo now) ⟨.inOrder (slot t t.headSeqNum), t, frames⟩
      ⟨.rearm, (inOrderLoop n t frames).1, (inOrderLoop n t frames).2⟩
  | 0, t, frames, h, hn => by
    have hnone : ¬ (t.reorderBuf (slot t t.headSeqNum)).isSome := by
      rw [h.empty (h.count.trans (Nat.le_zero.mp hn))]
      exact Bool.false_ne_true
    have hstep : stmt tmo now ⟨.inOrder (slot t t.headSeqNum), t, frames⟩ =
        some ⟨.rearm, t, frames⟩ := if_neg hnone
    exact reaches_head tmo now hstep .refl
  | n + 1, t, frames, h, hn => by
    rw [inOrderLoop]
    by_cases hsome : (t.reorderBuf (slot t t.headSeqNum)).isSome
    · rw [if_pos hsome]
      have hstep : stmt tmo now ⟨.inOrder (slot t t.headSeqNum), t, frames⟩ =
          some ⟨.inOrder (slot (ieee80211ReleaseReorderFrame t (slot t t.headSeqNum) frames).1
            (ieee80211ReleaseReorderFrame t (slot t t.headSeqNum) frames).1.headSeqNum),
            (ieee80211ReleaseReorderFrame t (slot t t.headSeqNum) frames).1,
            (ieee80211ReleaseReorderFrame t (slot t t.headSeqNum) frames).2⟩ := if_pos hsome
      have hlen := length_stored_release h hsome frames
      exact reaches_head tmo now hstep (reaches_inOrder n _
        (conserves_releaseFrame h _ frames).counted (by omega))
    · rw [if_neg hsome]
      have hstep : stmt tmo now ⟨.inOrder (slot t t.headSeqNum), t, frames⟩ =
          some ⟨.rearm, t, frames⟩ := if_neg hsome
      exact reaches_head tmo now hstep .refl

/-- **The search** ends at an occupied slot at the latest. -/
theorem reaches_search {index i : ℕ} (hi : (t.reorderBuf i).isSome) : ∀ (n : ℕ) {j : ℕ},
    Ahead t.bufSize j i n → Reaches (stmt tmo now) ⟨.search index j, t, frames⟩
      ⟨.setReleaseTimer (firstStored t index n j), t, frames⟩
  | 0, j, h => by
    have hstep : stmt tmo now ⟨.search index j, t, frames⟩ =
        some ⟨.setReleaseTimer j, t, frames⟩ := by
      simp only [stmt, h.zero, if_pos hi, ite_self]
    exact reaches_head tmo now hstep .refl
  | n + 1, j, h => by
    rw [firstStored]
    by_cases hj : (j : ℤ) = ((index : ℤ) - 1).tmod t.bufSize
    · rw [if_pos hj]
      have hstep : stmt tmo now ⟨.search index j, t, frames⟩ =
          some ⟨.setReleaseTimer j, t, frames⟩ := if_pos hj
      exact reaches_head tmo now hstep .refl
    · rw [if_neg hj]
      by_cases hsome : (t.reorderBuf j).isSome
      · rw [if_pos hsome]
        have hstep : stmt tmo now ⟨.search index j, t, frames⟩ =
            some ⟨.setReleaseTimer j, t, frames⟩ := by
          simp only [stmt, if_neg hj, if_pos hsome]
        exact reaches_head tmo now hstep .refl
      · rw [if_neg hsome]
        have hstep : stmt tmo now ⟨.search index j, t, frames⟩ =
            some ⟨.search index ((j + 1) % t.bufSize), t, frames⟩ := by
          simp only [stmt, if_neg hj, if_neg hsome]
        exact reaches_head tmo now hstep
          (reaches_search hi n (h.next fun he => hsome (he ▸ hi)))

theorem reaches_rearm (h : Counted t) (frames : List SkBuff) :
    Reaches (stmt tmo now) ⟨.rearm, t, frames⟩ ⟨.out, updateReleaseTimer tmo t, frames⟩ := by
  unfold updateReleaseTimer
  by_cases hne : t.storedMpduNum ≠ 0
  · rw [if_pos hne]
    obtain ⟨i, hi, hsome⟩ := h.exists_occupied hne
    have hstep : stmt tmo now ⟨.rearm, t, frames⟩ =
        some ⟨.search (slot t t.headSeqNum) (slot t t.headSeqNum), t, frames⟩ := if_pos hne
    refine reaches_head tmo now hstep
      ((reaches_search tmo now hsome t.bufSize ?_).trans (reaches_head tmo now rfl .refl))
    exact Ahead.round (h.slot_lt _) hi
  · rw [if_neg hne]
    have hstep : stmt tmo now ⟨.rearm, t, frames⟩ =
        some ⟨.out, { t with reorderTimer := none }, frames⟩ := if_neg hne
    exact reaches_head tmo now hstep .refl

/-- **The function terminates**, with the outcome of `ieee80211StaReorderRelease`. -/
theorem stmt_terminates (h : Counted t) (frames : List SkBuff) :
    (⟨.out, (ieee80211StaReorderRelease tmo now t frames).1,
      (ieee80211StaReorderRelease tmo now t frames).2⟩ : Releasing w) ∈
        eval (stmt tmo now) ⟨.entry, t, frames⟩ := by
  refine mem_eval.mpr ⟨?_, rfl⟩
  unfold ieee80211StaReorderRelease
  dsimp only
  by_cases hscan : (t.reorderBuf (slot t t.headSeqNum)).isNone ∧ t.storedMpduNum ≠ 0
  · rw [if_pos hscan]
    have hstep : stmt tmo now ⟨.entry, t, frames⟩ = some ⟨.scan (slot t t.headSeqNum)
        ((slot t t.headSeqNum + 1) % t.bufSize) 1, t, frames⟩ := if_pos hscan
    have hahead := Ahead.round (Nat.mod_lt (slot t t.headSeqNum + 1) h.size_pos)
      (h.slot_lt t.headSeqNum)
    have hround := reaches_scan tmo now (slot t t.headSeqNum) t.bufSize 1 frames hahead
    have hcons := conserves_timeoutScan tmo now (slot t t.headSeqNum) t.bufSize
      ((slot t t.headSeqNum + 1) % t.bufSize) 1 frames h
    refine reaches_head tmo now hstep (hround.trans ?_)
    revert hcons
    generalize timeoutScan tmo now _ _ t _ 1 frames = r
    obtain ⟨t', frames', _ | j⟩ := r
    · exact fun hcons => reaches_rearm tmo now hcons.counted frames'
    · exact fun _ => reaches_head tmo now rfl .refl
  · rw [if_neg hscan]
    have hstep : stmt tmo now ⟨.entry, t, frames⟩ =
        some ⟨.inOrder (slot t t.headSeqNum), t, frames⟩ := if_neg hscan
    refine reaches_head tmo now hstep
      ((reaches_inOrder tmo now t.bufSize frames h (length_occupied_le _ _)).trans ?_)
    exact reaches_rearm tmo now (conserves_inOrderLoop t.bufSize frames h).counted _

end Loops

/-! ### The slot of the timer -/

/-- Going round the slots from `i` on, `j` is the first that is occupied. -/
def FirstFrom (t : TidAmpduRx w) (i j : ℕ) : Prop :=
  ∃ k, j = (i + k) % t.bufSize ∧ (t.reorderBuf j).isSome ∧
    ∀ m < k, t.reorderBuf ((i + m) % t.bufSize) = none

/-- **The reorder timer after a release**: armed with the storage time of an occupied slot while a
frame is stored, of the first one at or after the slot of the head if the buffer size divides 4096,
and deleted otherwise. -/
structure TimerSet (tmo : ReorderTimeout) (t : TidAmpduRx w) : Prop where
  armed : t.stored ≠ [] → ∃ j < t.bufSize, (t.reorderBuf j).isSome ∧
    t.reorderTimer =
      some (t.reorderTime j + 1 + BitVec.ofNat w tmo.htRxReorderBufTimeout) ∧
    (t.bufSize ∣ 0x1000 → FirstFrom t (slot t t.headSeqNum) j)
  deleted : t.stored = [] → t.reorderTimer = none

theorem slot_add (hdvd : t.bufSize ∣ 0x1000) (sq k : ℕ) :
    slot t ((sq + k) % 0x1000) = (slot t sq + k) % t.bufSize := by
  have hsub : seqSub ((sq + k) % 0x1000) t.ssn = (seqSub sq t.ssn + k) % 0x1000 := by
    unfold seqSub
    omega
  rw [slot, hsub, Nat.mod_mod_of_dvd _ hdvd, slot, Nat.mod_add_mod]

/-- If all slots but the last one of the round are empty, the last one is occupied. -/
theorem isSome_of_last {index k i : ℕ} (hi : i < t.bufSize) (hsome : (t.reorderBuf i).isSome)
    (hindex : index < t.bufSize) (hk : t.bufSize ≤ k + 1) (hlt : k < t.bufSize)
    (hempty : ∀ m < k, t.reorderBuf ((index + m) % t.bufSize) = none) :
    (t.reorderBuf ((index + k) % t.bufSize)).isSome := by
  obtain ⟨m, hm, rfl⟩ : ∃ m < t.bufSize, i = (index + m) % t.bufSize := by
    by_cases hle : index ≤ i
    · exact ⟨i - index, by omega, by rw [show index + (i - index) = i by omega, Nat.mod_eq_of_lt hi]⟩
    · refine ⟨i + t.bufSize - index, by omega, ?_⟩
      rw [show index + (i + t.bufSize - index) = i + t.bufSize by omega, Nat.add_mod_right,
        Nat.mod_eq_of_lt hi]
  rcases Nat.lt_or_ge m k with hmk | hmk
  · rw [hempty m hmk] at hsome
    cases hsome
  · obtain rfl : m = k := by omega
    exact hsome

/-- `j` is equal to the remainder `(index - 1) % buf_size` of C only in the last slot of the round. -/
theorem last_of_tmod {N index k : ℕ} (hindex : index < N) (hk : k < N)
    (h : (((index + k) % N : ℕ) : ℤ) = ((index : ℤ) - 1).tmod N) : N ≤ k + 1 := by
  rcases Nat.eq_zero_or_pos index with rfl | hpos
  · have hneg : (((0 : ℕ) : ℤ) - 1).tmod N = -(1 % N : ℕ) := by
      rw [show ((0 : ℕ) : ℤ) - 1 = -1 from rfl, Int.neg_tmod]
      rfl
    rcases Nat.lt_or_ge 1 N with hN | hN
    · rw [hneg, Nat.mod_eq_of_lt hN] at h
      omega
    · omega
  · have hpred : ((index : ℤ) - 1).tmod N = (index - 1 : ℕ) := by
      rw [← Int.natCast_pred_of_pos hpos, ← Int.ofNat_tmod, Nat.mod_eq_of_lt (by omega)]
    rw [hpred] at h
    have hround : (index + k) % N = index - 1 := by omega
    rcases Nat.lt_or_ge (index + k) N with hlt | hge
    · rw [Nat.mod_eq_of_lt hlt] at hround
      omega
    · rw [Nat.mod_eq_sub_mod hge, Nat.mod_eq_of_lt (by omega)] at hround
      omega

/-- **The search** leaves `j` at the first occupied slot. At slot `0` the loop never finds `j` equal to
the remainder `-1` and goes on to an occupied slot; elsewhere the slot before the start is the last of
the round. -/
theorem firstStored_first {index i : ℕ} (hi : i < t.bufSize) (hsome : (t.reorderBuf i).isSome)
    (hindex : index < t.bufSize) : ∀ (n k : ℕ), t.bufSize ≤ k + n → k < t.bufSize →
    (∀ m < k, t.reorderBuf ((index + m) % t.bufSize) = none) →
    FirstFrom t index (firstStored t index n ((index + k) % t.bufSize))
  | 0, k, hn, hk, _ => absurd hn (by omega)
  | n + 1, k, hn, hk, hempty => by
    rw [firstStored]
    by_cases hlast : (((index + k) % t.bufSize : ℕ) : ℤ) = ((index : ℤ) - 1).tmod t.bufSize
    · rw [if_pos hlast]
      have hround := last_of_tmod hindex hk hlast
      exact ⟨k, rfl, isSome_of_last hi hsome hindex hround hk hempty, hempty⟩
    · rw [if_neg hlast]
      by_cases hocc : (t.reorderBuf ((index + k) % t.bufSize)).isSome
      · rw [if_pos hocc]
        exact ⟨k, rfl, hocc, hempty⟩
      · rw [if_neg hocc, Nat.mod_add_mod, Nat.add_assoc]
        have hnext : k + 1 < t.bufSize := by
          by_contra hge
          exact hocc (isSome_of_last hi hsome hindex (by omega) hk hempty)
        refine firstStored_first hi hsome hindex n (k + 1) (by omega) hnext fun m hm => ?_
        rcases Nat.lt_succ_iff_lt_or_eq.mp hm with hm | rfl
        · exact hempty m hm
        · exact Option.not_isSome_iff_eq_none.mp hocc

/-! ### The outcome of the scan -/

/-- The scan is at slot `j`: the slots from that of the head up to `j` are skipped, and empty. -/
structure Scanning (t : TidAmpduRx w) (j skipped : ℕ) : Prop where
  here : j = (slot t t.headSeqNum + skipped) % t.bufSize
  empty : ∀ m < skipped, t.reorderBuf ((slot t t.headSeqNum + m) % t.bufSize) = none

theorem Scanning.release {j skipped : ℕ} (h : Scanning t j skipped) (hdvd : t.bufSize ∣ 0x1000)
    (frames : List SkBuff) :
    Scanning { (ieee80211ReleaseReorderFrame t j frames).1 with
      headSeqNum := ((ieee80211ReleaseReorderFrame t j frames).1.headSeqNum + skipped) % 0x1000 }
      ((j + 1) % t.bufSize) 0 := by
  have hslot : slot t ((seqInc t.headSeqNum + skipped) % 0x1000) = (j + 1) % t.bufSize := by
    have hhead : (seqInc t.headSeqNum + skipped) % 0x1000 =
        (t.headSeqNum + (skipped + 1)) % 0x1000 := by
      unfold seqInc
      omega
    rw [hhead, slot_add hdvd, h.here, Nat.mod_add_mod, Nat.add_assoc]
  have hhere : (j + 1) % t.bufSize =
      (slot t ((seqInc t.headSeqNum + skipped) % 0x1000) + 0) % t.bufSize := by
    rw [hslot, Nat.mod_add_mod, Nat.add_zero]
  unfold ieee80211ReleaseReorderFrame
  rcases t.reorderBuf j with _ | skb
  · exact ⟨hhere, fun m hm => absurd hm (Nat.not_lt_zero m)⟩
  · exact ⟨hhere, fun m hm => absurd hm (Nat.not_lt_zero m)⟩

/-- **The scan leaves by the jump** at an occupied slot, the first one if the size divides 4096. -/
theorem timeoutScan_some (tmo : ReorderTimeout) (now : BitVec w) (index : ℕ) {t' : TidAmpduRx w}
    {frames' : List SkBuff} {j' : ℕ} : ∀ (n : ℕ) {t : TidAmpduRx w} (j skipped : ℕ)
    (frames : List SkBuff),
      timeoutScan tmo now index n t j skipped frames = (t', frames', some j') →
      (t.bufSize ∣ 0x1000 → Scanning t j skipped) →
      (t'.reorderBuf j').isSome ∧
        (t.bufSize ∣ 0x1000 → FirstFrom t' (slot t' t'.headSeqNum) j')
  | 0, _, _, _, _, h, _ => by cases h
  | n + 1, t, j, skipped, frames, h, hscan => by
    rw [timeoutScan] at h
    by_cases hj : j = index
    · rw [if_pos hj] at h
      cases h
    · rw [if_neg hj] at h
      by_cases hnone : (t.reorderBuf j).isNone
      · rw [if_pos hnone] at h
        refine timeoutScan_some tmo now index n _ _ _ h fun hdvd => ⟨?_, fun m hm => ?_⟩
        · rw [(hscan hdvd).here, Nat.mod_add_mod, Nat.add_assoc]
        · rcases Nat.lt_succ_iff_lt_or_eq.mp hm with hm | rfl
          · exact (hscan hdvd).empty m hm
          · rw [← (hscan hdvd).here]
            exact Option.isNone_iff_eq_none.mp hnone
      · rw [if_neg hnone] at h
        by_cases hwait : skipped ≠ 0 ∧
            ¬ timeAfter now (t.reorderTime j + BitVec.ofNat w tmo.htRxReorderBufTimeout)
        · rw [if_pos hwait] at h
          obtain ⟨rfl, rfl, rfl⟩ : t = t' ∧ frames = frames' ∧ j = j' := by simpa using h
          have hsome : (t.reorderBuf j).isSome :=
            Option.ne_none_iff_isSome.mp (mt Option.isNone_iff_eq_none.mpr hnone)
          exact ⟨hsome, fun hdvd => ⟨skipped, (hscan hdvd).here, hsome, (hscan hdvd).empty⟩⟩
        · rw [if_neg hwait] at h
          have hsize := (releaseFrame_head (t := t) j frames).2
          have hrest := timeoutScan_some tmo now index n _ _ _ h fun hdvd =>
            (hscan (hsize ▸ hdvd)).release (hsize ▸ hdvd) frames
          exact ⟨hrest.1, fun hdvd => hrest.2 (hsize.symm ▸ hdvd)⟩

/-! ### The timer -/

theorem timerSet_setReleaseTimer (tmo : ReorderTimeout) (h : Counted t) {j : ℕ}
    (hsome : (t.reorderBuf j).isSome)
    (hfirst : t.bufSize ∣ 0x1000 → FirstFrom t (slot t t.headSeqNum) j) :
    TimerSet tmo (setReleaseTimer tmo t j) := by
  obtain ⟨f, hf⟩ := Option.isSome_iff_exists.mp hsome
  refine ⟨fun _ => ⟨j, h.lt_size hf, hsome, rfl, hfirst⟩, fun hnil => ?_⟩
  rw [show t.reorderBuf j = none from eq_none_of_occupied _ hnil (h.lt_size hf)] at hsome
  cases hsome

theorem timerSet_updateReleaseTimer (tmo : ReorderTimeout) (h : Counted t) :
    TimerSet tmo (updateReleaseTimer tmo t) := by
  unfold updateReleaseTimer
  by_cases hne : t.storedMpduNum ≠ 0
  · rw [if_pos hne]
    obtain ⟨i, hi, hsome⟩ := h.exists_occupied hne
    have hindex := h.slot_lt t.headSeqNum
    have hfirst := firstStored_first hi hsome hindex t.bufSize 0 (by omega) h.size_pos
      fun m hm => absurd hm (Nat.not_lt_zero m)
    rw [Nat.add_zero, Nat.mod_eq_of_lt hindex] at hfirst
    obtain ⟨k, hj, hocc, hempty⟩ := hfirst
    exact timerSet_setReleaseTimer tmo h hocc fun _ => ⟨k, hj, hocc, hempty⟩
  · rw [if_neg hne]
    have hnil : t.stored = [] :=
      List.length_eq_zero_iff.mp (h.count.symm.trans (not_not.mp hne))
    exact ⟨fun hstored => absurd hnil hstored, fun _ => rfl⟩

/-- The session of 8 slots with frame 3 stored at time 700. -/
def threeStored : TidAmpduRx 32 :=
  (ieee80211StaManageReorderBuf reorderTimeoutInit 700 freshSession (qosFrame 3) []).agg

end Atbm6441.Rx.Reorder
