import Atbm6441.Rx.Reorder.Count
import Atbm6441.Rx.Reorder.Refine

/-!
# Which sequence numbers share a slot

The slot of a sequence number is `(seq - ssn) % 4096 % buf_size`. In a window that crosses the point
where `(seq - ssn) % 4096` becomes 0 again, two sequence numbers share a slot unless the buffer size
divides 4096 (`distinct_iff`). So a session keeps the sequence numbers of all its windows apart
exactly if its buffer size divides 4096; then no new frame of a window is dropped as a duplicate
(`slots_distinct_iff`).
-/

namespace Atbm6441.Rx.Reorder

open Atbm6441.Ieee80211 Atbm6441.Lib

variable {w : ℕ} {t : TidAmpduRx w}

/-- A sequence number of the window `[head_seq_num, head_seq_num + buf_size)`. -/
def InWindow (t : TidAmpduRx w) (sq : ℕ) : Prop :=
  sq < 0x1000 ∧ seqSub sq t.headSeqNum < t.bufSize

/-- Distinct sequence numbers of the window have distinct slots. -/
def Distinct (t : TidAmpduRx w) : Prop :=
  ∀ a b, InWindow t a → InWindow t b → slot t a = slot t b → a = b

/-- A frame of the window is dropped as a duplicate only if a frame with its sequence number is
stored. -/
def NotLost (t : TidAmpduRx w) : Prop :=
  ∀ (tmo : ReorderTimeout) (now : BitVec w) (skb : SkBuff), InWindow t (mpduSeqNum skb) →
    (ieee80211StaManageReorderBuf tmo now t skb []).freed ≠ [] →
    ∃ i f, t.reorderBuf i = some f ∧ mpduSeqNum f = mpduSeqNum skb

/-! ### One window -/

/-- The offset of the head. -/
def headOffset (t : TidAmpduRx w) : ℕ := seqSub t.headSeqNum t.ssn

theorem headOffset_lt (t : TidAmpduRx w) : headOffset t < 0x1000 := by
  unfold headOffset seqSub
  omega

theorem slot_window (hhead : t.headSeqNum < 0x1000) (hssn : t.ssn < 0x1000)
    (h : t.bufSize ∣ 0x1000 ∨ headOffset t + t.bufSize ≤ 0x1000) {a : ℕ} (ha : InWindow t a) :
    slot t a = (headOffset t + seqSub a t.headSeqNum) % t.bufSize := by
  obtain ⟨ha, hwin⟩ := ha
  have hsum : seqSub a t.ssn = (headOffset t + seqSub a t.headSeqNum) % 0x1000 := by
    unfold headOffset seqSub
    omega
  unfold slot
  rw [hsum]
  rcases h with hdvd | hle
  · exact Nat.mod_mod_of_dvd _ hdvd
  · rw [Nat.mod_eq_of_lt (show headOffset t + seqSub a t.headSeqNum < 0x1000 by omega)]

theorem exists_collision (hssn : t.ssn < 0x1000)
    (hN : t.bufSize ≤ 0x40) (hpos : 0 < t.bufSize) (hdvd : ¬ t.bufSize ∣ 0x1000)
    (hcross : 0x1000 < headOffset t + t.bufSize) :
    ∃ a b, InWindow t a ∧ InWindow t b ∧ slot t a = slot t b ∧ a ≠ b := by
  have hlt := headOffset_lt t
  have hoff : headOffset t = seqSub t.headSeqNum t.ssn := rfl
  obtain ⟨r, hr⟩ : ∃ r, 0x1000 % t.bufSize = r := ⟨_, rfl⟩
  have hr0 : r ≠ 0 := fun h0 => hdvd (Nat.dvd_of_mod_eq_zero (hr.trans h0))
  have hrN : r < t.bufSize := hr ▸ Nat.mod_lt _ hpos
  have hdiv := Nat.div_add_mod 0x1000 t.bufSize
  rw [hr] at hdiv
  -- the offset `4096 - i` lies before the wrap and has the slot of the offset `r - i` behind it
  obtain ⟨i, hi, hir, hik, hfit⟩ : ∃ i, 0 < i ∧ i ≤ r ∧ i ≤ 0x1000 - headOffset t ∧
      (0x1000 - headOffset t) + (r - i) < t.bufSize := by
    by_cases hk : 0x1000 - headOffset t ≤ r
    · exact ⟨0x1000 - headOffset t, by omega, hk, le_rfl, by omega⟩
    · exact ⟨r, by omega, le_rfl, by omega, by omega⟩
  refine ⟨(t.ssn + 0x1000 - i) % 0x1000, (t.ssn + (r - i)) % 0x1000, ⟨by omega, ?_⟩,
    ⟨by omega, ?_⟩, ?_, by omega⟩
  · unfold seqSub at hoff ⊢
    omega
  · unfold seqSub at hoff ⊢
    omega
  · have ha : seqSub ((t.ssn + 0x1000 - i) % 0x1000) t.ssn = 0x1000 - i := by
      unfold seqSub
      omega
    have hb : seqSub ((t.ssn + (r - i)) % 0x1000) t.ssn = r - i := by
      unfold seqSub
      omega
    have hmod : 0x1000 - i = r - i + t.bufSize * (0x1000 / t.bufSize) := by omega
    rw [slot, slot, ha, hb, hmod, Nat.add_mul_mod_self_left]

/-- **The slots of one window** are distinct exactly if the buffer size divides 4096 or the window
does not cross the wrap. -/
theorem distinct_iff (hhead : t.headSeqNum < 0x1000) (hssn : t.ssn < 0x1000)
    (hN : t.bufSize ≤ 0x40) (hpos : 0 < t.bufSize) :
    Distinct t ↔ t.bufSize ∣ 0x1000 ∨ headOffset t + t.bufSize ≤ 0x1000 := by
  constructor
  · intro hdist
    by_contra hno
    obtain ⟨hdvd, hcross⟩ := not_or.mp hno
    obtain ⟨a, b, ha, hb, hslot, hne⟩ :=
      exists_collision hssn hN hpos hdvd (Nat.lt_of_not_le hcross)
    exact hne (hdist a b ha hb hslot)
  · intro h a b ha hb hslot
    rw [slot_window hhead hssn h ha, slot_window hhead hssn h hb] at hslot
    have hd := eq_of_mod_eq (a := headOffset t) (by omega) (Nat.add_lt_add_left ha.2 _) (by omega)
      (Nat.add_lt_add_left hb.2 _) hslot
    have ha' := ha.1
    have hb' := hb.1
    unfold seqSub at hd
    omega

/-! ### A buffer size that divides 4096 -/

/-- **The stored frames lie in the window**, each in the slot of its sequence number. -/
def Placed (t : TidAmpduRx w) : Prop :=
  ∀ i f, t.reorderBuf i = some f → InWindow t (mpduSeqNum f) ∧ slot t (mpduSeqNum f) = i

theorem dropped_occupied {tmo : ReorderTimeout} {now : BitVec w} {skb : SkBuff}
    (hN : t.bufSize ≤ 0x40) (hwin : InWindow t (mpduSeqNum skb))
    (hdrop : (ieee80211StaManageReorderBuf tmo now t skb []).freed ≠ []) :
    (t.reorderBuf (slot t (mpduSeqNum skb))).isSome := by
  have hlt := hwin.2
  have hin : seqLess (mpduSeqNum skb) ((t.headSeqNum + t.bufSize) % 0x10000) := by
    rw [seqLess_iff]
    unfold seqSub at hlt ⊢
    omega
  unfold ieee80211StaManageReorderBuf at hdrop
  rw [if_neg (by rw [seqLess_iff]; omega), if_neg (not_not.mpr hin)] at hdrop
  unfold storeOrPass at hdrop
  dsimp only at hdrop
  split_ifs at hdrop with hsome
  · exact hsome
  · exact absurd rfl hdrop
  · exact absurd rfl hdrop
  · exact absurd rfl hdrop

theorem Placed.notLost (h : Placed t) (hdist : Distinct t) (hN : t.bufSize ≤ 0x40) : NotLost t := by
  intro tmo now skb hwin hdrop
  obtain ⟨f, hf⟩ := Option.isSome_iff_exists.mp (dropped_occupied hN hwin hdrop)
  obtain ⟨hf', hslot⟩ := h _ _ hf
  exact ⟨_, f, hf, hdist _ _ hf' hwin hslot⟩

theorem Refines.placed {W : Window SkBuff} (h : Refines t W) (hs : Sized t.bufSize t.ssn) :
    Placed t := by
  intro i f hi
  obtain ⟨-, hwin, hslot⟩ := h.slots hs hi
  exact ⟨⟨mpduSeqNum_lt f, hwin⟩, hslot⟩

/-- **Any frame**, EAPOL or not, leaves a window. -/
theorem refines_storeOrPass {W : Window SkBuff} (tmo : ReorderTimeout) (now : BitVec w)
    (h : Refines t W) (hs : Sized t.bufSize t.ssn) (hc : Counted t) {skb : SkBuff} {p : ℕ}
    (hp : W.head ≤ p) (hp' : p < W.head + t.bufSize)
    (hseq : mpduSeqNum skb = (t.ssn + p) % 0x1000) (frames : List SkBuff) :
    ∃ W', Refines (storeOrPass tmo now t skb frames).agg W' := by
  by_cases hearly : isEapol skb ∧ mpduSeqNum skb = t.headSeqNum + 1 ∧ t.storedMpduNum = 0
  · -- the EAPOL frame is passed on early, and the head moves over the slot of the frame before it
    have hempty := hc.empty hearly.2.2
    have hne : ¬ (mpduSeqNum skb = t.headSeqNum ∧ t.storedMpduNum = 0) := fun hc => by
      have := hearly.2.1
      omega
    have hnone : ¬ (none : Option SkBuff).isSome = true := Bool.false_ne_true
    have hpass : (storeOrPass tmo now t skb frames).agg =
        { t with headSeqNum := seqInc t.headSeqNum } := by
      unfold storeOrPass
      dsimp only
      rw [hempty, if_neg hnone, if_neg hne, if_pos hearly]
    have hm := moves_releaseFrame frames h hs
    rw [releaseReorderFrame_none frames (hempty _)] at hm
    exact ⟨_, hpass ▸ hm.refines⟩
  · have hst := stored_storeOrPass frames tmo now h hs hearly hp hp' hseq
    rcases hheld : W.held p with _ | f
    · obtain ⟨-, k, -, hm⟩ := hst.fresh hheld
      exact ⟨_, hm.refines⟩
    · obtain ⟨-, hm⟩ := hst.dup (by rw [hheld]; rfl)
      exact ⟨_, hm.refines⟩

theorem refines_manage {W : Window SkBuff} (tmo : ReorderTimeout) (now : BitVec w)
    (h : Refines t W) (hs : Sized t.bufSize t.ssn) (hc : Counted t) (skb : SkBuff) :
    ∃ W', Refines (ieee80211StaManageReorderBuf tmo now t skb []).agg W' := by
  have hN := hs.two_le
  have hN' := hs.le
  generalize he : seqSub (mpduSeqNum skb) t.headSeqNum = e
  by_cases hstale : 0x800 < e
  · rw [manage_stale [] tmo now (by omega)]
    exact ⟨W, h⟩
  · have hseq : mpduSeqNum skb = (t.ssn + (W.head + e)) % 0x1000 :=
      eq_of_seqSub (mpduSeqNum_lt skb) (by rw [← h.head, he])
    obtain ⟨r, hr, hm, heq⟩ := manage_eq [] tmo now h hs he (by omega)
    have hcr : Counted r.1 := by
      rcases hr with rfl | rfl
      · exact hc
      · exact (conserves_releaseFramesLoop _ _ [] hc).counted
    rw [heq]
    exact refines_storeOrPass tmo now hm.refines (hm.sized hs) hcr
      (show (W.advance (e + 1 - t.bufSize)).head ≤ W.head + e by rw [Window.advance_head]; omega)
      (by rw [Window.advance_head, hm.size]; omega) (by rw [hm.ssn, hseq]) r.2

/-! ### A single slot -/

theorem Conserves.nothing {r : TidAmpduRx w × List SkBuff} (h : Conserves t [] r)
    (hc : Counted t) (h0 : t.storedMpduNum = 0) : r.1.storedMpduNum = 0 := by
  have hlen := h.perm.length_eq
  have hcount := hc.count
  rw [List.length_append, List.length_append, List.length_nil] at hlen
  rw [h.counted.count]
  omega

theorem slot_one (h1 : t.bufSize = 1) (sq : ℕ) : slot t sq = 0 := by
  rw [slot, h1, Nat.mod_one]

theorem reorderRelease_one (tmo : ReorderTimeout) (now : BitVec w) (h1 : t.bufSize = 1)
    {f : SkBuff} (hf : t.reorderBuf 0 = some f) (hcount : t.storedMpduNum = 1)
    (frames : List SkBuff) : (ieee80211StaReorderRelease tmo now t frames).1.storedMpduNum = 0 := by
  have hloop : (inOrderLoop t.bufSize t frames).1.storedMpduNum = 0 := by
    rw [h1, inOrderLoop, slot_one h1, hf,
      if_pos (show (some f).isSome = true from rfl), inOrderLoop, releaseReorderFrame_some _ hf]
    simp [hcount]
  have hno : ¬ ((t.reorderBuf (slot t t.headSeqNum)).isNone ∧ t.storedMpduNum ≠ 0) := by
    rw [slot_one h1, hf]
    simp
  unfold ieee80211StaReorderRelease
  dsimp only
  rw [if_neg hno]
  unfold updateReleaseTimer
  dsimp only
  rw [if_neg (not_not.mpr hloop)]
  exact hloop

theorem storeOrPass_one (tmo : ReorderTimeout) (now : BitVec w) (h1 : t.bufSize = 1)
    (h0 : t.storedMpduNum = 0) (skb : SkBuff) (frames : List SkBuff) :
    (storeOrPass tmo now t skb frames).agg.storedMpduNum = 0 := by
  unfold storeOrPass
  dsimp only
  split_ifs
  · exact h0
  · exact h0
  · exact h0
  · refine reorderRelease_one tmo now ?_ (f := skb) ?_ ?_ frames
    · exact h1
    · show Function.update t.reorderBuf (slot t (mpduSeqNum skb)) (some skb) 0 = some skb
      rw [slot_one h1, Function.update_self]
    · show (t.storedMpduNum + 1) % 0x10000 = 1
      rw [h0]

theorem manage_one (tmo : ReorderTimeout) (now : BitVec w) (hc : Counted t) (h1 : t.bufSize = 1)
    (h0 : t.storedMpduNum = 0) (skb : SkBuff) :
    (ieee80211StaManageReorderBuf tmo now t skb []).agg.storedMpduNum = 0 := by
  unfold ieee80211StaManageReorderBuf
  split_ifs
  · exact h0
  · exact storeOrPass_one tmo now h1 h0 skb []
  · have hm := conserves_releaseFramesLoop (seqInc (seqSub (mpduSeqNum skb) t.bufSize)) 0x1000 [] hc
    exact storeOrPass_one tmo now (hm.size.trans h1) (hm.nothing hc h0) skb _

/-! ### All windows of a session -/

/-- What holds of a session whose buffer size divides 4096: it is a window, or has one slot, and
nothing in it. -/
def Aligned (t : TidAmpduRx w) : Prop :=
  (Sized t.bufSize t.ssn ∧ ∃ W, Refines t W) ∨ (t.bufSize = 1 ∧ t.storedMpduNum = 0)

theorem Aligned.placed (h : Aligned t) (hc : Counted t) : Placed t := by
  rcases h with ⟨hs, W, hW⟩ | ⟨-, h0⟩
  · exact hW.placed hs
  · intro i f hi
    rw [hc.empty h0] at hi
    cases hi

theorem aligned_addba {now : BitVec w} {sta : AddbaSta} {req : AddbaReq}
    (h : ieee80211ProcessAddbaRequest now sta req true = some t) (hdvd : t.bufSize ∣ 0x1000) :
    Aligned t := by
  obtain ⟨hpos, hle, hssn, hhead, hcount, hempty⟩ := addba_spec h
  by_cases h1 : t.bufSize = 1
  · exact Or.inr ⟨h1, hcount⟩
  · refine Or.inl ⟨⟨hdvd, by omega, hle, hssn⟩, ⟨0, fun _ => none⟩, ?_, fun _ _ _ => hempty _,
      fun _ _ => hempty _, nofun, nofun⟩
    show t.headSeqNum = (t.ssn + 0) % 0x1000
    omega

variable {t₀ : TidAmpduRx w} {s s' : Life w}

/-- **Each event** keeps the session aligned. -/
theorem aligned_step (hcounts : Counts t₀ s) (h : ∀ t, s.agg = some t → Aligned t)
    {ev : LifeEv w} (hs : s.step ev = some s') : ∀ t, s'.agg = some t → Aligned t := by
  intro t' ht'
  match ev with
  | .frame skb now =>
    obtain ⟨t, ht, rfl⟩ := Option.map_eq_some_iff.mp hs
    obtain rfl := Option.some.inj ht'
    obtain ⟨hc, -, -⟩ := hcounts.counted t ht
    have hm := disposes_manage (updateTimeout s.tmo skb) now hc skb []
    rcases h t ht with ⟨hsized, W, hW⟩ | ⟨h1, h0⟩
    · refine Or.inl ⟨?_, refines_manage _ now hW hsized hc skb⟩
      rw [hm.size, hm.ssn]
      exact hsized
    · exact Or.inr ⟨hm.size.trans h1, manage_one _ now hc h1 h0 skb⟩
  | .expiry now =>
    obtain ⟨t, ht, rfl⟩ := Option.map_eq_some_iff.mp hs
    obtain rfl := Option.some.inj ht'
    obtain ⟨hc, -, -⟩ := hcounts.counted t ht
    have hrel := conserves_reorderRelease s.tmo now hc []
    rcases h t ht with ⟨hsized, W, hW⟩ | ⟨h1, h0⟩
    · obtain ⟨k, -, hm⟩ := moves_reorderRelease [] s.tmo now hW hsized
      refine Or.inl ⟨?_, _, hm.refines⟩
      rw [hm.size, hm.ssn]
      exact hsized
    · exact Or.inr ⟨hrel.size.trans h1, hrel.nothing hc h0⟩
  | .other skb =>
    obtain rfl := Option.some.inj hs
    exact h t' ht'
  | .teardown =>
    obtain ⟨t, ht, rfl⟩ := Option.map_eq_some_iff.mp hs
    cases ht'

theorem aligned_of_reach {now : BitVec w} {sta : AddbaSta} {req : AddbaReq}
    (h : ieee80211ProcessAddbaRequest now sta req true = some t₀) (hdvd : t₀.bufSize ∣ 0x1000)
    (hs : Reach (life t₀) (fun _ _ => True) s) (ht : s.agg = some t) : Aligned t := by
  have hinv : Counts t₀ s ∧ ∀ t, s.agg = some t → Aligned t := by
    refine hs.inv (I := fun s => Counts t₀ s ∧ ∀ t, s.agg = some t → Aligned t) ?_ ?_
    · intro s hi
      refine ⟨counts_init (counted_addba h) (addba_spec h).2.2.2.2.2 hi, fun t ht => ?_⟩
      obtain rfl := Option.some.inj (hi.1.symm.trans ht)
      exact aligned_addba h hdvd
    · intro s ev s' hI _ hst
      exact ⟨counts_step hI.1 hst, aligned_step hI.1 hI.2 hst⟩
  exact hinv.2 t ht

/-! ### Every window is reached -/

theorem mpduSeqNum_qosFrame {sn : ℕ} (h : sn < 0x1000) : mpduSeqNum (qosFrame sn) = sn := by
  have hctl : seqCtrl (qosFrame sn).data = sn * 16 := by
    show (UInt8.ofNat (sn * 16)).toNat + 256 * (UInt8.ofNat (sn / 16)).toNat = sn * 16
    rw [UInt8.toNat_ofNat', UInt8.toNat_ofNat']
    omega
  unfold mpduSeqNum
  rw [hctl, Nat.shiftRight_and_distrib, Nat.shiftRight_eq_div_pow,
    show 0xfff0 >>> 4 = 2 ^ 12 - 1 from rfl, Nat.and_two_pow_sub_one_eq_mod]
  omega

theorem manage_inOrder (tmo : ReorderTimeout) (now : BitVec w) (hc : Counted t)
    (h0 : t.storedMpduNum = 0) {skb : SkBuff} (hseq : mpduSeqNum skb = t.headSeqNum) :
    ieee80211StaManageReorderBuf tmo now t skb [] =
      ⟨false, { t with headSeqNum := seqInc t.headSeqNum }, [], []⟩ := by
  have hhead := hc.head
  have hpos := hc.size_pos
  have hle := hc.size_le
  have hnone : ¬ (t.reorderBuf (slot t (mpduSeqNum skb))).isSome = true := by
    rw [hc.empty h0]
    exact Bool.false_ne_true
  have hstale : ¬ seqLess (mpduSeqNum skb) t.headSeqNum := by
    rw [seqLess_iff, hseq]
    unfold seqSub
    omega
  have hin : seqLess (mpduSeqNum skb) ((t.headSeqNum + t.bufSize) % 0x10000) := by
    rw [seqLess_iff, hseq]
    unfold seqSub
    omega
  unfold ieee80211StaManageReorderBuf
  rw [if_neg hstale, if_neg (not_not.mpr hin)]
  unfold storeOrPass
  dsimp only
  rw [if_neg hnone, if_pos ⟨hseq, h0⟩]

/-- The timeout of a session that sees short frames. -/
def shortTimeout : ReorderTimeout := ⟨hz / 4, 50⟩

/-- **Frames in order** move the head to any offset. -/
theorem reach_head {now : BitVec w} {sta : AddbaSta} {req : AddbaReq}
    (h : ieee80211ProcessAddbaRequest now sta req true = some t₀) (k : ℕ) :
    ∃ s, Reach (life t₀) (fun _ _ => True) s ∧ s.tmo = shortTimeout ∧
      s.agg = some { t₀ with headSeqNum := (t₀.ssn + k) % 0x1000 } ∧
      ∀ f ∈ s.arrived, ∃ i < k, mpduSeqNum f = (t₀.ssn + i) % 0x1000 := by
  obtain ⟨hpos, hle, hssn, hhead, hcount, hempty⟩ := addba_spec h
  have hc := counted_addba h
  induction k with
  | zero =>
    refine ⟨⟨shortTimeout, some t₀, [], [], [], []⟩, .init ⟨rfl, rfl, rfl, rfl, rfl⟩, rfl, ?_,
      nofun⟩
    have h0 : (t₀.ssn + 0) % 0x1000 = t₀.headSeqNum := by omega
    rw [h0]
  | succ k ih =>
    obtain ⟨s, hs, htmo, hagg, harrived⟩ := ih
    have hlt : (t₀.ssn + k) % 0x1000 < 0x1000 := Nat.mod_lt _ (by decide)
    have hck : Counted { t₀ with headSeqNum := (t₀.ssn + k) % 0x1000 } :=
      hc.congr rfl rfl rfl hlt
    have hm := manage_inOrder (updateTimeout s.tmo (qosFrame ((t₀.ssn + k) % 0x1000))) now hck hcount
      (mpduSeqNum_qosFrame hlt)
    refine ⟨_, hs.step trivial (a := .frame (qosFrame ((t₀.ssn + k) % 0x1000)) now)
      (congrArg (Option.map _) hagg), ?_, ?_, fun f hf => ?_⟩
    · show updateTimeout s.tmo (qosFrame ((t₀.ssn + k) % 0x1000)) = shortTimeout
      rw [htmo]
      rfl
    · show some (ieee80211StaManageReorderBuf
        (updateTimeout s.tmo (qosFrame ((t₀.ssn + k) % 0x1000))) now
        { t₀ with headSeqNum := (t₀.ssn + k) % 0x1000 } (qosFrame ((t₀.ssn + k) % 0x1000)) []).agg = _
      have hinc : seqInc ((t₀.ssn + k) % 0x1000) = (t₀.ssn + (k + 1)) % 0x1000 := by
        unfold seqInc
        omega
      rw [hm, hinc]
    · rcases List.mem_append.mp hf with hf | hf
      · obtain ⟨i, hi, hseq⟩ := harrived f hf
        exact ⟨i, by omega, hseq⟩
      · obtain rfl := List.mem_singleton.mp hf
        exact ⟨k, by omega, mpduSeqNum_qosFrame hlt⟩

/-- **The slots of a session**: in every state that a run reaches the sequence numbers of the window
have slots of their own, and no new frame of the window is dropped as a duplicate, exactly if the
buffer size of the session divides 4096. -/
theorem slots_distinct_iff {now : BitVec w} {sta : AddbaSta} {req : AddbaReq}
    (h : ieee80211ProcessAddbaRequest now sta req true = some t₀) :
    (∀ s t, Reach (life t₀) (fun _ _ => True) s → s.agg = some t → Distinct t ∧ NotLost t) ↔
      t₀.bufSize ∣ 0x1000 := by
  obtain ⟨hpos, hle, hssn, hhead, hcount, hempty⟩ := addba_spec h
  constructor
  · intro hall
    obtain ⟨s, hs, -, hagg, -⟩ := reach_head h 0xfff
    have hlt : (t₀.ssn + 0xfff) % 0x1000 < 0x1000 := by omega
    have hdist := (hall s _ hs hagg).1
    rcases (distinct_iff (t := { t₀ with headSeqNum := (t₀.ssn + 0xfff) % 0x1000 }) hlt hssn hle
      hpos).mp hdist with hdvd | hfit
    · exact hdvd
    · -- the window begins at the last offset, so it has one slot
      have hoff : seqSub ((t₀.ssn + 0xfff) % 0x1000) t₀.ssn = 0xfff := seqSub_ssn _ _
      have h1 : t₀.bufSize = 1 := by
        unfold headOffset at hfit
        dsimp only at hfit
        omega
      rw [h1]
      exact one_dvd _
  · intro hdvd s t hs ht
    obtain ⟨hc, hsize, hssn'⟩ := (counts_of_reach h hs).counted t ht
    have hdist : Distinct t :=
      (distinct_iff hc.head (hssn' ▸ hssn) hc.size_le hc.size_pos).mpr (Or.inl (hsize ▸ hdvd))
    exact ⟨hdist, ((aligned_of_reach h hdvd hs ht).placed hc).notLost hdist hc.size_le⟩

/-- The session of 8 slots. -/
theorem slots_distinct_iff_eight : freshSession.bufSize = 8 ∧
    ∀ s t, Reach (life freshSession) (fun _ _ => True) s → s.agg = some t →
      Distinct t ∧ NotLost t :=
  ⟨by decide, (slots_distinct_iff freshSession_eq).mpr (by decide)⟩

/-- A session of 3 slots. -/
def threeSlots : TidAmpduRx 32 :=
  (ieee80211ProcessAddbaRequest 0 ⟨false, 0⟩ ⟨0x00c2, 0, 0⟩ true).get (by decide)

theorem threeSlots_eq :
    ieee80211ProcessAddbaRequest 0 ⟨false, 0⟩ ⟨0x00c2, 0, 0⟩ true = some threeSlots :=
  (Option.some_get (by decide)).symm

/-- That session with the head at 4094 and frame 0 stored, in the slot of frame 4095. -/
def atWrap : TidAmpduRx 32 :=
  (ieee80211StaManageReorderBuf shortTimeout 0 { threeSlots with headSeqNum := 0xffe } (qosFrame 0)
    []).agg

/-- **Three slots at the wrap**: the frame 4095 is dropped as a duplicate of frame 0, although it
has not been received. -/
theorem newFrame_dropped : ∃ s, Reach (life threeSlots) (fun _ _ => True) s ∧
    s.agg = some atWrap ∧ (∀ f ∈ s.arrived, mpduSeqNum f ≠ 0xfff) ∧
    ¬ Distinct atWrap ∧ ¬ NotLost atWrap := by
  have hin : InWindow atWrap 0xfff ∧ InWindow atWrap 0 ∧ slot atWrap 0xfff = slot atWrap 0 := by
    unfold InWindow
    decide +kernel
  obtain ⟨s, hs, htmo, hagg, harrived⟩ := reach_head threeSlots_eq 0xffe
  have hstep : ∃ s', (life threeSlots).step s (.frame (qosFrame 0) 0) = some s' ∧
      s'.agg = some atWrap ∧ s'.arrived = s.arrived ++ [qosFrame 0] := by
    refine ⟨_, congrArg (Option.map _) hagg, ?_, rfl⟩
    show some (ieee80211StaManageReorderBuf (updateTimeout s.tmo (qosFrame 0)) 0
      { threeSlots with headSeqNum := (threeSlots.ssn + 0xffe) % 0x1000 } (qosFrame 0) []).agg =
        some atWrap
    have hshort : updateTimeout s.tmo (qosFrame 0) = shortTimeout := by
      rw [htmo]
      rfl
    have hssn : (threeSlots.ssn + 0xffe) % 0x1000 = 0xffe := by decide
    rw [hshort, hssn]
    rfl
  obtain ⟨s', hs', hagg', harrived'⟩ := hstep
  refine ⟨s', hs.step trivial hs', hagg', fun f hf => ?_, fun hdist => ?_, fun hnot => ?_⟩
  · rw [harrived'] at hf
    rcases List.mem_append.mp hf with hf | hf
    · obtain ⟨i, hi, hseq⟩ := harrived f hf
      have hssn : threeSlots.ssn = 0 := by decide
      omega
    · obtain rfl := List.mem_singleton.mp hf
      decide
  · exact absurd (hdist _ _ hin.1 hin.2.1 hin.2.2) (by decide)
  · have hseq : mpduSeqNum (qosFrame 0xfff) = 0xfff := mpduSeqNum_qosFrame (by decide)
    obtain ⟨i, f, hi, hf⟩ := hnot shortTimeout 0 (qosFrame 0xfff) (hseq ▸ hin.1) (by decide +kernel)
    have hck : Counted { threeSlots with headSeqNum := 0xffe } :=
      (counted_addba threeSlots_eq).congr rfl rfl rfl (by decide)
    have hc : Counted atWrap := (disposes_manage shortTimeout 0 hck (qosFrame 0) []).counted
    have hstored : occupied atWrap.reorderBuf atWrap.bufSize = [qosFrame 0] := by decide +kernel
    have hmem : f ∈ occupied atWrap.reorderBuf atWrap.bufSize :=
      (mem_occupied _).mpr ⟨i, hc.lt_size hi, hi⟩
    rw [hstored, List.mem_singleton] at hmem
    rw [hseq, hmem] at hf
    exact absurd hf (by decide)

end Atbm6441.Rx.Reorder
