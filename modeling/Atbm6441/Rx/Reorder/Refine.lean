import Atbm6441.Lib.Window
import Atbm6441.Rx.Reorder.Model
import Mathlib.Data.Nat.ModEq

/-!
# The reorder buffer is a window that slides over the positions

Position `p` of a session has the sequence number `(ssn + p) % 4096`; when the buffer size `N`
divides 4096 its slot is `p % N`. `Refines t W` says that the session `t` is the window `W` of
frames. Each function of the reorder buffer moves the head of `W` and hands out what the move
hands out: `refines_release` for one slot, `refines_releaseFrames`, `refines_scan`,
`refines_inOrder` for the loops, `refines_reorderRelease` and `refines_manage` for the two entry
points.
-/

namespace Atbm6441.Rx.Reorder

open Atbm6441.Ieee80211 Atbm6441.Lib

variable {w : ℕ}

/-! ### Arithmetic modulo 4096 -/

theorem seqLess_iff (a b : ℕ) : seqLess a b = true ↔ 0x800 < seqSub a b := by
  unfold seqLess
  exact decide_eq_true_iff

theorem seqSub_pos (s p d : ℕ) (hd : d < 0x1000) :
    seqSub ((s + (p + d)) % 0x1000) ((s + p) % 0x1000) = d := by
  unfold seqSub
  omega

theorem seqSub_ssn (s p : ℕ) :
    seqSub ((s + p) % 0x1000) s = p % 0x1000 := by
  unfold seqSub
  omega

theorem mpduSeqNum_lt (skb : SkBuff) : mpduSeqNum skb < 0x1000 := by
  have h1 : seqCtrl skb.data &&& 0xfff0 ≤ 0xfff0 := Nat.and_le_right
  unfold mpduSeqNum
  rw [Nat.shiftRight_eq_div_pow]
  omega

theorem eq_of_seqSub {s p q d : ℕ} (hq : q < 0x1000) (h : seqSub q ((s + p) % 0x1000) = d) :
    q = (s + (p + d)) % 0x1000 := by
  unfold seqSub at h
  omega

/-! ### The relation -/

/-- A buffer size and a starting sequence number whose slots do not depend on the wrap. -/
structure Sized (bufSize ssn : ℕ) : Prop where
  dvd : bufSize ∣ 0x1000
  two_le : 2 ≤ bufSize
  le : bufSize ≤ 0x40
  ssn_lt : ssn < 0x1000

/-- **The session `t` is the window `W`.** -/
structure Refines (t : TidAmpduRx w) (W : Window SkBuff) : Prop where
  head : t.headSeqNum = (t.ssn + W.head) % 0x1000
  held : ∀ p, W.head ≤ p → p < W.head + t.bufSize → t.reorderBuf (p % t.bufSize) = W.held p
  beyond : ∀ i, t.bufSize ≤ i → t.reorderBuf i = none
  within : W.Within t.bufSize
  seq : ∀ p f, W.held p = some f → mpduSeqNum f = (t.ssn + p) % 0x1000

variable {t : TidAmpduRx w} {W : Window SkBuff}

theorem Sized.slot_pos (hs : Sized t.bufSize t.ssn) (p : ℕ) :
    slot t ((t.ssn + p) % 0x1000) = p % t.bufSize := by
  unfold slot
  rw [seqSub_ssn, Nat.mod_mod_of_dvd _ hs.dvd]

theorem Refines.slot_head (h : Refines t W) (hs : Sized t.bufSize t.ssn) :
    slot t t.headSeqNum = W.head % t.bufSize := by
  rw [h.head, hs.slot_pos]

theorem Refines.held_head (h : Refines t W) (hs : Sized t.bufSize t.ssn) :
    t.reorderBuf (slot t t.headSeqNum) = W.held W.head := by
  rw [h.slot_head hs, h.held _ le_rfl (by have := hs.two_le; omega)]

theorem eq_of_mod_eq {N a p q : ℕ} (hp : a ≤ p) (hp' : p < a + N) (hq : a ≤ q) (hq' : q < a + N)
    (h : p % N = q % N) : p = q :=
  Nat.ModEq.eq_of_abs_lt h (abs_lt.mpr ⟨by omega, by omega⟩)

theorem Refines.slots (h : Refines t W) (hs : Sized t.bufSize t.ssn) {i : ℕ} {f : SkBuff}
    (hi : t.reorderBuf i = some f) :
    i < t.bufSize ∧ seqSub (mpduSeqNum f) t.headSeqNum < t.bufSize ∧
      seqSub (mpduSeqNum f) t.ssn % t.bufSize = i := by
  have hN := hs.two_le
  have hN' := hs.le
  have hlt : i < t.bufSize := by
    by_contra hge
    rw [h.beyond i (by omega)] at hi
    cases hi
  -- the position of the window whose slot is `i`
  obtain ⟨d, hd, hslot⟩ : ∃ d < t.bufSize, (W.head + d) % t.bufSize = i := by
    refine ⟨(i + (t.bufSize - W.head % t.bufSize)) % t.bufSize,
      Nat.mod_lt _ (by omega), ?_⟩
    have := Nat.mod_lt W.head (show 0 < t.bufSize by omega)
    rw [Nat.add_mod_mod, ← Nat.mod_add_mod,
      show W.head % t.bufSize + (i + (t.bufSize - W.head % t.bufSize)) =
        i + t.bufSize by omega, Nat.add_mod_right, Nat.mod_eq_of_lt hlt]
  have hheld : W.held (W.head + d) = some f := by
    rw [← h.held _ (by omega) (by omega), hslot, hi]
  have hseq := h.seq _ _ hheld
  refine ⟨hlt, ?_, ?_⟩
  · rw [hseq, h.head, seqSub_pos _ _ _ (by omega)]
    exact hd
  · rw [hseq, seqSub_ssn, Nat.mod_mod_of_dvd _ hs.dvd, hslot]

theorem Refines.congr (h : Refines t W) {t' : TidAmpduRx w} (hbuf : t'.reorderBuf = t.reorderBuf)
    (hhead : t'.headSeqNum = t.headSeqNum) (hssn : t'.ssn = t.ssn)
    (hsize : t'.bufSize = t.bufSize) : Refines t' W where
  head := by rw [hhead, hssn]; exact h.head
  held := by rw [hbuf, hsize]; exact h.held
  beyond := by rw [hbuf, hsize]; exact h.beyond
  within := by rw [hsize]; exact h.within
  seq := by rw [hssn]; exact h.seq

/-! ### Releasing a slot -/

/-- **Moving the head** behind `s` empty slots and one slot more, which is emptied. -/
theorem Refines.moved (h : Refines t W) {s : ℕ} (hsN : s < t.bufSize)
    (hempty : ∀ k < s, W.held (W.head + k) = none) {t' : TidAmpduRx w}
    (hbuf : t'.reorderBuf = Function.update t.reorderBuf ((W.head + s) % t.bufSize) none)
    (hhead : t'.headSeqNum = (t.headSeqNum + s + 1) % 0x1000) (hssn : t'.ssn = t.ssn)
    (hsize : t'.bufSize = t.bufSize) : Refines t' (W.advance (s + 1)) where
  head := by
    rw [hhead, hssn, h.head, Window.advance_head]
    omega
  held p hp hp' := by
    rw [Window.advance_head] at hp hp'
    rw [hsize] at hp' ⊢
    rw [hbuf, Window.advance_held_of_le _ hp]
    by_cases hslot : p % t.bufSize = (W.head + s) % t.bufSize
    · have hpN : p = W.head + s + t.bufSize :=
        eq_of_mod_eq hp hp' (by omega) (by omega) (by rw [hslot, Nat.add_mod_right])
      rw [hslot, Function.update_self, h.within.held_eq_none (by omega)]
    · rw [Function.update_of_ne hslot]
      by_cases hlt : p < W.head + t.bufSize
      · exact h.held p (by omega) hlt
      · obtain ⟨q, rfl⟩ : ∃ q, p = W.head + q + t.bufSize := ⟨p - W.head - t.bufSize, by omega⟩
        have hq : q < s := by
          have : q ≠ s := by rintro rfl; exact hslot (Nat.add_mod_right _ _)
          omega
        rw [h.within.held_eq_none (by omega), Nat.add_mod_right, h.held _ (by omega) (by omega),
          hempty q hq]
  beyond i hi := by
    rw [hbuf]
    by_cases hslot : i = (W.head + s) % t.bufSize
    · rw [hslot, Function.update_self]
    · rw [Function.update_of_ne hslot]
      exact h.beyond i (hsize ▸ hi)
  within := by rw [hsize]; exact h.within.advance _
  seq p g hg := by
    rw [Window.advance_held] at hg
    split_ifs at hg
    rw [hssn]
    exact h.seq p g hg

/-! ### Moves -/

/-- **A move** of the session: its window moves by `n` and the frames of the first `n` positions
are appended to `frames`. -/
structure Moves (t : TidAmpduRx w) (W : Window SkBuff) (frames : List SkBuff) (n : ℕ)
    (r : TidAmpduRx w × List SkBuff) : Prop where
  refines : Refines r.1 (W.advance n)
  out : r.2 = frames ++ (W.front n).map Prod.snd
  ssn : r.1.ssn = t.ssn
  size : r.1.bufSize = t.bufSize

section

variable {frames : List SkBuff} {n : ℕ} {r : TidAmpduRx w × List SkBuff}

theorem Moves.sized (h : Moves t W frames n r) (hs : Sized t.bufSize t.ssn) :
    Sized r.1.bufSize r.1.ssn := by
  rw [h.size, h.ssn]
  exact hs

theorem Moves.trans {k : ℕ} {r' : TidAmpduRx w × List SkBuff} (h : Moves t W frames n r)
    (h' : Moves r.1 (W.advance n) r.2 k r') : Moves t W frames (n + k) r' where
  refines := by rw [← Window.advance_advance]; exact h'.refines
  out := by rw [h'.out, h.out, Window.front_add, List.map_append, List.append_assoc]
  ssn := h'.ssn.trans h.ssn
  size := h'.size.trans h.size

theorem Moves.congr (h : Moves t W frames n r) {t' : TidAmpduRx w}
    (hbuf : t'.reorderBuf = r.1.reorderBuf) (hhead : t'.headSeqNum = r.1.headSeqNum)
    (hssn : t'.ssn = r.1.ssn) (hsize : t'.bufSize = r.1.bufSize) :
    Moves t W frames n (t', r.2) where
  refines := h.refines.congr hbuf hhead hssn hsize
  out := h.out
  ssn := hssn.trans h.ssn
  size := hsize.trans h.size

theorem Moves.setReleaseTimer (tmo : ReorderTimeout) (j : ℕ) (h : Moves t W frames n r) :
    Moves t W frames n (setReleaseTimer tmo r.1 j, r.2) :=
  h.congr rfl rfl rfl rfl

theorem Moves.updateReleaseTimer (tmo : ReorderTimeout) (h : Moves t W frames n r) :
    Moves t W frames n (updateReleaseTimer tmo r.1, r.2) := by
  unfold Reorder.updateReleaseTimer
  split_ifs
  · exact h.setReleaseTimer tmo _
  · exact h.congr rfl rfl rfl rfl

end

variable (frames : List SkBuff)

theorem Refines.moves (h : Refines t W) : Moves t W frames 0 (t, frames) where
  refines := by rw [Window.advance_zero fun p f hp => (h.within p f hp).1]; exact h
  out := by rw [Window.front_zero, List.map_nil, List.append_nil]
  ssn := rfl
  size := rfl

theorem releaseReorderFrame_none {i : ℕ} (hi : t.reorderBuf i = none) :
    ieee80211ReleaseReorderFrame t i frames =
      ({ t with headSeqNum := seqInc t.headSeqNum }, frames) := by
  unfold ieee80211ReleaseReorderFrame
  rw [hi]

theorem releaseReorderFrame_some {i : ℕ} {skb : SkBuff} (hi : t.reorderBuf i = some skb) :
    ieee80211ReleaseReorderFrame t i frames =
      ({ t with
          storedMpduNum := (t.storedMpduNum + 0xffff) % 0x10000
          reorderBuf := Function.update t.reorderBuf i none
          headSeqNum := seqInc t.headSeqNum }, frames ++ [skb]) := by
  unfold ieee80211ReleaseReorderFrame
  rw [hi]

/-- **Releasing a stored frame behind `s` empty slots**, with the head moved over these as well. -/
theorem moves_releaseSkipped (h : Refines t W) {s : ℕ} (hsN : s < t.bufSize)
    (hempty : ∀ k < s, W.held (W.head + k) = none) {f : SkBuff}
    (hf : t.reorderBuf ((W.head + s) % t.bufSize) = some f) :
    Moves t W frames (s + 1)
      (let r := ieee80211ReleaseReorderFrame t ((W.head + s) % t.bufSize) frames
       ({ r.1 with headSeqNum := (r.1.headSeqNum + s) % 0x1000 }, r.2)) := by
  have hheld : W.held (W.head + s) = some f := by rw [← h.held _ (by omega) (by omega), hf]
  rw [releaseReorderFrame_some frames hf]
  refine ⟨h.moved hsN hempty rfl ?_ rfl rfl, ?_, rfl, rfl⟩
  · simp only [seqInc]
    omega
  · rw [Window.front_succ, Window.front_eq_nil hempty, hheld]
    rfl

/-- **Releasing the slot of the head**, empty or not. -/
theorem moves_releaseFrame (h : Refines t W) (hs : Sized t.bufSize t.ssn) :
    Moves t W frames 1 (ieee80211ReleaseReorderFrame t (slot t t.headSeqNum) frames) := by
  have hN := hs.two_le
  have hslot := h.slot_head hs
  have hheld := h.held_head hs
  cases hf : t.reorderBuf (slot t t.headSeqNum) with
  | none =>
    have hbuf : t.reorderBuf = Function.update t.reorderBuf ((W.head + 0) % t.bufSize) none := by
      rw [Nat.add_zero, ← hslot, ← hf, Function.update_eq_self]
    rw [releaseReorderFrame_none frames hf]
    refine ⟨h.moved (by omega) (by simp) hbuf rfl rfl rfl, ?_, rfl, rfl⟩
    simp [Window.front_one, ← hheld, hf]
  | some skb =>
    have hbuf : Function.update t.reorderBuf (slot t t.headSeqNum) none =
        Function.update t.reorderBuf ((W.head + 0) % t.bufSize) none := by
      rw [Nat.add_zero, ← hslot]
    rw [releaseReorderFrame_some frames hf]
    refine ⟨h.moved (by omega) (by simp) hbuf rfl rfl rfl, ?_, rfl, rfl⟩
    simp [Window.front_one, ← hheld, hf]

/-! ### The loops -/

/-- **The window is moved up to a position** less than 2048 away, and no further. -/
theorem moves_releaseFramesLoop : ∀ (m n : ℕ) {t : TidAmpduRx w} {W : Window SkBuff}
    (frames : List SkBuff), Refines t W → Sized t.bufSize t.ssn → m ≤ n → m < 0x800 →
    Moves t W frames m (releaseFramesLoop ((t.ssn + (W.head + m)) % 0x1000) n t frames)
  | 0, 0, _, _, frames, h, _, _, _ => h.moves frames
  | 0, n + 1, t, W, frames, h, _, _, _ => by
    have hless : ¬ seqLess t.headSeqNum ((t.ssn + (W.head + 0)) % 0x1000) := by
      rw [h.head, seqLess_iff]
      unfold seqSub
      omega
    rw [releaseFramesLoop, if_neg hless]
    exact h.moves frames
  | m + 1, n + 1, t, W, frames, h, hs, hmn, hm => by
    have hless : seqLess t.headSeqNum ((t.ssn + (W.head + (m + 1))) % 0x1000) := by
      rw [h.head, seqLess_iff]
      unfold seqSub
      omega
    have h1 := moves_releaseFrame frames h hs
    have h2 := moves_releaseFramesLoop m n
      (ieee80211ReleaseReorderFrame t (slot t t.headSeqNum) frames).2
      h1.refines (h1.sized hs) (by omega) (by omega)
    rw [h1.ssn, Window.advance_head, Nat.add_assoc, Nat.add_comm 1 m] at h2
    rw [releaseFramesLoop, if_pos hless, Nat.add_comm m 1]
    rw [Nat.add_comm m 1] at h2
    exact h1.trans h2

theorem moves_releaseFrames (h : Refines t W) (hs : Sized t.bufSize t.ssn) {m : ℕ}
    (hm : m < 0x800) :
    Moves t W frames m
      (ieee80211ReleaseReorderFrames t ((t.ssn + (W.head + m)) % 0x1000) frames) :=
  moves_releaseFramesLoop m _ frames h hs (by omega) hm

theorem moves_inOrderLoop : ∀ (n : ℕ) {t : TidAmpduRx w} {W : Window SkBuff}
    (frames : List SkBuff), Refines t W → Sized t.bufSize t.ssn →
    ∃ k ≤ n, Moves t W frames k (inOrderLoop n t frames)
  | 0, _, _, frames, h, _ => ⟨0, Nat.le_refl 0, h.moves frames⟩
  | n + 1, t, W, frames, h, hs => by
    rw [inOrderLoop]
    split_ifs
    · have h1 := moves_releaseFrame frames h hs
      obtain ⟨k, hk, h2⟩ := moves_inOrderLoop n
        (ieee80211ReleaseReorderFrame t (slot t t.headSeqNum) frames).2 h1.refines (h1.sized hs)
      exact ⟨1 + k, by omega, h1.trans h2⟩
    · exact ⟨0, Nat.zero_le _, h.moves frames⟩

/-- **The scan for frames that have timed out**, which began at position `a` and has seen the `s`
positions from the head on empty, moves the head at most once round the slots. -/
theorem moves_timeoutScan (tmo : ReorderTimeout) (now : BitVec w) (a : ℕ) :
    ∀ (n : ℕ) {t : TidAmpduRx w} {W : Window SkBuff} (s : ℕ) (frames : List SkBuff),
      Refines t W → Sized t.bufSize t.ssn → a < W.head + s → a ≤ W.head →
      W.head + s ≤ a + t.bufSize → (∀ k < s, W.held (W.head + k) = none) →
      ∃ k, W.head + k ≤ a + t.bufSize ∧
        let r := timeoutScan tmo now (a % t.bufSize) n t ((W.head + s) % t.bufSize) s frames
        Moves t W frames k (r.1, r.2.1)
  | 0, t, W, s, frames, h, _, _, _, _, _ => ⟨0, by omega, h.moves frames⟩
  | n + 1, t, W, s, frames, h, hs, ha, haW, hle, hempty => by
    rw [timeoutScan]
    split_ifs with hj hnone hwait
    · exact ⟨0, by omega, h.moves frames⟩
    · have hne : W.head + s ≠ a + t.bufSize := fun he => hj (by rw [he, Nat.add_mod_right])
      have hheld : W.held (W.head + s) = none := by
        rw [← h.held _ (by omega) (by omega)]
        exact Option.isNone_iff_eq_none.mp hnone
      rw [Nat.mod_add_mod, Nat.add_assoc]
      refine moves_timeoutScan tmo now a n (s + 1) frames h hs (by omega) haW (by omega) ?_
      intro k hk
      rcases Nat.lt_succ_iff_lt_or_eq.mp hk with hk | rfl
      · exact hempty k hk
      · exact hheld
    · exact ⟨0, by omega, h.moves frames⟩
    · have hne : W.head + s ≠ a + t.bufSize := fun he => hj (by rw [he, Nat.add_mod_right])
      obtain ⟨f, hf⟩ := Option.ne_none_iff_exists'.mp fun he =>
        hnone (Option.isNone_iff_eq_none.mpr he)
      have h1 := moves_releaseSkipped frames h (by omega) hempty hf
      have hsize : (ieee80211ReleaseReorderFrame t ((W.head + s) % t.bufSize) frames).1.bufSize
        = t.bufSize := h1.size
      obtain ⟨k, hk, h2⟩ := moves_timeoutScan tmo now a n 0
        (ieee80211ReleaseReorderFrame t ((W.head + s) % t.bufSize) frames).2
        h1.refines (h1.sized hs) (by rw [Window.advance_head]; omega)
        (by rw [Window.advance_head]; omega) (by rw [Window.advance_head, h1.size]; omega) (by simp)
      rw [Window.advance_head, h1.size] at hk
      refine ⟨s + 1 + k, by omega, h1.trans ?_⟩
      simpa only [Window.advance_head, h1.size, hsize, Nat.mod_add_mod, Nat.add_zero,
        Nat.add_assoc] using h2

/-! ### The entry points -/

/-- **`ieee80211_sta_reorder_release`** moves the head by at most the buffer size. -/
theorem moves_reorderRelease (tmo : ReorderTimeout) (now : BitVec w) (h : Refines t W)
    (hs : Sized t.bufSize t.ssn) :
    ∃ k ≤ t.bufSize, Moves t W frames k (ieee80211StaReorderRelease tmo now t frames) := by
  have hN := hs.two_le
  unfold ieee80211StaReorderRelease
  dsimp only
  split_ifs with hempty
  · have hhead : W.held W.head = none := by
      rw [← h.held_head hs]
      exact Option.isNone_iff_eq_none.mp hempty.1
    obtain ⟨k, hk, hm⟩ := moves_timeoutScan tmo now W.head t.bufSize 1 frames h hs (by omega)
      (by omega) (by omega) (fun i hi => by
        obtain rfl : i = 0 := by omega
        exact hhead)
    rw [← h.slot_head hs, ← Nat.mod_add_mod, ← h.slot_head hs] at hm
    refine ⟨k, by omega, ?_⟩
    revert hm
    generalize timeoutScan tmo now _ _ t _ 1 frames = r
    obtain ⟨t', frames', _ | j⟩ := r
    · exact fun hm => hm.updateReleaseTimer tmo
    · exact fun hm => hm.setReleaseTimer tmo j
  · obtain ⟨k, hk, hm⟩ := moves_inOrderLoop t.bufSize frames h hs
    exact ⟨k, hk, hm.updateReleaseTimer tmo⟩

/-- **Storing a frame** of the window. -/
theorem Refines.put (h : Refines t W) {p : ℕ} (hp : W.head ≤ p) (hp' : p < W.head + t.bufSize)
    {skb : SkBuff} (hseq : mpduSeqNum skb = (t.ssn + p) % 0x1000) {t' : TidAmpduRx w}
    (hbuf : t'.reorderBuf = Function.update t.reorderBuf (p % t.bufSize) (some skb))
    (hhead : t'.headSeqNum = t.headSeqNum) (hssn : t'.ssn = t.ssn)
    (hsize : t'.bufSize = t.bufSize) : Refines t' (W.put p skb) where
  head := by rw [hhead, hssn]; exact h.head
  held q hq hq' := by
    rw [Window.put_head] at hq hq'
    rw [hsize] at hq' ⊢
    rw [hbuf]
    by_cases hqp : q = p
    · rw [hqp, Function.update_self, Window.put_held_self]
    · have hslot : q % t.bufSize ≠ p % t.bufSize := fun he => hqp (eq_of_mod_eq hq hq' hp hp' he)
      rw [Function.update_of_ne hslot, Window.put_held_of_ne _ _ hqp]
      exact h.held q hq hq'
  beyond i hi := by
    rw [hsize] at hi
    have : i ≠ p % t.bufSize := by
      have := Nat.mod_lt p (show 0 < t.bufSize by omega)
      omega
    rw [hbuf, Function.update_of_ne this]
    exact h.beyond i hi
  within := by rw [hsize]; exact h.within.put hp hp'
  seq q g hg := by
    rw [hssn]
    by_cases hqp : q = p
    · rw [hqp, Window.put_held_self] at hg
      rw [← Option.some.inj hg, hseq, hqp]
    · rw [Window.put_held_of_ne _ _ hqp] at hg
      exact h.seq q g hg

theorem moves_pass (h : Refines t W) (hs : Sized t.bufSize t.ssn) {skb : SkBuff}
    (hnone : W.held W.head = none) :
    Moves t (W.put W.head skb) frames 1
      ({ t with headSeqNum := seqInc t.headSeqNum }, frames ++ [skb]) := by
  have hnone' : t.reorderBuf (slot t t.headSeqNum) = none := by rw [h.held_head hs, hnone]
  have h1 := moves_releaseFrame frames h hs
  rw [releaseReorderFrame_none frames hnone'] at h1
  refine ⟨?_, ?_, rfl, rfl⟩
  · rw [W.put_advance skb (Nat.lt_add_one _)]
    exact h1.refines
  · simp [Window.front_one]

/-- What becomes of a frame of the window: it is freed if its position is held, and is put at its
position and the window moves if it is not. -/
structure Stored (t : TidAmpduRx w) (W : Window SkBuff) (frames : List SkBuff) (p : ℕ)
    (skb : SkBuff) (m : Managed w) : Prop where
  dup : (W.held p).isSome → m.freed = [skb] ∧ Moves t W frames 0 (m.agg, m.handedOn skb)
  fresh : W.held p = none → m.freed = [] ∧
    ∃ k ≤ t.bufSize, Moves t (W.put p skb) frames k (m.agg, m.handedOn skb)

variable {frames}

/-- `Stored` looks at the size and the starting sequence number of the session only. -/
theorem Stored.congr {p : ℕ} {skb : SkBuff} {m : Managed w} {t' : TidAmpduRx w}
    (h : Stored t' W frames p skb m) (hssn : t'.ssn = t.ssn) (hsize : t'.bufSize = t.bufSize) :
    Stored t W frames p skb m where
  dup hsome := by
    obtain ⟨hfreed, hm⟩ := h.dup hsome
    exact ⟨hfreed, hm.refines, hm.out, hm.ssn.trans hssn, hm.size.trans hsize⟩
  fresh hnone := by
    obtain ⟨hfreed, k, hk, hm⟩ := h.fresh hnone
    exact ⟨hfreed, k, hsize ▸ hk, hm.refines, hm.out, hm.ssn.trans hssn, hm.size.trans hsize⟩

variable (frames)

theorem stored_storeOrPass (tmo : ReorderTimeout) (now : BitVec w) (h : Refines t W)
    (hs : Sized t.bufSize t.ssn) {skb : SkBuff}
    (hE : ¬ (isEapol skb ∧ mpduSeqNum skb = t.headSeqNum + 1 ∧ t.storedMpduNum = 0)) {p : ℕ}
    (hp : W.head ≤ p) (hp' : p < W.head + t.bufSize)
    (hseq : mpduSeqNum skb = (t.ssn + p) % 0x1000) :
    Stored t W frames p skb (storeOrPass tmo now t skb frames) := by
  have hslot : slot t (mpduSeqNum skb) = p % t.bufSize := by rw [hseq, hs.slot_pos]
  have hheld : t.reorderBuf (slot t (mpduSeqNum skb)) = W.held p := by rw [hslot, h.held p hp hp']
  have hN := hs.two_le
  have hN' := hs.le
  unfold storeOrPass
  dsimp only
  rw [hheld]
  split_ifs with hdup hpass
  · exact ⟨fun _ => ⟨rfl, h.moves frames⟩, fun hnone => by simp [hnone] at hdup⟩
  · have hpW : p = W.head := by
      have := hpass.1
      rw [hseq, h.head] at this
      omega
    subst hpW
    exact ⟨fun hsome => absurd hsome hdup,
      fun hnone => ⟨rfl, 1, by omega, moves_pass frames h hs hnone⟩⟩
  · refine ⟨fun hsome => absurd hsome hdup, fun hnone => ⟨rfl, ?_⟩⟩
    have hput : Refines { t with
        reorderBuf := Function.update t.reorderBuf (slot t (mpduSeqNum skb)) (some skb)
        reorderTime := Function.update t.reorderTime (slot t (mpduSeqNum skb)) now
        storedMpduNum := (t.storedMpduNum + 1) % 0x10000 } (W.put p skb) :=
      h.put hp hp' hseq (by rw [hslot]) rfl rfl rfl
    obtain ⟨k, hk, hm⟩ := moves_reorderRelease frames tmo now hput hs
    exact ⟨k, hk, hm.refines, hm.out, hm.ssn, hm.size⟩

/-- **`ieee80211_sta_manage_reorder_buf`**: a frame behind the head is freed and nothing else
happens. -/
theorem manage_stale (tmo : ReorderTimeout) (now : BitVec w) {skb : SkBuff}
    (h : 0x800 < seqSub (mpduSeqNum skb) t.headSeqNum) :
    ieee80211StaManageReorderBuf tmo now t skb frames = ⟨true, t, frames, [skb]⟩ := by
  unfold ieee80211StaManageReorderBuf
  rw [if_pos ((seqLess_iff _ _).mpr h)]

/-- **`ieee80211_sta_manage_reorder_buf`** moves the window just far enough to hold a frame that is
`e` positions ahead of the head, and goes on with the frame. -/
theorem manage_eq (tmo : ReorderTimeout) (now : BitVec w) (h : Refines t W)
    (hs : Sized t.bufSize t.ssn) {skb : SkBuff} {e : ℕ}
    (he : seqSub (mpduSeqNum skb) t.headSeqNum = e) (hle : e ≤ 0x800) :
    ∃ r, (r = (t, frames) ∨ r = ieee80211ReleaseReorderFrames t
        (seqInc (seqSub (mpduSeqNum skb) t.bufSize)) frames) ∧
      Moves t W frames (e + 1 - t.bufSize) r ∧
      ieee80211StaManageReorderBuf tmo now t skb frames = storeOrPass tmo now r.1 skb r.2 := by
  have hN := hs.two_le
  have hN' := hs.le
  have hseq : mpduSeqNum skb = (t.ssn + (W.head + e)) % 0x1000 :=
    eq_of_seqSub (mpduSeqNum_lt skb) (by rw [← h.head, he])
  have hhead := h.head
  unfold ieee80211StaManageReorderBuf
  rw [if_neg (by rw [seqLess_iff]; omega)]
  by_cases hlt : e < t.bufSize
  · have hwin : seqLess (mpduSeqNum skb) ((t.headSeqNum + t.bufSize) % 0x10000) := by
      rw [seqLess_iff]
      unfold seqSub
      omega
    have h0 : e + 1 - t.bufSize = 0 := by omega
    rw [if_neg (not_not.mpr hwin), h0]
    exact ⟨(t, frames), Or.inl rfl, h.moves frames, rfl⟩
  · have hbeyond : ¬ seqLess (mpduSeqNum skb) ((t.headSeqNum + t.bufSize) % 0x10000) := by
      rw [seqLess_iff]
      unfold seqSub
      omega
    have hto : seqInc (seqSub (mpduSeqNum skb) t.bufSize) =
        (t.ssn + (W.head + (e + 1 - t.bufSize))) % 0x1000 := by
      rw [hseq]
      unfold seqInc seqSub
      omega
    have hm := moves_releaseFrames frames h hs (show e + 1 - t.bufSize < 0x800 by omega)
    rw [← hto] at hm
    rw [if_pos hbeyond]
    exact ⟨_, Or.inr rfl, hm, rfl⟩

/-- **`ieee80211_sta_manage_reorder_buf`** on a frame that is no EAPOL frame: the frame is stored in
the moved window. -/
theorem stored_manage (tmo : ReorderTimeout) (now : BitVec w) (h : Refines t W)
    (hs : Sized t.bufSize t.ssn) {skb : SkBuff} (hE : ¬ isEapol skb) {e : ℕ}
    (he : seqSub (mpduSeqNum skb) t.headSeqNum = e) (hle : e ≤ 0x800) :
    Stored t (W.advance (e + 1 - t.bufSize))
      (frames ++ (W.front (e + 1 - t.bufSize)).map Prod.snd) (W.head + e) skb
      (ieee80211StaManageReorderBuf tmo now t skb frames) := by
  have hN := hs.two_le
  have hN' := hs.le
  have hseq : mpduSeqNum skb = (t.ssn + (W.head + e)) % 0x1000 :=
    eq_of_seqSub (mpduSeqNum_lt skb) (by rw [← h.head, he])
  obtain ⟨r, -, hm, hr⟩ := manage_eq frames tmo now h hs he hle
  have hst := stored_storeOrPass r.2 tmo now hm.refines (hm.sized hs) (fun hc => hE hc.1)
    (show (W.advance (e + 1 - t.bufSize)).head ≤ W.head + e by rw [Window.advance_head]; omega)
    (by rw [Window.advance_head, hm.size]; omega) (by rw [hm.ssn, hseq])
  rw [hr, ← hm.out]
  exact hst.congr hm.ssn hm.size

end Atbm6441.Rx.Reorder
