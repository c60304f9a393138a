import Atbm6441.Wsm.MultiRx.Model

/-!
# Which aggregated messages are unpacked safely

`Safe` says that unpacking stays inside the message and the statistics and reaches no `BUG_ON`.
The frames of a message start at the offsets that the length fields give (`frameOff`);
`WellCounted` says that `RxFrameNum` and the length fields agree with the message.
`safe_iff` : unpacking is safe for the well counted messages and for no others.
-/

namespace Atbm6441.Wsm.MultiRx

variable (b : RxBuf) (wsmHandleRx : ℕ → ℤ)

/-- Unpacking reads only bytes of the message, counts in one of the 17 entries of `rxMutiCnt`, and
reaches no `BUG_ON`. -/
structure Safe (len : ℕ) (u : Unpack) : Prop where
  reads : ∀ r ∈ u.reads, r.1 + r.2 ≤ len
  stat : ∀ i ∈ u.stat, i < 17
  noBug : u.bug = false

/-! ### Where the frames are -/

/-- The offset of a frame: the frames before it occupy their slots. -/
def frameOff : ℕ → ℕ
  | 0 => 8
  | i + 1 => frameOff i + b.slotLen (frameOff i)

/-- The length of a frame. -/
def frameLen (i : ℕ) : ℕ := b.wsmLen (frameOff b i)

/-- The length of a frame is more than the message's own length leaves, compared as `u32`. -/
def Short (i : ℕ) : Prop := u32 ((b.wsmLen 0 : ℤ) - frameOff b i) < frameLen b i

instance (i : ℕ) : Decidable (Short b i) := inferInstanceAs (Decidable (_ < _))

/-- A frame lies in the message, by both lengths. -/
def FrameFits (i : ℕ) : Prop := frameOff b i + frameLen b i ≤ b.len ∧ ¬ Short b i

/-- A frame that was handled without an error is followed by more than 32 bytes. -/
def GoesOn (i : ℕ) : Prop :=
  wsmHandleRx i = 0 ∧ frameOff b (i + 1) + 4 ≤ b.len ∧ frameOff b (i + 1) + 32 < b.wsmLen 0

/-- Frame `k` is the last: it is handled with an error, or it is the last of those counted and is
followed by at least 4 bytes. -/
def EndsAt (count k : ℕ) : Prop :=
  wsmHandleRx k ≠ 0 ∨ (k + 1 = count ∧ frameOff b (k + 1) + 4 ≤ b.len)

/-- **A well counted message**: no frame is counted and the first does not fit, or the counted
frames, up to one that is handled with an error, fit. -/
structure WellCounted : Prop where
  length : b.wsmLen 0 ≤ 0x4000
  header : 12 ≤ b.len
  frames : (b.rxFrameNum = 0 ∧ Short b 0) ∨
    ∃ k, (k = 0 ∨ k < b.rxFrameNum) ∧ (∀ i ≤ k, FrameFits b i) ∧
      (∀ i < k, GoesOn b wsmHandleRx i) ∧ EndsAt b wsmHandleRx b.rxFrameNum k

/-! ### The loop -/

/-- The frames from the `i`-th on are well counted when `n` are still to come. -/
def CountedFrom (n i : ℕ) : Prop :=
  (n = 0 ∧ Short b i) ∨
    ∃ k, i ≤ k ∧ (k = i ∨ k < i + n) ∧ (∀ j, i ≤ j → j ≤ k → FrameFits b j) ∧
      (∀ j, i ≤ j → j < k → GoesOn b wsmHandleRx j) ∧ EndsAt b wsmHandleRx (i + n) k

theorem countedFrom_zero : CountedFrom b wsmHandleRx b.rxFrameNum 0 ↔
    (b.rxFrameNum = 0 ∧ Short b 0) ∨
    ∃ k, (k = 0 ∨ k < b.rxFrameNum) ∧ (∀ i ≤ k, FrameFits b i) ∧
      (∀ i < k, GoesOn b wsmHandleRx i) ∧ EndsAt b wsmHandleRx b.rxFrameNum k := by
  simp [CountedFrom]

variable {b wsmHandleRx}

theorem countedFrom_short {n i : ℕ} (h : Short b i) :
    CountedFrom b wsmHandleRx n i ↔ n = 0 := by
  constructor
  · rintro (⟨hn, -⟩ | ⟨k, hik, -, hfit, -⟩)
    · exact hn
    · exact absurd h (hfit i (Nat.le_refl _) hik).2
  · exact fun hn => Or.inl ⟨hn, h⟩

theorem countedFrom_last {n i : ℕ} (h : ¬ Short b i)
    (hlast : ¬ (1 < n ∧ GoesOn b wsmHandleRx i)) : CountedFrom b wsmHandleRx n i ↔
      frameOff b i + frameLen b i ≤ b.len ∧ EndsAt b wsmHandleRx (i + n) i := by
  constructor
  · rintro (⟨-, hs⟩ | ⟨k, hik, hkn, hfit, hgo, hend⟩)
    · exact absurd hs h
    · rcases Nat.eq_or_lt_of_le hik with rfl | hlt
      · exact ⟨(hfit i (Nat.le_refl _) (Nat.le_refl _)).1, hend⟩
      · exact absurd ⟨by omega, hgo i (Nat.le_refl _) hlt⟩ hlast
  · rintro ⟨hfit, hend⟩
    refine Or.inr ⟨i, (Nat.le_refl _), Or.inl rfl, fun j hj hj' => ?_, fun j hj hj' => ?_, hend⟩
    · obtain rfl : j = i := by omega
      exact ⟨hfit, h⟩
    · omega

theorem countedFrom_next {n i : ℕ} (h : ¬ Short b i) (hn : 0 < n)
    (hgo : GoesOn b wsmHandleRx i) : CountedFrom b wsmHandleRx (n + 1) i ↔
      frameOff b i + frameLen b i ≤ b.len ∧ CountedFrom b wsmHandleRx n (i + 1) := by
  constructor
  · rintro (⟨-, hs⟩ | ⟨k, hik, hkn, hfit, hgos, hend⟩)
    · exact absurd hs h
    · have hlt : i < k := by
        rcases Nat.eq_or_lt_of_le hik with rfl | hlt
        · rcases hend with hend | hend
          · exact absurd hgo.1 hend
          · omega
        · exact hlt
      refine ⟨(hfit i (Nat.le_refl _) hik).1, Or.inr ⟨k, hlt, by omega, fun j hj hj' => ?_,
        fun j hj hj' => ?_, ?_⟩⟩
      · exact hfit j (by omega) hj'
      · exact hgos j (by omega) hj'
      · rwa [show i + 1 + n = i + (n + 1) by omega]
  · rintro ⟨hfit, (⟨h0, -⟩ | ⟨k, hik, hkn, hfits, hgos, hend⟩)⟩
    · omega
    · refine Or.inr ⟨k, by omega, by omega, fun j hj hj' => ?_, fun j hj hj' => ?_, ?_⟩
      · rcases Nat.eq_or_lt_of_le hj with rfl | hlt
        · exact ⟨hfit, h⟩
        · exact hfits j hlt hj'
      · rcases Nat.eq_or_lt_of_le hj with rfl | hlt
        · exact hgo
        · exact hgos j hlt hj'
      · rwa [show i + (n + 1) = i + 1 + n by omega]

theorem Safe.bugOn {len : ℕ} {u : Unpack} {c : Bool} (hu : u.bug = false) :
    Safe len (u.bugOn c) ↔ Safe len u ∧ c = false :=
  ⟨fun h => ⟨⟨h.reads, h.stat, hu⟩, h.noBug⟩, fun ⟨h, hx⟩ => ⟨h.reads, h.stat, hx⟩⟩

theorem Safe.exit {len : ℕ} {u : Unpack} {ret : ℤ} : Safe len (u.exit ret) ↔ Safe len u :=
  ⟨fun h => ⟨h.reads, h.stat, h.noBug⟩, fun h => ⟨h.reads, h.stat, h.noBug⟩⟩

theorem Safe.read {len : ℕ} {u v : Unpack} {r : ℕ × ℕ} (hreads : v.reads = u.reads ++ [r])
    (hstat : v.stat = u.stat) (hbug : v.bug = u.bug) :
    Safe len v ↔ Safe len u ∧ r.1 + r.2 ≤ len := by
  have hall : (∀ x ∈ v.reads, x.1 + x.2 ≤ len) ↔
      (∀ x ∈ u.reads, x.1 + x.2 ≤ len) ∧ r.1 + r.2 ≤ len := by
    rw [hreads, List.forall_mem_append, List.forall_mem_singleton]
  constructor
  · intro h
    obtain ⟨hold, hlast⟩ := hall.mp h.reads
    exact ⟨⟨hold, hstat ▸ h.stat, hbug ▸ h.noBug⟩, hlast⟩
  · rintro ⟨h, hlast⟩
    exact ⟨hall.mpr ⟨h.reads, hlast⟩, hstat.symm ▸ h.stat, hbug.symm ▸ h.noBug⟩

theorem Safe.readHdr {u : Unpack} {off : ℕ} :
    Safe b.len (u.readHdr off) ↔ Safe b.len u ∧ off + 4 ≤ b.len :=
  Safe.read (u := u) (v := u.readHdr off) (r := (off, 4)) rfl rfl rfl

theorem Safe.handle {u : Unpack} {off : ℕ} :
    Safe b.len (u.handle b off) ↔ Safe b.len u ∧ off + b.wsmLen off ≤ b.len :=
  Safe.read (u := u) (v := u.handle b off) (r := (off, b.wsmLen off)) rfl rfl rfl

/-- What a frame that is handled without an error reads: itself and the header behind it. -/
theorem safe_frame {u : Unpack} {i : ℕ} :
    Safe b.len ((u.handle b (frameOff b i)).readHdr (frameOff b (i + 1))) ↔
      Safe b.len u ∧ frameOff b i + frameLen b i ≤ b.len ∧ frameOff b (i + 1) + 4 ≤ b.len := by
  rw [Safe.readHdr, Safe.handle, and_assoc]
  rfl

/-- **The loop**: from frame `i` on it is safe exactly when what was done before is, and the frames
that are left are well counted. -/
theorem safe_unpackLoop (n : ℕ) : ∀ (i : ℕ) (u : Unpack), u.calls.length = i → u.bug = false →
    (Safe b.len (unpackLoop b wsmHandleRx n (frameOff b i) ((b.wsmLen 0 : ℤ) - frameOff b i) u) ↔
      Safe b.len u ∧ CountedFrom b wsmHandleRx n i) := by
  induction n with
  | zero =>
    rintro i u rfl hu
    by_cases hshort : Short b u.calls.length
    · rw [unpackLoop_short hshort, Safe.bugOn hu, countedFrom_short hshort, decide_eq_false_iff_not,
        not_not]
    · rw [countedFrom_last hshort (by omega)]
      by_cases herr : wsmHandleRx u.calls.length = 0
      · rw [unpackLoop_uncounted hshort herr]
        constructor
        · intro h
          cases h.noBug
        · rintro ⟨-, -, hend | hend⟩
          · exact absurd herr hend
          · omega
      · rw [unpackLoop_error hshort herr, Safe.exit, Safe.handle]
        exact and_congr_right fun _ => ⟨fun h => ⟨h, Or.inl herr⟩, And.left⟩
  | succ n ih =>
    rintro i u rfl hu
    have hoff : frameOff b u.calls.length + b.slotLen (frameOff b u.calls.length) =
        frameOff b (u.calls.length + 1) := rfl
    have hleft : (b.wsmLen 0 : ℤ) - frameOff b u.calls.length -
        b.slotLen (frameOff b u.calls.length) =
        (b.wsmLen 0 : ℤ) - frameOff b (u.calls.length + 1) := by
      rw [← hoff]
      omega
    have hbug : ((u.handle b (frameOff b u.calls.length)).readHdr
        (frameOff b (u.calls.length + 1))).bug = false := hu
    have hlen : ((u.handle b (frameOff b u.calls.length)).readHdr
        (frameOff b (u.calls.length + 1))).calls.length = u.calls.length + 1 :=
      List.length_append
    by_cases hshort : Short b u.calls.length
    · rw [unpackLoop_short hshort, Safe.bugOn hu, countedFrom_short hshort, decide_eq_false_iff_not,
        not_not]
    · by_cases herr : wsmHandleRx u.calls.length = 0
      · by_cases hmore : 0 < n ∧ 32 < (b.wsmLen 0 : ℤ) - frameOff b u.calls.length -
            b.slotLen (frameOff b u.calls.length)
        · -- the loop goes on: the header behind the frame must lie in the message
          rw [unpackLoop_more hshort herr hmore, hoff, hleft, ih _ _ hlen hbug, safe_frame]
          rw [hleft] at hmore
          by_cases hhdr : frameOff b (u.calls.length + 1) + 4 ≤ b.len
          · rw [countedFrom_next hshort hmore.1 ⟨herr, hhdr, by omega⟩]
            tauto
          · rw [countedFrom_last hshort fun hgo => hhdr hgo.2.2.1]
            constructor
            · exact fun h => absurd h.1.2.2 hhdr
            · rintro ⟨-, -, hend | hend⟩
              · exact absurd herr hend
              · exact absurd hend.2 hhdr
        · rw [unpackLoop_exit hshort herr hmore, hoff, Safe.bugOn hbug, safe_frame,
            decide_eq_false_iff_not, not_not, countedFrom_last hshort fun hgo => hmore ⟨by omega, by
              have := hgo.2.2.2
              omega⟩]
          constructor
          · rintro ⟨⟨hsafe, hfit, hhdr⟩, rfl⟩
            exact ⟨hsafe, hfit, Or.inr ⟨rfl, hhdr⟩⟩
          · rintro ⟨hsafe, hfit, hend | ⟨hn, hhdr⟩⟩
            · exact absurd herr hend
            · exact ⟨⟨hsafe, hfit, hhdr⟩, by omega⟩
      · rw [unpackLoop_error hshort herr, Safe.exit, Safe.handle,
          countedFrom_last hshort fun hgo => herr hgo.2.1]
        exact and_congr_right fun _ => ⟨fun h => ⟨h, Or.inl herr⟩, And.left⟩

/-! ### The function -/

theorem stat_lt_iff (n : ℕ) : align n 1024 / 1024 < 17 ↔ n ≤ 0x4000 := by
  unfold align
  omega

theorem safe_start (len n : ℕ) :
    Safe len ⟨[(0, 4), (4, 1), (8, 4)], some (align n 1024 / 1024), [], false, 0⟩ ↔
      12 ≤ len ∧ n ≤ 0x4000 := by
  rw [← stat_lt_iff]
  constructor
  · exact fun h => ⟨h.reads (8, 4) (by simp), h.stat _ rfl⟩
  · rintro ⟨hlen, hstat⟩
    refine ⟨fun r hr => ?_, fun i hi => Option.some.inj hi ▸ hstat, rfl⟩
    simp only [List.mem_cons, List.not_mem_nil, or_false] at hr
    rcases hr with rfl | rfl | rfl <;> simp only <;> omega

/-- **Which aggregated messages are unpacked safely**: exactly the well counted ones. -/
theorem safe_iff (h : b.wsmId 0 = 0x0811 ∨ b.wsmId 0 = 0x0813) (id : ℕ) :
    Safe b.len (atbmRxTasklet b id wsmHandleRx) ↔ WellCounted b wsmHandleRx := by
  have hloop := @safe_unpackLoop b wsmHandleRx b.rxFrameNum 0
    ⟨[(0, 4), (4, 1), (8, 4)], some (align (b.wsmLen 0) 1024 / 1024), [], false, 0⟩ rfl rfl
  rw [safe_start, countedFrom_zero] at hloop
  rw [atbmRxTasklet, if_pos h]
  exact hloop.trans ⟨fun ⟨⟨h1, h2⟩, h3⟩ => ⟨h2, h1, h3⟩, fun h => ⟨⟨h.header, h.length⟩, h.frames⟩⟩

/-- A message given by its first bytes; the others are zero. -/
def ofBytes (l : List UInt8) (len : ℕ) : RxBuf := ⟨fun i => l.getD i 0, len⟩

/-- A message of 52 bytes with one frame of 4 bytes, in a buffer of 56. -/
def oneFrame (count : UInt8) : RxBuf :=
  ofBytes [52, 0, 0x11, 0x08, count, 0, 0, 0, 4, 0, 0x04, 0x08] 56

/-- A message of 96 bytes with two frames of 4 bytes, in a buffer of 100. -/
def twoFrames : RxBuf :=
  ofBytes ([96, 0, 0x11, 0x08, 2, 0, 0, 0, 4, 0, 0x04, 0x08] ++ List.replicate 40 0 ++
    [4, 0, 0x05, 0x08]) 100

/-- The frames are handled without an error, and 4 bytes follow their slots. -/
theorem safe_iff_twoFrames : Safe 100 (atbmRxTasklet twoFrames 0x0811 fun _ => 0) := by
  have hcounted : WellCounted twoFrames fun _ => 0 := by
    refine ⟨by decide, by decide, .inr ⟨1, .inr (by decide), fun i hi => ?_, fun i hi => ?_,
      .inr ⟨by decide, by decide⟩⟩⟩
    · rcases Nat.le_one_iff_eq_zero_or_eq_one.mp hi with rfl | rfl <;>
        exact ⟨by decide, by decide⟩
    · obtain rfl : i = 0 := by omega
      exact ⟨rfl, by decide, by decide⟩
  exact (safe_iff (b := twoFrames) (.inl (by decide)) 0x0811).mpr hcounted

/-- **A message that counts one frame more than it has** reaches the `BUG_ON`; one whose frames fill
it is read behind its end; one with a large length is counted behind the end of `rxMutiCnt`. -/
theorem not_safe_overCounted :
    (atbmRxTasklet (oneFrame 2) 0x0811 fun _ => 0).bug = true ∧
      ¬ Safe 56 (atbmRxTasklet (oneFrame 2) 0x0811 fun _ => 0) ∧
      ¬ Safe 52 (atbmRxTasklet { oneFrame 1 with len := 52 } 0x0811 fun _ => 0) ∧
      ¬ Safe 0x7000 (atbmRxTasklet (ofBytes [0, 0x70, 0x11, 0x08, 1] 0x7000) 0x0811 fun _ => 0) := by
  refine ⟨by decide, fun h => ?_, fun h => ?_, fun h => ?_⟩
  · have := h.noBug
    revert this
    decide
  · have := h.reads (52, 4) (by decide)
    omega
  · have := h.stat 28 (by decide)
    omega

end Atbm6441.Wsm.MultiRx
