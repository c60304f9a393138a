import Atbm6441.Sdio.TxBh.Pack

/-!
# A batch that the bus does not take

The counters go on with each message that is packed, and only `buf_id_tx` waits for the write
(`bh_spi.c` keeps the sequence number until the message is written). `write_fails` : after a batch
that was not written the counters are never as if it had not been packed.
-/

namespace Atbm6441.Sdio.TxBh

open Atbm6441.Wsm

variable {s t : Bh} {sizeInpChBuf : ℕ}

/-- **The counters of `t` are those of `s` without the batch**: a check of the credits, with
whatever `hw_xmits` is by then, leads from one to the other. -/
def RolledBack (s t : Bh) : Prop :=
  ∃ hwXmits, t.hw.nXmits = (s.checked hwXmits).hw.nXmits ∧
    t.hw.hwBufsFree = (s.checked hwXmits).hw.hwBufsFree ∧
    t.wsmTxSeq = (s.checked hwXmits).wsmTxSeq

/-- All tries of the write fail. -/
def AllFail (tries : ℕ → Bool) : Prop := ∀ i < maxRetry, tries i = false

/-! ### What the loop counts -/

/-- `t` is `s` with the frames of a batch counted, each of which takes a block at least. -/
structure Counted (s t : Bh) : Prop where
  nXmits : t.hw.nXmits = s.hw.nXmits + BitVec.ofNat 32 t.frames
  wsmTxSeq : t.frames ≠ 0 → t.wsmTxSeq = (s.wsmTxSeq + t.frames) % 8
  zero : t.frames = 0 → t.wsmTxSeq = s.wsmTxSeq
  put : Buf.sdioBlockSize * t.frames ≤ t.xmitBuffPut

theorem checked_nXmits (s : Bh) (hwXmits : BitVec 32) :
    (s.checked hwXmits).hw.nXmits = s.hw.nXmits := by
  unfold Bh.checked Credit.atbmSdioHaveEnoughSpace
  dsimp only
  split_ifs <;> rfl

theorem block_le_alignedLen (n : ℕ) : Buf.sdioBlockSize ≤ alignedLen n := by
  unfold alignedLen Buf.sdioBlockSize
  dsimp only
  split_ifs <;> omega

theorem Counted.checked (h : Counted s t) (hwXmits : BitVec 32) :
    Counted s (t.checked hwXmits) where
  nXmits := by
    rw [checked_nXmits]
    exact h.nXmits
  wsmTxSeq := h.wsmTxSeq
  zero := h.zero
  put := h.put

/-- **One more message is one more of each.** -/
theorem Counted.copied (h : Counted s t) (m : Msg) : Counted s (t.copied m) := by
  have hframes : (t.copied m).frames = t.frames + 1 := rfl
  refine ⟨?_, fun _ => ?_, fun hzero => ?_, ?_⟩
  · show t.hw.nXmits + 1 = s.hw.nXmits + BitVec.ofNat 32 (t.frames + 1)
    rw [h.nXmits, BitVec.add_assoc, BitVec.ofNat_add]
    rfl
  · show (t.wsmTxSeq + 1) &&& 7 = (s.wsmTxSeq + (t.frames + 1)) % 8
    rw [show (t.wsmTxSeq + 1) &&& 7 = (t.wsmTxSeq + 1) % 8 from
      Nat.and_two_pow_sub_one_eq_mod _ 3]
    by_cases hz : t.frames = 0
    · rw [h.zero hz, hz]
    · rw [h.wsmTxSeq hz]
      omega
  · rw [hframes] at hzero
    exact absurd hzero (Nat.succ_ne_zero _)
  · have hput := h.put
    have hblock := block_le_alignedLen m.len.toNat
    show Buf.sdioBlockSize * (t.frames + 1) ≤ t.xmitBuffPut + alignedLen m.len.toNat
    rw [Nat.mul_succ]
    omega

theorem Counted.congr {u : Bh} (h : Counted s t) (hhw : u.hw = t.hw)
    (hseq : u.wsmTxSeq = t.wsmTxSeq) (hput : u.xmitBuffPut = t.xmitBuffPut)
    (hframes : u.frames = t.frames) : Counted s u where
  nXmits := by
    rw [hhw, hframes]
    exact h.nXmits
  wsmTxSeq := by
    rw [hseq, hframes]
    exact h.wsmTxSeq
  zero := by
    rw [hseq, hframes]
    exact h.zero
  put := by
    rw [hput, hframes]
    exact h.put

theorem Counted.frames_le (h : Counted s t) (hput : t.xmitBuffPut ≤ sdioTxMaxlen) :
    t.frames ≤ 128 := by
  have hblocks := h.put
  unfold Buf.sdioBlockSize at hblocks
  unfold sdioTxMaxlen at hput
  omega

theorem Counted.pack (h : Counted s t) {m : Msg} (hput : t.xmitBuffPut ≤ sdioTxMaxlen)
    (hstop : (t.pack sizeInpChBuf m).1 ≠ some .bug) :
    Counted s (t.pack sizeInpChBuf m).2 ∧ (t.pack sizeInpChBuf m).2.frames ≤ 129 ∧
      ((t.pack sizeInpChBuf m).1 = none →
        (t.pack sizeInpChBuf m).2.xmitBuffPut ≤ sdioTxMaxlen) := by
  have hcopied : Counted s (t.copied m) := h.copied m
  have hframes : t.frames + 1 ≤ 129 := Nat.succ_le_succ (h.frames_le hput)
  unfold Bh.pack at hstop ⊢
  dsimp only at hstop ⊢
  split_ifs at hstop ⊢ with hcount htxed hfull
  · exact absurd rfl hstop
  · exact ⟨hcopied.congr rfl rfl rfl rfl, hframes, nofun⟩
  · exact ⟨hcopied.congr rfl rfl rfl rfl, hframes, nofun⟩
  · refine ⟨hcopied.congr rfl rfl rfl rfl, hframes, fun _ => ?_⟩
    have hroom := Nat.le_of_not_lt hfull
    exact Nat.le_trans (Nat.le_add_right _ _) hroom

theorem Counted.round (h : Counted s t) {r : Round} (hput : t.xmitBuffPut ≤ sdioTxMaxlen)
    (hstop : (t.round sizeInpChBuf r).1 ≠ some .bug) :
    Counted s (t.round sizeInpChBuf r).2 ∧ (t.round sizeInpChBuf r).2.frames ≤ 129 ∧
      ((t.round sizeInpChBuf r).1 = none →
        (t.round sizeInpChBuf r).2.xmitBuffPut ≤ sdioTxMaxlen) := by
  have hchecked := h.checked r.hwXmits
  have hframes : (t.checked r.hwXmits).frames ≤ 129 := Nat.le_succ_of_le (h.frames_le hput)
  rcases r with ⟨hwXmits, _ | m⟩
  · unfold Bh.round
    dsimp only
    split_ifs <;> exact ⟨hchecked, hframes, nofun⟩
  unfold Bh.round at hstop ⊢
  dsimp only at hstop ⊢
  split_ifs at hstop ⊢
  · exact ⟨hchecked, hframes, nofun⟩
  · exact hchecked.pack hput hstop
  · exact ⟨hchecked, hframes, nofun⟩

/-- **The loop has counted what it has packed**, no more than a buffer has blocks, and one. -/
theorem Counted.loop {rs : List Round} (h : Counted s t) (hput : t.xmitBuffPut ≤ sdioTxMaxlen)
    (hstop : (t.loop sizeInpChBuf rs).1 ≠ some .bug) :
    Counted s (t.loop sizeInpChBuf rs).2 ∧ (t.loop sizeInpChBuf rs).2.frames ≤ 129 := by
  induction rs generalizing t with
  | nil => exact ⟨h, Nat.le_succ_of_le (h.frames_le hput)⟩
  | cons r rs ih =>
    have hround := @Counted.round _ _ sizeInpChBuf h r hput
    unfold Bh.loop at hstop ⊢
    rcases hr : t.round sizeInpChBuf r with ⟨_ | stop, u⟩
    · rw [hr] at hround hstop
      obtain ⟨hu, -, hnext⟩ := hround (Option.some_ne_none Stop.bug).symm
      exact ih hu (hnext rfl) hstop
    · rw [hr] at hround hstop
      obtain ⟨hu, hframes, -⟩ := hround hstop
      exact ⟨hu, hframes⟩

theorem counted_xmitContinue (s : Bh) : Counted s s.xmitContinue where
  nXmits := (BitVec.add_zero _).symm
  wsmTxSeq := fun hframes => absurd rfl hframes
  zero := fun _ => rfl
  put := Nat.le_refl _

/-! ### The write -/

/-- **A write that fails keeps what was counted.** -/
theorem write_counted {tries : ℕ → Bool} (h : Counted s t) (hfail : AllFail tries) :
    (t.write tries).1 = false ∧ Counted s (t.write tries).2 ∧
      (t.write tries).2.frames = t.frames := by
  have hany : (List.range maxRetry).any tries = false :=
    List.any_eq_false.mpr fun i hi => by simp [hfail i (List.mem_range.mp hi)]
  have hwrite : t.write tries = (false, t.forceFree) := by
    unfold Bh.write Bh.dataWrite
    rw [hany]
    rfl
  have hfree : Counted s t.forceFree ∧ t.forceFree.frames = t.frames := by
    unfold Bh.forceFree
    split_ifs
    · exact ⟨h.congr rfl rfl rfl rfl, rfl⟩
    · exact ⟨h, rfl⟩
  rw [hwrite]
  exact ⟨rfl, hfree⟩

/-- **No batch that was not written is rolled back**: whatever messages, credits and events the loop
has met, when it stops with messages in the buffer and all tries of the write fail, `n_xmits` stays
ahead by the messages of the batch. -/
theorem write_fails (s : Bh) (sizeInpChBuf : ℕ) (rs : List Round) {stop : Stop}
    (hstop : (s.xmitContinue.loop sizeInpChBuf rs).1 = some stop) (hbug : stop ≠ .bug)
    (hframes : (s.xmitContinue.loop sizeInpChBuf rs).2.frames ≠ 0) {tries : ℕ → Bool}
    (hfail : AllFail tries) :
    ¬ RolledBack s ((s.xmitContinue.loop sizeInpChBuf rs).2.write tries).2 := by
  obtain ⟨hcounted, hle⟩ := (counted_xmitContinue s).loop (Nat.zero_le _)
    (fun h => hbug (Option.some.inj (hstop.symm.trans h)))
  obtain ⟨-, hwritten, hsame⟩ := write_counted hcounted hfail
  rintro ⟨hwXmits, hn, -, -⟩
  rw [checked_nXmits, hwritten.nXmits, hsame] at hn
  have hnat := congrArg BitVec.toNat hn
  rw [BitVec.toNat_add, BitVec.toNat_ofNat] at hnat
  omega

/-- Two frames, and no more. -/
def batch : List Round := twoFrames ++ [⟨8, none⟩]

theorem write_fails_batch :
    ¬ RolledBack (start 8) (((start 8).xmitContinue.loop 1632 batch).2.write fun _ => false).2 :=
  @write_fails (start 8) 1632 batch .noMsg (by decide +kernel) nofun (by decide +kernel) _
    fun _ _ => rfl

/-- The device has seen none of the two frames: it has all of its 8 buffers, and waits for the
number 0. -/
theorem batch_bug :
    ((((start 8).xmitContinue.loop 1632 batch).2.write fun _ => false).2.hw.nXmits = 2 ∧
      (((start 8).xmitContinue.loop 1632 batch).2.write fun _ => false).2.hw.hwBufsFree = 6 ∧
      (((start 8).xmitContinue.loop 1632 batch).2.write fun _ => false).2.wsmTxSeq = 2) ∧
    ¬ RolledBack (start 8) (((start 8).xmitContinue.loop 1632 batch).2.write fun _ => false).2 := by
  have hn : (((start 8).xmitContinue.loop 1632 batch).2.write fun _ => false).2.hw.nXmits = 2 := by
    decide +kernel
  refine ⟨⟨hn, by decide +kernel, by decide +kernel⟩, ?_⟩
  rintro ⟨hwXmits, hx, -, -⟩
  rw [checked_nXmits, hn] at hx
  exact absurd hx (by decide)

end Atbm6441.Sdio.TxBh
