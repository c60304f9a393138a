import Atbm6441.Sdio.TxBh.Model
import Atbm6441.Wsm.Buf.Reserve

/-!
# Where messages are in the transfer buffer

The loop stops when the longest message would not fit any more, and goes on by whole blocks.
`loop_laid` : no message goes beyond the transfer buffer, and the messages are in blocks of their
own, in the order in which they were got.
-/

namespace Atbm6441.Sdio.TxBh

open Atbm6441.Lib Atbm6441.Wsm

/-- **The messages are laid out**: inside of the transfer buffer, in blocks of their own, one behind
the other, with their bytes there. -/
structure Laid (s : Bh) : Prop where
  buff : s.xmitBuff.length = sdioTxMaxlen
  put_le : s.xmitBuffPut ≤ sdioTxMaxlen
  put_aligned : s.xmitBuffPut % Buf.sdioBlockSize = 0
  aligned : ∀ p ∈ s.packed, p.off % Buf.sdioBlockSize = 0 ∧ p.len % Buf.sdioBlockSize = 0
  le_len : ∀ p ∈ s.packed, p.bytes.length ≤ p.len
  inside : ∀ p ∈ s.packed, p.off + p.len ≤ s.xmitBuffPut
  disjoint : s.packed.Pairwise fun p q => p.off + p.len ≤ q.off
  contents : ∀ p ∈ s.packed, (s.xmitBuff.drop p.off).take p.bytes.length = p.bytes

/-- The next message fits. -/
def Bh.Room (s : Bh) (sizeInpChBuf : ℕ) : Prop :=
  s.xmitBuffPut = 0 ∨ s.xmitBuffPut + sizeInpChBuf ≤ sdioTxMaxlen

/-! ### Copies -/

theorem memcpy_before (m bs : List UInt8) {i off n : ℕ} (hi : i ≤ m.length) (h : off + n ≤ i) :
    ((Buf.memcpy m i bs).drop off).take n = (m.drop off).take n := by
  rw [Buf.memcpy, List.append_assoc, List.drop_append_of_le_length, List.take_append_of_le_length,
    List.drop_take, List.take_take]
  · congr 1
    omega
  · simp
    omega
  · simp
    omega

theorem memcpy_at (m bs : List UInt8) {i : ℕ} (hi : i ≤ m.length) :
    ((Buf.memcpy m i bs).drop i).take bs.length = bs := by
  have hlen : (m.take i).length = i := List.length_take_of_le hi
  rw [Buf.memcpy, List.append_assoc, List.drop_left' hlen, List.take_left]

theorem memcpy_memcpy (m a b : List UInt8) {i : ℕ} (hi : i ≤ m.length) :
    Buf.memcpy (Buf.memcpy m i a) (i + a.length) b = Buf.memcpy m i (a ++ b) := by
  have hlen : (m.take i ++ a).length = i + a.length := by
    rw [List.length_append, List.length_take_of_le hi]
  rw [Buf.memcpy, Buf.memcpy, List.take_left' hlen, ← List.drop_drop, List.drop_left' hlen,
    List.drop_drop, Buf.memcpy, List.length_append]
  simp [Nat.add_assoc]

/-- **`atbm_xmit_linearize`** copies the pieces as one. -/
theorem xmitLinearize_eq (pieces : List (List UInt8)) (xmit : List UInt8) {pos : ℕ}
    (h : pos + pieces.flatten.length ≤ xmit.length) :
    atbmXmitLinearize xmit pos pieces = Buf.memcpy xmit pos pieces.flatten := by
  induction pieces generalizing xmit pos with
  | nil => simp [atbmXmitLinearize, Buf.memcpy]
  | cons piece pieces ih =>
    rw [List.flatten_cons, List.length_append] at h
    have hlen : (Buf.memcpy xmit pos piece).length = xmit.length :=
      Buf.length_memcpy xmit piece (by omega)
    rw [atbmXmitLinearize, ih _ (by omega), memcpy_memcpy _ _ _ (by omega), List.flatten_cons]

theorem length_hdr (m : Msg) (seq : ℕ) : (m.hdr seq).length = Buf.hdrTxLen := by
  simp [Msg.hdr, Buf.hdrTxLen]

theorem length_bytes_le (m : Msg) (seq : ℕ) : (m.bytes seq).length ≤ m.len.toNat := by
  have hhdr := length_hdr m seq
  have hle := m.hdr_le
  unfold Msg.bytes Msg.pieces
  rcases m.body with data | ⟨head, frags, hfrags⟩
  · simp [hhdr, slice]
    omega
  · simp only [List.flatten_cons, List.length_append, hhdr]
    exact hfrags

/-! ### Lengths -/

theorem alignedLen_eq {n : ℕ} (hn : 0 < n) : alignedLen n = (n + 255) / 256 * 256 := by
  unfold alignedLen Buf.sdioBlockSize
  dsimp only
  split_ifs <;> omega

/-- **A message that fits fits with the rest of its last block**: blocks divide the buffer. -/
theorem alignedLen_fits {put n : ℕ} (hput : put % Buf.sdioBlockSize = 0) (hn : 0 < n)
    (hfit : put + n ≤ sdioTxMaxlen) :
    put + alignedLen n ≤ sdioTxMaxlen ∧ alignedLen n % Buf.sdioBlockSize = 0 ∧
      n ≤ alignedLen n := by
  rw [alignedLen_eq hn]
  unfold Buf.sdioBlockSize sdioTxMaxlen at *
  omega

/-! ### Rounds -/

variable {s : Bh} {sizeInpChBuf : ℕ} {m : Msg}

theorem Laid.congr {t : Bh} (h : Laid s) (hbuff : t.xmitBuff = s.xmitBuff)
    (hput : t.xmitBuffPut = s.xmitBuffPut) (hpacked : t.packed = s.packed) : Laid t := by
  refine ⟨?_, ?_, ?_, ?_, ?_, ?_, ?_, ?_⟩
  · rw [hbuff]
    exact h.buff
  · rw [hput]
    exact h.put_le
  · rw [hput]
    exact h.put_aligned
  · rw [hpacked]
    exact h.aligned
  · rw [hpacked]
    exact h.le_len
  · rw [hpacked, hput]
    exact h.inside
  · rw [hpacked]
    exact h.disjoint
  · rw [hpacked, hbuff]
    exact h.contents

/-- **A message that fits is laid out** behind the others. -/
theorem Laid.copied (h : Laid s) (hfit : s.xmitBuffPut + m.len.toNat ≤ sdioTxMaxlen) :
    Laid (s.copied m) := by
  have hhdr : 8 ≤ m.len.toNat := m.hdr_le
  obtain ⟨hle, hmod, hlen⟩ := alignedLen_fits h.put_aligned (by omega) hfit
  have hbytes := length_bytes_le m s.wsmTxSeq
  have hbuff := h.buff
  have hput := h.put_aligned
  have hcpy : (s.copied m).xmitBuff =
      Buf.memcpy s.xmitBuff s.xmitBuffPut (m.bytes s.wsmTxSeq) :=
    xmitLinearize_eq (m.pieces s.wsmTxSeq) s.xmitBuff
      (show s.xmitBuffPut + (m.bytes s.wsmTxSeq).length ≤ _ by omega)
  have hmem : ∀ p ∈ (s.copied m).packed, p ∈ s.packed ∨
      p = ⟨m, s.xmitBuffPut, m.bytes s.wsmTxSeq, alignedLen m.len.toNat⟩ := by
    intro p hp
    rcases List.mem_append.mp hp with hp | hp
    · exact Or.inl hp
    · exact Or.inr (List.mem_singleton.mp hp)
  refine ⟨?_, hle, ?_, ?_, ?_, ?_, ?_, ?_⟩
  · rw [hcpy, Buf.length_memcpy _ _ (by omega)]
    exact hbuff
  · show (s.xmitBuffPut + alignedLen m.len.toNat) % Buf.sdioBlockSize = 0
    rw [Nat.add_mod, hput, hmod]
    rfl
  · intro p hp
    rcases hmem p hp with hp | rfl
    · exact h.aligned p hp
    · exact ⟨hput, hmod⟩
  · intro p hp
    rcases hmem p hp with hp | rfl
    · exact h.le_len p hp
    · exact Nat.le_trans hbytes hlen
  · intro p hp
    show p.off + p.len ≤ s.xmitBuffPut + alignedLen m.len.toNat
    rcases hmem p hp with hp | rfl
    · exact Nat.le_trans (h.inside p hp) (Nat.le_add_right _ _)
    · exact Nat.le_refl _
  · refine List.pairwise_append.mpr ⟨h.disjoint, List.pairwise_singleton _ _, fun p hp q hq => ?_⟩
    rw [List.mem_singleton.mp hq]
    exact h.inside p hp
  · intro p hp
    rw [hcpy]
    rcases hmem p hp with hp | rfl
    · have hinside := h.inside p hp
      have hplen := h.le_len p hp
      rw [memcpy_before _ _ (by omega) (by omega)]
      exact h.contents p hp
    · exact memcpy_at _ _ (hbuff ▸ h.put_le)

theorem Laid.pack (h : Laid s) (hfit : s.xmitBuffPut + m.len.toNat ≤ sdioTxMaxlen) :
    Laid (s.pack sizeInpChBuf m).2 ∧
      ((s.pack sizeInpChBuf m).1 = none → (s.pack sizeInpChBuf m).2.Room sizeInpChBuf) := by
  have hcopied : Laid (s.copied m) := h.copied hfit
  unfold Bh.pack
  dsimp only
  split_ifs with hcount htxed hfull
  · exact ⟨h.congr rfl rfl rfl, nofun⟩
  · exact ⟨hcopied.congr rfl rfl rfl, nofun⟩
  · exact ⟨hcopied.congr rfl rfl rfl, nofun⟩
  · exact ⟨hcopied.congr rfl rfl rfl, fun _ => Or.inr (Nat.le_of_not_lt hfull)⟩

theorem Laid.round {r : Round} (h : Laid s) (hroom : s.Room sizeInpChBuf)
    (hsize : sizeInpChBuf ≤ sdioTxMaxlen)
    (hlen : ∀ m, r.msg = some m → m.len.toNat ≤ sizeInpChBuf) :
    Laid (s.round sizeInpChBuf r).2 ∧
      ((s.round sizeInpChBuf r).1 = none → (s.round sizeInpChBuf r).2.Room sizeInpChBuf) := by
  have hchecked : Laid (s.checked r.hwXmits) := h.congr rfl rfl rfl
  rcases r with ⟨hwXmits, _ | m⟩
  · unfold Bh.round
    dsimp only
    split_ifs <;> exact ⟨hchecked, nofun⟩
  have hm := hlen m rfl
  have hfit : (s.checked hwXmits).xmitBuffPut + m.len.toNat ≤ sdioTxMaxlen := by
    show s.xmitBuffPut + m.len.toNat ≤ sdioTxMaxlen
    rcases hroom with hput | hput
    · omega
    · omega
  unfold Bh.round
  dsimp only
  split_ifs
  · exact ⟨hchecked, nofun⟩
  · exact hchecked.pack hfit
  · exact ⟨hchecked, nofun⟩

theorem pack_packed (s : Bh) (sizeInpChBuf : ℕ) (m : Msg) :
    (s.pack sizeInpChBuf m).2.packed.map Packed.msg <+: s.packed.map Packed.msg ++ [m] ∧
      ((s.pack sizeInpChBuf m).1 = none →
        (s.pack sizeInpChBuf m).2.packed.map Packed.msg = s.packed.map Packed.msg ++ [m]) := by
  unfold Bh.pack
  dsimp only
  split_ifs with hcount htxed hfull
  · exact ⟨List.prefix_append _ _, nofun⟩
  all_goals simp [Bh.copied]

theorem round_packed (s : Bh) (sizeInpChBuf : ℕ) (r : Round) :
    (s.round sizeInpChBuf r).2.packed.map Packed.msg <+:
        s.packed.map Packed.msg ++ r.msg.toList ∧
      ((s.round sizeInpChBuf r).1 = none →
        (s.round sizeInpChBuf r).2.packed.map Packed.msg =
          s.packed.map Packed.msg ++ r.msg.toList) := by
  rcases r with ⟨hwXmits, _ | m⟩
  · unfold Bh.round
    dsimp only
    split_ifs <;> exact ⟨List.prefix_append _ _, nofun⟩
  unfold Bh.round
  dsimp only
  split_ifs
  · exact ⟨List.prefix_append _ _, nofun⟩
  · exact pack_packed (s.checked hwXmits) sizeInpChBuf m
  · exact ⟨List.prefix_append _ _, nofun⟩

/-! ### The loop -/

/-- The messages of a list of rounds, in the order in which `wsm_get_tx` returns them. -/
def got (rs : List Round) : List Msg := rs.flatMap fun r => r.msg.toList

theorem Laid.loop {rs : List Round} (h : Laid s) (hroom : s.Room sizeInpChBuf)
    (hsize : sizeInpChBuf ≤ sdioTxMaxlen)
    (hlen : ∀ r ∈ rs, ∀ m, r.msg = some m → m.len.toNat ≤ sizeInpChBuf) :
    Laid (s.loop sizeInpChBuf rs).2 := by
  induction rs generalizing s with
  | nil => exact h
  | cons r rs ih =>
    obtain ⟨hlaid, hnext⟩ := h.round hroom hsize (hlen r List.mem_cons_self)
    unfold Bh.loop
    rcases hround : s.round sizeInpChBuf r with ⟨_ | stop, t⟩
    · rw [hround] at hlaid hnext
      exact ih hlaid (hnext rfl) fun r hr => hlen r (List.mem_cons_of_mem _ hr)
    · rw [hround] at hlaid
      exact hlaid

theorem loop_packed (s : Bh) (sizeInpChBuf : ℕ) (rs : List Round) :
    (s.loop sizeInpChBuf rs).2.packed.map Packed.msg <+: s.packed.map Packed.msg ++ got rs := by
  induction rs generalizing s with
  | nil => exact List.prefix_append _ _
  | cons r rs ih =>
    obtain ⟨hstop, hnext⟩ := round_packed s sizeInpChBuf r
    have hgot : got (r :: rs) = r.msg.toList ++ got rs := List.flatMap_cons
    rw [hgot, ← List.append_assoc]
    unfold Bh.loop
    rcases hround : s.round sizeInpChBuf r with ⟨_ | stop, t⟩
    · rw [hround] at hnext
      rw [← hnext rfl]
      exact ih t
    · rw [hround] at hstop
      exact hstop.trans (List.prefix_append _ _)

theorem laid_xmitContinue (hbuff : s.xmitBuff.length = sdioTxMaxlen) : Laid s.xmitContinue where
  buff := hbuff
  put_le := Nat.zero_le _
  put_aligned := rfl
  aligned := nofun
  le_len := nofun
  inside := nofun
  disjoint := List.Pairwise.nil
  contents := nofun

/-- **No message goes beyond the transfer buffer**, whatever the credits are: the loop packs the
messages that it gets, in their order, each at whole blocks of its own. -/
theorem loop_laid (s : Bh) (hbuff : s.xmitBuff.length = sdioTxMaxlen) (sizeInpChBuf : ℕ)
    (hsize : 16 ≤ sizeInpChBuf ∧ sizeInpChBuf ≤ 32768) (rs : List Round)
    (hlen : ∀ r ∈ rs, ∀ m, r.msg = some m → m.len.toNat ≤ sizeInpChBuf) :
    Laid (s.xmitContinue.loop sizeInpChBuf rs).2 ∧
      (∀ p ∈ (s.xmitContinue.loop sizeInpChBuf rs).2.packed,
        p.off + p.bytes.length ≤ sdioTxMaxlen) ∧
      (s.xmitContinue.loop sizeInpChBuf rs).2.packed.map Packed.msg <+: got rs := by
  have hlaid : Laid (s.xmitContinue.loop sizeInpChBuf rs).2 :=
    (laid_xmitContinue hbuff).loop (Or.inl rfl) hsize.2 hlen
  refine ⟨hlaid, fun p hp => ?_, loop_packed _ _ _⟩
  have hbytes := hlaid.le_len p hp
  have hinside := hlaid.inside p hp
  have hput := hlaid.put_le
  omega

/-- The bottom half with a new transfer buffer and `free` credits. -/
def start (free : BitVec 16) : Bh where
  hw := Credit.wsmStartupIndication free
  hwBufsUsed := 0
  wsmTxSeq := 0
  bufIdTx := 0
  xmitBuff := List.replicate sdioTxMaxlen 0
  xmitBuffPut := 0
  frames := 0
  needConfirm := false
  packed := []

/-- A frame of `8 + n` bytes. -/
def frame (n : BitVec 16) (h : 8 + n.toNat < 65536) : Msg where
  id := 0x0004
  len := 8 + n
  hdr_le := by
    have hlen : (8 + n).toNat = 8 + n.toNat := by
      rw [BitVec.toNat_add]
      exact Nat.mod_eq_of_lt h
    rw [hlen]
    exact Nat.le_add_right 8 _
  body := .linear fun _ => 0
  txed := false

/-- Two frames, of three blocks. -/
def twoFrames : List Round :=
  [⟨8, some (frame 300 (by decide))⟩, ⟨8, some (frame 40 (by decide))⟩]

theorem loop_laid_twoFrames :
    ((start 8).xmitContinue.loop 1632 twoFrames).2.packed.map (fun p => (p.off, p.len)) =
        [(0, 512), (512, 256)] ∧
      Laid ((start 8).xmitContinue.loop 1632 twoFrames).2 ∧
      (∀ p ∈ ((start 8).xmitContinue.loop 1632 twoFrames).2.packed,
        p.off + p.bytes.length ≤ sdioTxMaxlen) ∧
      ((start 8).xmitContinue.loop 1632 twoFrames).2.packed.map Packed.msg <+: got twoFrames := by
  refine ⟨by decide +kernel,
    loop_laid (start 8) List.length_replicate 1632 (by decide) twoFrames ?_⟩
  intro r hr m hm
  rcases List.mem_pair.mp hr with rfl | rfl
  · obtain rfl := Option.some.inj hm
    decide
  · obtain rfl := Option.some.inj hm
    decide

end Atbm6441.Sdio.TxBh
