import Atbm6441.Wsm.Buf.Reset
import Mathlib.Data.Nat.Bitwise

/-!
# How the buffer grows

`wsm_buf_reserve` means to round the size up to a multiple of `SDIO_BLOCK_SIZE`, but keeps one bit
of it, and `krealloc` of the RTOS copies nothing. `reserve_sound_iff` : in a sequence of puts,
reservations and resets every write is inside of the buffer and what was written is kept exactly when
every growth asks for a multiple of the block size or for less than two blocks, and keeps the bytes
(`Op.Fits`).

The sizes are those of data in memory and do not wrap.
-/

namespace Atbm6441.Wsm.Buf

open Atbm6441.Lib Atbm6441.Os

/-! ### Operations -/

/-- The operations, with what `krealloc` returns should it be called. -/
inductive Op
  | put (bs : List UInt8) (alloc : Alloc)
  | reserve (n : ℕ) (alloc : Alloc)
  | reset

namespace WsmBuf

/-- `buf->end - buf->begin`, none when they are `NULL`. -/
def cap (b : WsmBuf) : Option ℕ := b.mem.map List.length

/-- The bytes from `begin` to `data`. -/
def written (b : WsmBuf) : List UInt8 := (b.mem.getD []).take b.data

/-- An operation; a reset writes the first word of the header. -/
def op (b : WsmBuf) : Op → Built
  | .put bs alloc => b.put bs alloc
  | .reserve n alloc => b.reserve n alloc
  | .reset => if b.mem.isSome ∧ b.size < 4 then .overrun else .done b.reset

/-- The operations with the buffer before them and what they come to, up to the first that writes
outside of the buffer. -/
def trace (b : WsmBuf) : List Op → List (WsmBuf × Op × Built)
  | [] => []
  | o :: os =>
    (b, o, b.op o) ::
      match b.op o with
      | .done b' | .nomem b' => b'.trace os
      | .overrun => []

end WsmBuf

/-! ### The property and the condition -/

/-- What an operation keeps, and what it finds room for. -/
def Op.Keeps (b b' : WsmBuf) : Op → Prop
  | .put bs _ => b'.written = b.written ++ bs
  | .reserve n _ => b'.written = b.written ∧ b'.data + n ≤ b'.size
  | .reset => b'.size = b.size

/-- **An operation is sound**: it writes nothing outside of the buffer, `data` stays between `begin`
and `end`, and when it fails the buffer is empty. -/
def OpSound (b : WsmBuf) (o : Op) : Built → Prop
  | .done b' => b'.data ≤ b'.size ∧ o.Keeps b b'
  | .nomem b' => b'.mem = none ∧ b'.data = 0
  | .overrun => False

/-- **A growth that is rounded right.** -/
def Grows (need : ℕ) : Prop := need % sdioBlockSize = 0 ∨ need < 2 * sdioBlockSize

/-- **Memory that keeps bytes**: that of Linux, or it has them already. -/
def Block.Keeps (blk : Block) (l : List UInt8) : Prop := blk.port = .linux ∨ blk.Finds 0 l

/-- A growth by `n` bytes that gets memory is rounded right, and keeps what was written. -/
def WsmBuf.GrowsBy (b : WsmBuf) (n : ℕ) (alloc : Alloc) : Prop :=
  ∀ blk, alloc = some blk → Grows (b.data + n) ∧ blk.Keeps b.written

/-- **The condition** on an operation, for the buffer before it: a put fits or the growth is right; and
a reset finds room for the header. -/
def Op.Fits (b : WsmBuf) : Op → Prop
  | .put bs alloc => b.data + bs.length ≤ b.size ∨ b.GrowsBy bs.length alloc
  | .reserve n alloc => b.GrowsBy n alloc
  | .reset => ∀ size, b.cap = some size → hdrTxLen ≤ size

/-! ### Rounding -/

theorem reserveSize_eq (need : ℕ) : WsmBuf.reserveSize need =
    if need % 256 ≠ 0 then need / 256 % 2 * 256 + 256 else need := by
  have hlow : need &&& 255 = need % 256 := Nat.and_two_pow_sub_one_eq_mod need 8
  have hbit : need &&& 256 = need / 256 % 2 * 256 := by
    have h : need &&& 256 = (need.testBit 8).toNat * 256 := Nat.and_two_pow need 8
    rw [h, Nat.testBit_eq_decide_div_mod_eq]
    rcases Nat.mod_two_eq_zero_or_one (need / 2 ^ 8) with h0 | h1
    · rw [h0, show need / 256 % 2 = 0 from h0]
      rfl
    · rw [h1, show need / 256 % 2 = 1 from h1]
      rfl
  unfold WsmBuf.reserveSize sdioBlockSize
  rw [hbit, show 256 - 1 = 255 from rfl, hlow]

/-- **What `wsm_buf_reserve` asks for** is enough exactly when the growth is rounded right. -/
theorem le_reserveSize_iff (need : ℕ) : need ≤ WsmBuf.reserveSize need ↔ Grows need := by
  rw [reserveSize_eq, Grows, sdioBlockSize]
  split_ifs <;> omega

/-! ### What is written -/

variable {b : WsmBuf}

theorem cap_getD (b : WsmBuf) : b.cap.getD 0 = b.size := by
  rcases b with ⟨m | m, data⟩ <;> rfl

theorem take_memcpy (m bs : List UInt8) {i : ℕ} (h : i + bs.length ≤ m.length) :
    (memcpy m i bs).take (i + bs.length) = m.take i ++ bs := by
  rw [memcpy, List.take_left']
  simp
  omega

theorem length_memcpy (m bs : List UInt8) {i : ℕ} (h : i + bs.length ≤ m.length) :
    (memcpy m i bs).length = m.length := by
  simp [memcpy]
  omega

theorem Block.keeps_iff (blk : Block) (l : List UInt8) : blk.kept 0 l = l ↔ blk.Keeps l := by
  rw [blk.kept_eq_iff rfl, Block.Keeps]
  rcases hport : blk.port with _ | _ <;> simp

/-- **A write that fits** appends. -/
theorem write_sound (h : b.data + bs.length ≤ b.size) :
    ∃ b', b.write bs = .done b' ∧ b'.written = b.written ++ bs ∧ b'.cap = b.cap ∧
      b'.data = b.data + bs.length := by
  rcases b with ⟨m | m, data⟩
  · obtain rfl : bs = [] := by
      rw [← List.length_eq_zero_iff]
      change data + bs.length ≤ 0 at h
      omega
    exact ⟨_, rfl, by simp, rfl, rfl⟩
  · change data + bs.length ≤ m.length at h
    refine ⟨⟨some (memcpy m data bs), data + bs.length⟩, if_pos h, take_memcpy m bs h, ?_, rfl⟩
    exact congrArg some (length_memcpy m bs h)

/-! ### One operation -/

/-- What a reservation leaves when it gets memory. -/
def WsmBuf.grown (b : WsmBuf) (n : ℕ) (blk : Block) : WsmBuf :=
  ⟨some (blk.krealloc (b.mem.getD []) (WsmBuf.reserveSize (b.data + n))), b.data⟩

@[simp] theorem data_grown (b : WsmBuf) (n : ℕ) (blk : Block) : (b.grown n blk).data = b.data := rfl

@[simp] theorem size_grown (b : WsmBuf) (n : ℕ) (blk : Block) :
    (b.grown n blk).size = WsmBuf.reserveSize (b.data + n) :=
  blk.length_krealloc ..

theorem written_grown (hdata : b.data ≤ b.size) (n : ℕ) (blk : Block)
    (h : b.data ≤ WsmBuf.reserveSize (b.data + n)) :
    (b.grown n blk).written = blk.kept 0 b.written :=
  blk.take_krealloc _ hdata h

theorem growsBy_none (b : WsmBuf) (n : ℕ) : b.GrowsBy n none := nofun

/-- **A reservation** is sound exactly when the growth is right. -/
theorem reserve_sound (hdata : b.data ≤ b.size) (n : ℕ) (alloc : Alloc) :
    OpSound b (.reserve n alloc) (b.op (.reserve n alloc)) ↔ b.GrowsBy n alloc := by
  rcases alloc with _ | blk
  · exact iff_of_true ⟨rfl, rfl⟩ (growsBy_none b n)
  have hop : b.op (.reserve n (some blk)) = .done (b.grown n blk) := rfl
  rw [hop, OpSound, Op.Keeps, data_grown, size_grown]
  constructor
  · rintro ⟨hle, hkept, hroom⟩ _ ⟨⟩
    rw [written_grown hdata n blk hle] at hkept
    exact ⟨(le_reserveSize_iff _).mp hroom, (blk.keeps_iff _).mp hkept⟩
  · intro h
    obtain ⟨hgrows, hkeeps⟩ := h blk rfl
    have hroom := (le_reserveSize_iff _).mpr hgrows
    have hle : b.data ≤ WsmBuf.reserveSize (b.data + n) := by omega
    refine ⟨hle, ?_, hroom⟩
    rw [written_grown hdata n blk hle]
    exact (blk.keeps_iff _).mpr hkeeps

theorem put_sound_of_fits (alloc : Alloc) (h : b.data + bs.length ≤ b.size) :
    OpSound b (.put bs alloc) (b.op (.put bs alloc)) := by
  obtain ⟨b', hwrite, hwritten, hcap, hdata'⟩ := write_sound h
  have hop : b.op (.put bs alloc) = .done b' := by
    rw [WsmBuf.op, WsmBuf.put, if_neg (Nat.not_lt.mpr h), hwrite]
  rw [hop]
  refine ⟨?_, hwritten⟩
  rw [hdata', ← cap_getD b', hcap, cap_getD]
  exact h

/-- **A put that does not fit** is sound exactly when the growth is right: when it is not rounded right
the bytes are written outside of the buffer. -/
theorem put_sound_of_full (hdata : b.data ≤ b.size) (hfull : ¬ b.data + bs.length ≤ b.size)
    (alloc : Alloc) :
    OpSound b (.put bs alloc) (b.op (.put bs alloc)) ↔ b.GrowsBy bs.length alloc := by
  rcases alloc with _ | blk
  · have hop : b.op (.put bs none) = .nomem ⟨none, 0⟩ := by
      rw [WsmBuf.op, WsmBuf.put, if_pos (Nat.not_le.mp hfull)]
      rfl
    rw [hop]
    exact iff_of_true ⟨rfl, rfl⟩ (growsBy_none b bs.length)
  have hop : b.op (.put bs (some blk)) = (b.grown bs.length blk).write bs := by
    rw [WsmBuf.op, WsmBuf.put, if_pos (Nat.not_le.mp hfull)]
    rfl
  rw [hop]
  by_cases hgrows : Grows (b.data + bs.length)
  · have hroom := (le_reserveSize_iff _).mpr hgrows
    have hfit : (b.grown bs.length blk).data + bs.length ≤ (b.grown bs.length blk).size := by
      rwa [data_grown, size_grown]
    obtain ⟨b', hwrite, hwritten, hcap, hdata'⟩ := write_sound hfit
    have hle : b'.data ≤ b'.size := by
      rw [hdata', ← cap_getD b', hcap, cap_getD]
      exact hfit
    rw [hwrite, OpSound, Op.Keeps, hwritten, List.append_cancel_right_eq,
      written_grown hdata _ blk (by omega), blk.keeps_iff]
    exact ⟨fun h _ hblk => ⟨hgrows, Option.some.inj hblk ▸ h.2⟩, fun h => ⟨hle, (h blk rfl).2⟩⟩
  · have hover : (b.grown bs.length blk).write bs = .overrun := by
      refine if_neg fun hfit => hgrows ((le_reserveSize_iff _).mp ?_)
      rwa [Block.length_krealloc] at hfit
    rw [hover]
    exact iff_of_false id fun h => hgrows (h blk rfl).1

/-- A reset is sound exactly when there is room for the header. -/
theorem reset_sound (b : WsmBuf) : OpSound b .reset (b.op .reset) ↔ Op.Fits b .reset := by
  rcases b with ⟨m | m, data⟩
  · exact iff_of_true ⟨Nat.le_refl 0, rfl⟩ nofun
  have hfits : Op.Fits ⟨some m, data⟩ .reset ↔ 8 ≤ m.length :=
    ⟨fun h => h m.length rfl, fun h size hsize => Option.some.inj hsize ▸ h⟩
  rw [hfits, WsmBuf.op]
  split_ifs with hlt
  · exact iff_of_false id (Nat.not_le.mpr (Nat.lt_of_lt_of_le hlt.2 (by decide)))
  · have h4 : 4 ≤ m.length := Nat.not_lt.mp fun h4 => hlt ⟨rfl, h4⟩
    have hlen : (memcpy m 0 (leBytes 4 0)).length = m.length := length_memcpy m _ (by simpa using h4)
    show 8 ≤ (memcpy m 0 (leBytes 4 0)).length ∧ (memcpy m 0 (leBytes 4 0)).length = m.length ↔ _
    rw [hlen]
    exact and_iff_left rfl

/-- **An operation is sound exactly when it fits.** -/
theorem op_sound_iff (hdata : b.data ≤ b.size) (o : Op) :
    OpSound b o (b.op o) ↔ o.Fits b := by
  cases o with
  | put bs alloc =>
    by_cases hfit : b.data + bs.length ≤ b.size
    · exact iff_of_true (put_sound_of_fits alloc hfit) (.inl hfit)
    · rw [put_sound_of_full hdata hfit, Op.Fits, or_iff_right hfit]
  | reserve n alloc => exact reserve_sound hdata n alloc
  | reset => exact reset_sound b

/-! ### Sequences of operations -/

theorem data_le_of_sound {o : Op} {b' : WsmBuf} (h : OpSound b o (b.op o))
    (hop : b.op o = .done b' ∨ b.op o = .nomem b') : b'.data ≤ b'.size := by
  rcases hop with hop | hop <;> rw [hop] at h
  · exact h.1
  · rw [h.2]
    exact Nat.zero_le _

theorem trace_sound_iff (hdata : b.data ≤ b.size) (os : List Op) :
    (∀ r ∈ b.trace os, OpSound r.1 r.2.1 r.2.2) ↔ ∀ r ∈ b.trace os, r.2.1.Fits r.1 := by
  induction os generalizing b with
  | nil => simp [WsmBuf.trace]
  | cons o os ih =>
    rw [WsmBuf.trace, List.forall_mem_cons, List.forall_mem_cons, op_sound_iff hdata]
    refine and_congr_right fun hfits => ?_
    have hsound := (op_sound_iff hdata o).mpr hfits
    rcases hop : b.op o with b' | b' | _
    · exact ih (data_le_of_sound hsound (.inl hop))
    · exact ih (data_le_of_sound hsound (.inr hop))
    · simp

/-- **Every operation is sound exactly when every growth is right**, from the initialisation on. -/
theorem reserve_sound_iff (alloc : Option (ℕ → UInt8)) (os : List Op) :
    (∀ r ∈ (WsmBuf.init alloc).trace os, OpSound r.1 r.2.1 r.2.2) ↔
      ∀ r ∈ (WsmBuf.init alloc).trace os, r.2.1.Fits r.1 := by
  refine trace_sound_iff ?_ os
  rcases alloc with _ | fresh
  · exact Nat.le_refl 0
  · obtain ⟨hd, h, -⟩ := ready_init fresh
    rw [h.data, h.size_eq]
    exact h.le

theorem put_overrun_of_length {bs : List UInt8} (hbs : bs.length = 1700) (fresh : ℕ → UInt8)
    (blk : Block) :
    ¬ ∀ r ∈ (WsmBuf.init (some fresh)).trace [.put bs (some blk)], OpSound r.1 r.2.1 r.2.2 := by
  intro h
  obtain ⟨hd, hh, -⟩ := ready_init fresh
  generalize WsmBuf.init (some fresh) = b at h hh
  have hsize : b.size = 1632 := hh.size_eq
  have hdata : b.data = 8 := hh.data
  rw [WsmBuf.trace, List.forall_mem_cons] at h
  have hput := (put_sound_of_full (b := b) (by omega) (by omega) _).mp h.1
  have hgrows := (hput blk rfl).1
  rw [hdata, hbs, Grows, sdioBlockSize] at hgrows
  omega

/-- **A command that does not fit the first buffer** is written outside of the one it is given. -/
theorem put_overrun : ¬ ∀ r ∈ (WsmBuf.init (some fun _ => 0)).trace
    [.put (List.replicate 1700 0) (some ⟨.linux, fun _ => 0⟩)], OpSound r.1 r.2.1 r.2.2 :=
  put_overrun_of_length List.length_replicate _ _

/- A growth that is rounded right: Linux keeps the bytes, the RTOS loses them. -/
example : [Port.linux, .rtos].map (fun port =>
    match (⟨some [1, 2, 3], 3⟩ : WsmBuf).put [4] (some ⟨port, fun _ => 0⟩) with
    | .done b => b.written
    | .nomem _ | .overrun => []) = [[1, 2, 3, 4], [0, 0, 0, 4]] := by
  decide +kernel

end Atbm6441.Wsm.Buf
