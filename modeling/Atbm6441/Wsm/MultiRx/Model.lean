import Mathlib.Data.Int.Init
import Mathlib.Data.List.Basic
import Mathlib.Tactic.Common

/-!
# Unpacking an aggregated RX message

`atbm_rx_tasklet` of `bh_sdio.c`. The message lies at the start of a memory that goes on behind
it; the results of the calls of `wsm_handle_rx` are a parameter. `Unpack` records what the
function reads, calls and returns. Allocations succeed.
-/

namespace Atbm6441.Wsm.MultiRx

/-- The receive buffer: the memory from `skb->data` on, and the length of the message in it. -/
structure RxBuf where
  mem : ℕ → UInt8
  len : ℕ

/-- A little-endian 16-bit field. -/
def RxBuf.le16 (b : RxBuf) (off : ℕ) : ℕ := (b.mem off).toNat + 256 * (b.mem (off + 1)).toNat

/-- `wsm->len` of the header at an offset. -/
def RxBuf.wsmLen (b : RxBuf) (off : ℕ) : ℕ := b.le16 off

/-- `wsm->id & 0xFFF` of the header at an offset. -/
def RxBuf.wsmId (b : RxBuf) (off : ℕ) : ℕ := b.le16 (off + 2) &&& 0xFFF

/-- `multi_rx->RxFrameNum`. -/
def RxBuf.rxFrameNum (b : RxBuf) : ℕ := (b.mem 4).toNat

/-- A copy of `n` bytes. -/
def RxBuf.bytes (b : RxBuf) (off n : ℕ) : List UInt8 := (List.range n).map fun i => b.mem (off + i)

/-- `ALIGN2(x, a)`. -/
def align (x a : ℕ) : ℕ := (x + (a - 1)) / a * a

/-- An `int` converted to `u32`. -/
def u32 (x : ℤ) : ℕ := (x % 0x100000000).toNat

/-- `RX_ALLOC_BUFF_OFFLOAD`. -/
def rxAllocBuffOffload : ℕ := (40 + 16) - 16

/-- What a run of the function has done: the bytes it read (offset and length), the entry of
`rxMutiCnt` it counted in, the calls of `wsm_handle_rx` (message id and bytes), whether a `BUG_ON`
was reached, and the value returned. -/
structure Unpack where
  reads : List (ℕ × ℕ)
  stat : Option ℕ
  calls : List (ℕ × List UInt8)
  bug : Bool
  ret : ℤ
deriving DecidableEq

/-- The frame at an offset is copied and `wsm_handle_rx` is called with the copy. -/
def Unpack.handle (u : Unpack) (b : RxBuf) (off : ℕ) : Unpack :=
  { u with
    reads := u.reads ++ [(off, b.wsmLen off)]
    calls := u.calls ++ [(b.wsmId off, b.bytes off (b.wsmLen off))] }

/-- The header at an offset is read. -/
def Unpack.readHdr (u : Unpack) (off : ℕ) : Unpack := { u with reads := u.reads ++ [(off, 4)] }

/-- `BUG_ON`. -/
def Unpack.bugOn (u : Unpack) (c : Bool) : Unpack := { u with bug := c }

/-- `return ret`. -/
def Unpack.exit (u : Unpack) (ret : ℤ) : Unpack := { u with ret := ret }

/-- The bytes a frame at an offset occupies. -/
def RxBuf.slotLen (b : RxBuf) (off : ℕ) : ℕ := align (b.wsmLen off + rxAllocBuffOffload) 4

/-- The loop over the frames, with the counter `RxFrameNum`, the offset of `wsm` and `data_len`. -/
def unpackLoop (b : RxBuf) (wsmHandleRx : ℕ → ℤ) : ℕ → ℕ → ℤ → Unpack → Unpack
  | rxFrameNum, off, dataLen, u =>
    if u32 dataLen < b.wsmLen off then u.bugOn (rxFrameNum ≠ 0)
    else if wsmHandleRx u.calls.length ≠ 0 then
      (u.handle b off).exit (wsmHandleRx u.calls.length)
    else
      let u := (u.handle b off).readHdr (off + b.slotLen off)
      match rxFrameNum with
      | 0 => u.bugOn true -- the counter is `-1`
      | n + 1 =>
        if 0 < n ∧ 32 < dataLen - b.slotLen off then
          unpackLoop b wsmHandleRx n (off + b.slotLen off) (dataLen - b.slotLen off) u
        else u.bugOn (n ≠ 0)

/-- `atbm_rx_tasklet`. -/
def atbmRxTasklet (b : RxBuf) (id : ℕ) (wsmHandleRx : ℕ → ℤ) : Unpack :=
  if b.wsmId 0 = 0x0811 ∨ b.wsmId 0 = 0x0813 then
    unpackLoop b wsmHandleRx b.rxFrameNum 8 ((b.wsmLen 0 : ℤ) - 8)
      { reads := [(0, 4), (4, 1), (8, 4)]
        stat := some (align (b.wsmLen 0) 1024 / 1024)
        calls := []
        bug := false
        ret := 0 }
  else
    { reads := [(0, 4)]
      stat := none
      calls := [(id, b.bytes 0 b.len)]
      bug := false
      ret := wsmHandleRx 0 }

/-! ### One round of the loop -/

section

variable {b : RxBuf} {wsmHandleRx : ℕ → ℤ} {n off : ℕ} {dataLen : ℤ} {u : Unpack}

theorem unpackLoop_short (h : u32 dataLen < b.wsmLen off) :
    unpackLoop b wsmHandleRx n off dataLen u = u.bugOn (n ≠ 0) := by
  rw [unpackLoop, if_pos h]

theorem unpackLoop_error (h : ¬ u32 dataLen < b.wsmLen off)
    (hr : wsmHandleRx u.calls.length ≠ 0) :
    unpackLoop b wsmHandleRx n off dataLen u =
      (u.handle b off).exit (wsmHandleRx u.calls.length) := by
  rw [unpackLoop, if_neg h, if_pos hr]

theorem unpackLoop_uncounted (h : ¬ u32 dataLen < b.wsmLen off)
    (hr : wsmHandleRx u.calls.length = 0) :
    unpackLoop b wsmHandleRx 0 off dataLen u =
      ((u.handle b off).readHdr (off + b.slotLen off)).bugOn true := by
  rw [unpackLoop, if_neg h, if_neg (not_not.mpr hr)]

theorem unpackLoop_more (h : ¬ u32 dataLen < b.wsmLen off)
    (hr : wsmHandleRx u.calls.length = 0) (hn : 0 < n ∧ 32 < dataLen - b.slotLen off) :
    unpackLoop b wsmHandleRx (n + 1) off dataLen u =
      unpackLoop b wsmHandleRx n (off + b.slotLen off) (dataLen - b.slotLen off)
        ((u.handle b off).readHdr (off + b.slotLen off)) := by
  rw [unpackLoop, if_neg h, if_neg (not_not.mpr hr)]
  exact if_pos hn

theorem unpackLoop_exit (h : ¬ u32 dataLen < b.wsmLen off)
    (hr : wsmHandleRx u.calls.length = 0) (hn : ¬ (0 < n ∧ 32 < dataLen - b.slotLen off)) :
    unpackLoop b wsmHandleRx (n + 1) off dataLen u =
      ((u.handle b off).readHdr (off + b.slotLen off)).bugOn (n ≠ 0) := by
  rw [unpackLoop, if_neg h, if_neg (not_not.mpr hr)]
  exact if_neg hn

end

end Atbm6441.Wsm.MultiRx
