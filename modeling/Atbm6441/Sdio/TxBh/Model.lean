import Atbm6441.Lib.Cursor
import Atbm6441.Wsm.Buf.Model
import Atbm6441.Wsm.Cmd.Model
import Atbm6441.Wsm.Credit.Model

/-!
# How the TX bottom half packs messages

The loop of `atbm_sdio_tx_bh` (with `CONFIG_TX_NO_CONFIRM`, without `ATBM_WSM_SDIO_TX_MULT`), with
`atbm_xmit_linearize`, the counters, and the write behind it (`atbm_data_write_unlock` and
`atbm_sdio_force_free_wsm`).
-/

namespace Atbm6441.Sdio.TxBh

open Atbm6441.Lib Atbm6441.Wsm

/-- `SDIO_TX_MAXLEN`. -/
def sdioTxMaxlen : ℕ := 4096 * 8

/-- `MAX_RETRY`. -/
def maxRetry : ℕ := 10

/-! ### Messages -/

/-- Where the bytes of a message are, behind its header: in memory one after the other, or in an skb
that is not linear, which has no more bytes than the header says. -/
inductive Body (len : ℕ)
  | linear (data : ℕ → UInt8)
  | nonlinear (head : List UInt8) (frags : List (List UInt8))
      (le : Buf.hdrTxLen + head.length + frags.flatten.length ≤ len)

/-- A message that `wsm_get_tx` returns; `txed` is what `wsm_txed` returns for it. -/
structure Msg where
  id : BitVec 16
  len : BitVec 16
  hdr_le : Buf.hdrTxLen ≤ len.toNat
  body : Body len.toNat
  txed : Bool

namespace Msg

/-- The header with its stamps. -/
def hdr (m : Msg) (seq : ℕ) : List UInt8 :=
  let wsm := Cmd.WsmTx.stamp ⟨0, m.len, m.id, []⟩ seq
  leBytes 4 wsm.flag.toNat ++ leBytes 2 wsm.len.toNat ++ leBytes 2 wsm.id.toNat

/-- What `atbm_xmit_linearize` copies, piece by piece. -/
def pieces (m : Msg) (seq : ℕ) : List (List UInt8) :=
  match m.body with
  | .linear data => [m.hdr seq ++ slice data 0 (m.len.toNat - Buf.hdrTxLen)]
  | .nonlinear head frags _ => (m.hdr seq ++ head) :: frags

/-- The bytes that are copied. -/
def bytes (m : Msg) (seq : ℕ) : List UInt8 := (m.pieces seq).flatten

end Msg

/-- `atbm_xmit_linearize`: each piece is copied behind the one before. -/
def atbmXmitLinearize (xmit : List UInt8) (pos : ℕ) : List (List UInt8) → List UInt8
  | [] => xmit
  | piece :: pieces =>
    atbmXmitLinearize (Buf.memcpy xmit pos piece) (pos + piece.length) pieces

/-- The length of a message in the transfer buffer. -/
def alignedLen (txLen : ℕ) : ℕ :=
  let txLen := if txLen ≤ 8 then 16 else txLen
  if txLen % Buf.sdioBlockSize ≠ 0 then
    txLen - txLen % Buf.sdioBlockSize + Buf.sdioBlockSize
  else txLen

/-! ### The loop -/

/-- A message in the transfer buffer: its place, its bytes and its length there. -/
structure Packed where
  msg : Msg
  off : ℕ
  bytes : List UInt8
  len : ℕ

/-- The bottom half; `frames` is `txMutiFrameCount`, and `packed` records what was copied. -/
structure Bh where
  hw : Credit.HwPriv
  hwBufsUsed : ℕ
  wsmTxSeq : ℕ
  bufIdTx : ℕ
  xmitBuff : List UInt8
  xmitBuffPut : ℕ
  frames : ℕ
  needConfirm : Bool
  packed : List Packed

/-- Why the loop stops. -/
inductive Stop
  | noSpace
  | noMsg
  | txed
  | full
  /-- a `BUG_ON` on the counters -/
  | bug
deriving DecidableEq

/-- What a round of the loop meets: `hw_xmits` as the last event has left it, and what `wsm_get_tx`
finds. -/
structure Round where
  hwXmits : BitVec 32
  msg : Option Msg

namespace Bh

/-- The message is copied and counted. -/
def copied (s : Bh) (m : Msg) : Bh :=
  { s with
    hw := s.hw.count
    hwBufsUsed := s.hwBufsUsed + 1
    xmitBuff := atbmXmitLinearize s.xmitBuff s.xmitBuffPut (m.pieces s.wsmTxSeq)
    xmitBuffPut := s.xmitBuffPut + alignedLen m.len.toNat
    wsmTxSeq := (s.wsmTxSeq + 1) &&& 7
    frames := s.frames + 1
    packed := s.packed ++ [⟨m, s.xmitBuffPut, m.bytes s.wsmTxSeq, alignedLen m.len.toNat⟩] }

/-- A round that has got a message. -/
def pack (s : Bh) (sizeInpChBuf : ℕ) (m : Msg) : Option Stop × Bh :=
  if s.hw.count.bug then (some .bug, { s with hw := s.hw.count })
  else if m.txed then (some .txed, { s.copied m with needConfirm := true })
  else
    let s := s.copied m
    let s := { s with needConfirm := false, hwBufsUsed := s.hwBufsUsed - 1 }
    (if sdioTxMaxlen < s.xmitBuffPut + sizeInpChBuf then some .full else none, s)

/-- The bottom half after the credits were checked. -/
def checked (s : Bh) (hwXmits : BitVec 32) : Bh :=
  { s with hw := (Credit.atbmSdioHaveEnoughSpace { s.hw with hwXmits := hwXmits } 1).2 }

/-- One round of the loop. -/
def round (s : Bh) (sizeInpChBuf : ℕ) (r : Round) : Option Stop × Bh :=
  let enough := (Credit.atbmSdioHaveEnoughSpace { s.hw with hwXmits := r.hwXmits } 1).1
  let s := s.checked r.hwXmits
  if s.hw.bug then (some .bug, s)
  else if ¬ enough then (some .noSpace, s)
  else
    match r.msg with
    | none => (some .noMsg, s)
    | some m => s.pack sizeInpChBuf m

/-- The loop over some rounds; it has not stopped when there is no reason. -/
def loop (s : Bh) (sizeInpChBuf : ℕ) : List Round → Option Stop × Bh
  | [] => (none, s)
  | r :: rs =>
    match s.round sizeInpChBuf r with
    | (some stop, s) => (some stop, s)
    | (none, s) => s.loop sizeInpChBuf rs

/-- `xmit_continue`, up to the loop. -/
def xmitContinue (s : Bh) : Bh :=
  { s with xmitBuffPut := 0, frames := 0, needConfirm := false, packed := [] }

/-! ### The write -/

/-- `atbm_data_write_unlock`, with the results of its tries. -/
def dataWrite (s : Bh) (tries : ℕ → Bool) : Bool × Bh :=
  if (List.range maxRetry).any tries then
    (true, { s with bufIdTx := (s.bufIdTx + s.frames) &&& 0x3f })
  else (false, s)

/-- What `atbm_sdio_force_free_wsm` does to the counters. -/
def forceFree (s : Bh) : Bh :=
  if s.needConfirm then { s with hwBufsUsed := s.hwBufsUsed - 1 } else s

/-- From the end of the loop to `xmit_continue`. -/
def write (s : Bh) (tries : ℕ → Bool) : Bool × Bh :=
  match s.dataWrite tries with
  | (true, s) => (true, s)
  | (false, s) => (false, s.forceFree)

end Bh

end Atbm6441.Sdio.TxBh
