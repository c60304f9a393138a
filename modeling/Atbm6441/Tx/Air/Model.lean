import Atbm6441.Sdio.TxBh.Wire
import Atbm6441.Tx.Xmit.Refine

/-!
# From an Ethernet frame to the air

`tx_frame_queue` between those who put messages into it (`atbm_subif_start_xmit`, and
`wsm_cmd_send_no_ack`) and `wsm_get_tx`, by which the TX bottom half takes them. Behind the bus, the
reference for the other end: the device takes the 802.11 frame out of a message, and the receiver
makes an Ethernet frame of it.
-/

namespace Atbm6441.Tx.Air

open Atbm6441.Lib Atbm6441.Wsm
open Atbm6441.Ieee80211 (frameControl ieee80211Hdrlen le16At)
open Atbm6441.Ether (EtherAddr TxVif etherAddrAt)
open Atbm6441.Rx.Replay (Nl80211Iftype)
open Atbm6441.Sdio.TxBh (Msg Bh Round Stop)
open Atbm6441.Tx.Xmit (SkBuff Key AtbmVif Env msgFrame)

/-! ### The queue -/

/-- The id of a message is that of a frame to be sent. -/
def isTx (id : BitVec 16) : Bool := id &&& 0x3f == 0x0004

/-- A command: it has another id. -/
structure Command where
  msg : Msg
  not_tx : isTx msg.id = false

/-- The message that is in a buffer; `BUG_ON` when it is shorter than its header. -/
def msgOf (skb : SkBuff) : Option Msg :=
  if h : Buf.hdrTxLen ≤ (BitVec.ofNat 16 (le16At skb.bytes 4)).toNat then
    some {
      id := BitVec.ofNat 16 (le16At skb.bytes 6)
      len := BitVec.ofNat 16 (le16At skb.bytes 4)
      hdr_le := h
      body := .linear fun i => skb.mem (skb.data + 8 + i)
      txed := false }
  else none

/-- What may be put into `tx_frame_queue`. -/
inductive Offer
  /-- a call of `atbm_subif_start_xmit` -/
  | xmit (vif : AtbmVif) (env : Env) (skb : SkBuff)
  /-- `wsm_cmd_send_no_ack` -/
  | noAck (c : Command)

/-- The message that is put there. -/
def Offer.msg : Offer → Option Msg
  | .xmit vif env skb => (Xmit.atbmSubifStartXmit vif env skb).queued.bind msgOf
  | .noAck c => some { c.msg with txed := false }

/-- The Ethernet frame in it. -/
def Offer.frame : Offer → Option (List UInt8)
  | .xmit vif env skb => (Xmit.atbmSubifStartXmit vif env skb).queued.map fun _ => skb.bytes
  | .noAck _ => none

/-- What is queued. -/
def queued (os : List Offer) : List Msg := os.filterMap Offer.msg

/-- `wsm_get_tx`: a command comes first. -/
def wsmGetTx (cmd : Option Command) (queue : List Msg) : Option Msg × List Msg :=
  match cmd with
  | some c => (some { c.msg with txed := true }, queue)
  | none => (queue.head?, queue.tail)

/-! ### The bottom half -/

/-- A round of the loop: what is offered before it, `hw_xmits`, and the command in `wsm_cmd.ptr`. -/
structure Turn where
  offers : List Offer
  hwXmits : BitVec 32
  cmd : Option Command

/-- The rounds of the loop with what `wsm_get_tx` returns in them, and the queue behind them. Without
room in the device `wsm_get_tx` is not called. -/
def fetch (sizeInpChBuf : ℕ) : Bh → List Msg → List Turn → List Round × List Msg
  | _, queue, [] => ([], queue)
  | s, queue, t :: ts =>
    let queue := queue ++ queued t.offers
    let (msg, rest) := wsmGetTx t.cmd queue
    match s.round sizeInpChBuf ⟨t.hwXmits, msg⟩ with
    | (some .noSpace, _) => ([⟨t.hwXmits, msg⟩], queue ++ queued (ts.flatMap Turn.offers))
    | (some _, _) => ([⟨t.hwXmits, msg⟩], rest ++ queued (ts.flatMap Turn.offers))
    | (none, s) =>
      let (rs, queue) := fetch sizeInpChBuf s rest ts
      (⟨t.hwXmits, msg⟩ :: rs, queue)

/-- From `xmit_continue` to the next one. -/
structure Pass where
  turns : List Turn
  tries : ℕ → Bool

/-- All that is offered. -/
def Pass.offers (p : Pass) : List Offer := p.turns.flatMap Turn.offers

/-- The passes of a run that all come to their end: what was written and packed, and the queue. -/
def run (sizeInpChBuf : ℕ) :
    Bh → List Msg → List Pass → Option (List (Option (List UInt8) × List Msg) × List Msg)
  | _, queue, [] => some ([], queue)
  | s, queue, p :: ps =>
    let (rs, queue) := fetch sizeInpChBuf s.xmitContinue queue p.turns
    match s.pass sizeInpChBuf ⟨rs, p.tries⟩ with
    | none => none
    | some (w, msgs, s) =>
      (run sizeInpChBuf s queue ps).map fun (l, queue) => ((w, msgs) :: l, queue)

/-! ### Behind the bus -/

/-- The 802.11 frame in a message: the device has the keys, finds that of the receiver, and drops the
room for the IV and the trailer, and the Protected bit. -/
def airFrame (keys : List UInt8 → Key) (msg : List UInt8) : List UInt8 :=
  let d := msgFrame msg
  let key := keys (etherAddrAt d 4)
  let d := d.take (d.length - key.trailer)
  let hdrlen := ieee80211Hdrlen (frameControl d)
  leBytes 2 (frameControl d &&& 0xbfff) ++ (d.take hdrlen).drop 2 ++ d.drop (hdrlen + key.ivRoom)

/-- The device with its keys, and the receiver, which may remove the QoS control field. -/
structure Peer where
  keys : List UInt8 → Key
  removed : Bool
  addr : EtherAddr
  iftype : Nl80211Iftype

/-- What the receiver makes of a message that the device has read. -/
def Peer.hears (p : Peer) (msg : List UInt8) : Option (List UInt8) :=
  Ether.receive p.removed p.addr p.iftype (airFrame p.keys msg)

/-- The frames that the device reads from the transfers, at the receiver. -/
def Peer.heard (p : Peer) (l : List (Option (List UInt8) × List Msg)) :
    List (Option (List UInt8)) :=
  (((Sdio.TxBh.wire l).flatMap Sdio.TxBh.frames).filter fun m => isTx (Sdio.TxBh.rdId m)).map
    p.hears

/-- **A frame that is to arrive**: an Ethernet II frame that the receiver has not sent itself, no
longer than a buffer of the device allows, in a buffer that does not become cramped. -/
structure Arrives (p : Peer) (ether : TxVif) (sizeInpChBuf : ℕ) (vif : AtbmVif) (env : Env)
    (skb : SkBuff) : Prop where
  same : vif.ether = ether
  keys : vif.keyFor = p.keys
  head : skb.head ≤ skb.data
  len : skb.len + 84 ≤ sizeInpChBuf
  type : 0x600 ≤ Ether.ethertype skb.bytes
  room : ∀ hdr, Xmit.Comes vif env skb hdr → ¬ Xmit.Cramped vif hdr skb
  source : ¬ Ether.Reflected ether skb.bytes p.addr

/-- The frames that are offered are to arrive, and the commands fit in a buffer of the device. -/
def Offer.Sound (p : Peer) (ether : TxVif) (sizeInpChBuf : ℕ) : Offer → Prop
  | .xmit vif env skb => Arrives p ether sizeInpChBuf vif env skb
  | .noAck c => c.msg.len.toNat ≤ sizeInpChBuf

/-- All that a pass meets is sound. -/
structure Pass.Sound (p : Peer) (ether : TxVif) (sizeInpChBuf : ℕ) (q : Pass) : Prop where
  offers : ∀ o ∈ q.offers, o.Sound p ether sizeInpChBuf
  cmds : ∀ t ∈ q.turns, ∀ c, t.cmd = some c → c.msg.len.toNat ≤ sizeInpChBuf

end Atbm6441.Tx.Air
