import Atbm6441.Lib.Runs

/-!
# The TX credits of the SDIO bottom half

The credit counters of `struct atbm_common`, the functions of `bh_sdio.c` and `wsm.c` that work on
them, and the control flow of `atbm_sdio_tx_bh` around them. The device consumes the messages that
were written to it and sends events that carry the total, as a 32-bit counter.
-/

namespace Atbm6441.Wsm.Credit

open Atbm6441.Lib

/-! ### The counters -/

/-- The counters, as machine words (`hw_bufs_free` is an `int`), and whether one of the `BUG_ON`s on
them was reached. -/
structure HwPriv where
  numInpChBufs : BitVec 16
  nXmits : BitVec 32
  hwXmits : BitVec 32
  hwBufsFree : BitVec 32
  hwBufsFreeInit : BitVec 32
  bug : Bool
deriving DecidableEq

/-- `wsm_startup_indication`, on a structure that was allocated with zeros. -/
def wsmStartupIndication (numInpChBufs : BitVec 16) : HwPriv where
  numInpChBufs := numInpChBufs
  nXmits := 0
  hwXmits := numInpChBufs.zeroExtend 32
  hwBufsFree := numInpChBufs.zeroExtend 32
  hwBufsFreeInit := numInpChBufs.zeroExtend 32
  bug := false

/-- `hw_bufs_free >= n_needs`: an `int` and a `u32` are compared as `u32`. -/
def HwPriv.enough (h : HwPriv) (nNeeds : BitVec 32) : Bool := nNeeds.ule h.hwBufsFree

/-- `atbm_sdio_have_enough_space`, with `CONFIG_TX_NO_CONFIRM`. -/
def atbmSdioHaveEnoughSpace (h : HwPriv) (nNeeds : BitVec 32) : Bool × HwPriv :=
  if h.enough nNeeds then (true, h)
  else
    let h := { h with bug := h.bug || (h.numInpChBufs.zeroExtend 32).slt (h.hwXmits - h.nXmits) }
    let h := { h with
      hwBufsFree := h.hwXmits - h.nXmits
      hwBufsFreeInit := h.hwXmits - h.nXmits }
    (h.enough nNeeds, h)

/-- The counting of a message in `atbm_sdio_tx_bh`, with `ATBM_SDIO_FREE_BUFF_ERR` before and after
it. -/
def HwPriv.count (h : HwPriv) : HwPriv :=
  let h := { h with bug := h.bug || h.hwBufsFree.sle 0 }
  let h := { h with nXmits := h.nXmits + 1, hwBufsFree := h.hwBufsFree - 1 }
  { h with bug := h.bug || h.hwBufsFree.slt 0 }

/-- `wsm_event_indication` of an event `WSM_EVENT_SDIO_INPUTCHAN_EVNET`. -/
def wsmEventIndication (h : HwPriv) (v : BitVec 32) : HwPriv := { h with hwXmits := v }

/-! ### The bottom half and the device -/

/-- Where `atbm_sdio_tx_bh` is; `n` messages are in the transfer buffer. -/
inductive TxPc
  /-- not running -/
  | idle
  /-- before `atbm_sdio_have_enough_space` -/
  | check (n : ℕ)
  /-- before `wsm_get_tx` -/
  | get (n : ℕ)
  /-- a message was got -/
  | count (n : ℕ)
  /-- before the write to the bus, with the last value of `enough` -/
  | write (n : ℕ) (enough : Bool)
  /-- at the start of `atbm_sdio_wait_enough_space` -/
  | waitTest
  /-- in the loop of `atbm_sdio_wait_enough_space` -/
  | poll

/-- The messages in the transfer buffer. -/
def TxPc.buffered : TxPc → ℕ
  | .check n | .get n | .count n | .write n _ => n
  | .idle | .waitTest | .poll => 0

/-- The driver, the numbers of messages counted, written to the device and consumed by it, and the
events that the device has sent. -/
structure State where
  pc : TxPc
  hw : HwPriv
  sent : ℕ
  delivered : ℕ
  consumed : ℕ
  events : List (BitVec 32)

inductive Act
  | start
  | check
  /-- `wsm_get_tx` finds a message or does not -/
  | get (found : Bool)
  /-- the loop goes on or ends -/
  | count (more : Bool)
  /-- the write succeeds, or fails after some of the messages have arrived -/
  | write (ok : Bool) (arrived : ℕ)
  | waitTest
  | poll (timeout : Bool)
  | consume
  /-- the device sends an event -/
  | announce
  /-- the driver handles an event, or ignores it -/
  | event (ignored : Bool)

namespace State

def step (s : State) : Act → Option State
  | .start =>
    match s.pc with
    | .idle => some { s with pc := .check 0 }
    | _ => none
  | .check =>
    match s.pc with
    | .check n =>
      let r := atbmSdioHaveEnoughSpace s.hw 1
      some { s with
        hw := r.2
        pc := if r.1 then .get n else if 0 < n then .write n false else .waitTest }
    | _ => none
  | .get found =>
    match s.pc with
    | .get n =>
      some { s with pc := if found then .count n else if 0 < n then .write n true else .idle }
    | _ => none
  | .count more =>
    match s.pc with
    | .count n =>
      some { s with
        hw := s.hw.count
        sent := s.sent + 1
        pc := if more then .check (n + 1) else .write (n + 1) true }
    | _ => none
  | .write ok arrived =>
    match s.pc with
    | .write n enough =>
      if ok ∧ arrived = n then
        some { s with
          delivered := s.delivered + n
          pc := if enough then .check 0 else .waitTest }
      else if ¬ ok ∧ arrived ≤ n then
        some { s with delivered := s.delivered + arrived, pc := .check 0 }
      else none
    | _ => none
  | .waitTest =>
    match s.pc with
    | .waitTest => some { s with pc := if s.hw.enough 1 then .check 0 else .poll }
    | _ => none
  | .poll timeout =>
    match s.pc with
    | .poll =>
      let r := atbmSdioHaveEnoughSpace s.hw 1
      some { s with hw := r.2, pc := if r.1 || timeout then .check 0 else .poll }
    | _ => none
  | .consume => if s.consumed < s.delivered then some { s with consumed := s.consumed + 1 } else none
  | .announce =>
    some { s with
      events := s.events ++ [s.hw.numInpChBufs.zeroExtend 32 + BitVec.ofNat 32 s.consumed] }
  | .event ignored =>
    match s.events with
    | [] => none
    | v :: vs =>
      some { s with events := vs, hw := if ignored then s.hw else wsmEventIndication s.hw v }

end State

/-- Runs from the startup indication on. -/
def system : System State Act where
  init s := ∃ n, s = ⟨.idle, wsmStartupIndication n, 0, 0, 0, []⟩
  step := State.step

end Atbm6441.Wsm.Credit
