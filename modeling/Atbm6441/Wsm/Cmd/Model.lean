import Atbm6441.Lib.Runs
import Mathlib.Data.Int.Init

/-!
# Commands to the firmware

The command slot `hw_priv->wsm_cmd`, the buffer `hw_priv->wsm_cmd_buf` that all commands share, and
the threads that work on them: the senders in `wsm_cmd_send`, one after the other under
`wsm_cmd_mux`, the TX bottom half and the RX thread. Each locked section, each unlocked test of
`wsm_cmd.ptr` and each piece of work between them is one step.

Commands are numbered in the order of their senders. The numbers, the list of what was built and
the owners of buffers and pointers only record who did what; no step depends on them.
-/

namespace Atbm6441.Wsm.Cmd

open Atbm6441.Lib

/-! ### Messages and the shared buffer -/

/-- A message to the device: `struct wsm_hdr_tx` and what follows it. -/
structure WsmTx where
  flag : BitVec 32
  len : BitVec 16
  id : BitVec 16
  body : List UInt8
deriving DecidableEq

/-- The word that the bottom half writes in front of the length: the length and the sum of its two
bytes. -/
def wsmFlag (txLen : BitVec 32) : BitVec 32 :=
  let flag := txLen &&& 0xffff
  let sum := (flag &&& 0xff) + ((flag >>> 8) &&& 0xff)
  flag ||| ((if sum &&& 0x100 ≠ 0 then sum + 1 else sum) &&& 0xff) <<< 24

/-- What the bottom half writes into the header of a message. -/
def WsmTx.stamp (m : WsmTx) (seq : ℕ) : WsmTx where
  flag := wsmFlag (m.len.zeroExtend 32)
  len := m.len
  id := m.id &&& ~~~0xe000#16 ||| (BitVec.ofNat 16 seq &&& 7) <<< 13
  body := m.body

/-- `struct wsm_buf`, with the memory behind the header; `data` counts from there, and `owner` is the
command that filled in the header last. -/
structure WsmBuf where
  flag : BitVec 32
  len : BitVec 16
  id : BitVec 16
  mem : List UInt8
  data : ℕ
  owner : ℕ

namespace WsmBuf

/-- `WSM_PUT`. -/
def put (b : WsmBuf) (bs : List UInt8) : WsmBuf :=
  { b with mem := b.mem.take b.data ++ bs ++ b.mem.drop (b.data + bs.length)
           data := b.data + bs.length }

/-- `wsm_buf_reset`. -/
def reset (b : WsmBuf) : WsmBuf := { b with flag := 0, data := 0 }

/-- `buf->data - buf->begin`. -/
def bufLen (b : WsmBuf) : ℕ := 8 + b.data

/-- The header that `wsm_cmd_send` fills in. -/
def fillHdr (b : WsmBuf) (cmd ifId : BitVec 16) (owner : ℕ) : WsmBuf :=
  { b with len := BitVec.ofNat 16 b.bufLen, id := cmd ||| ifId <<< 6, owner := owner }

/-- The bytes that a copy of the length in the header takes. -/
def msg (b : WsmBuf) : WsmTx := ⟨b.flag, b.len, b.id, b.mem.take (b.len.toNat - 8)⟩

/-- The header with the stamps of the bottom half. -/
def stamp (b : WsmBuf) (seq : ℕ) : WsmBuf :=
  { b with flag := (b.msg.stamp seq).flag, id := (b.msg.stamp seq).id }

end WsmBuf

/-- A message that was copied into the transfer buffer: the command whose pointer was got, the
command whose header was copied, the sequence number and the bytes. -/
structure Sent where
  cmd : ℕ
  owner : ℕ
  seq : ℕ
  msg : WsmTx
deriving DecidableEq

/-- The id of the device's answer. -/
def Sent.cnfId (e : Sent) : BitVec 16 := e.msg.id &&& 0x3ff ||| 0x400

/-! ### The slot -/

/-- `struct wsm_cmd`: `ptr` and `arg` are `NULL` or belong to a command. `doneBy` is the message whose
confirm set `done`. -/
structure WsmCmd where
  ptr : Option ℕ
  len : ℕ
  arg : Option ℕ
  cmd : BitVec 16
  done : Bool
  ret : ℤ
  doneBy : Option Sent

namespace WsmCmd

/-- The test of `wsm_handle_rx` for the confirm of the outstanding command. -/
def isCnf (c : WsmCmd) (id : BitVec 16) : Bool :=
  id &&& ~~~0x3c0#16 &&& ~~~0x400#16 == c.cmd &&& ~~~0x3c0#16

/-- The tests of `atbm_sdio_force_free_wsm`, with the id in the header. -/
def isFreed (c : WsmCmd) (id : BitVec 16) : Bool :=
  id &&& 0x3f != 0x0002 && id &&& 0x3f != 0x0004 && c.cmd != 0xffff

/-- What `atbm_sdio_force_free_wsm` does to the slot. -/
def forceFree (c : WsmCmd) (id : BitVec 16) : WsmCmd :=
  if c.isFreed id then
    { c with ret := -1, done := true, cmd := 0xffff, ptr := none, arg := none, doneBy := none }
  else c

end WsmCmd

/-! ### The threads -/

/-- Where the sender is. -/
inductive SenderPc
  /-- nobody holds `wsm_cmd_mux` -/
  | free
  /-- the buffer is filled -/
  | building
  /-- before the locked section that registers the command; `arg` is not `NULL` -/
  | submitted (cmd : BitVec 16) (arg : Bool)
  /-- in the first wait -/
  | waiting
  /-- the wait has timed out -/
  | expired
  /-- in the wait for a confirm that is being handled -/
  | lastChance
  /-- before `wsm_buf_reset` and the return -/
  | leaving (ret : ℤ)
deriving DecidableEq

/-- A command is registered and its sender waits. -/
def SenderPc.waits : SenderPc → Bool
  | .waiting | .expired | .lastChance => true
  | .free | .building | .submitted _ _ | .leaving _ => false

/-- Where the TX bottom half is, with the command that it has got. -/
inductive TxPc
  | idle
  /-- `wsm_cmd.ptr` was not `NULL` -/
  | tested
  /-- behind the locked section of `wsm_get_tx` -/
  | got (n len : ℕ)
  /-- the message is in the transfer buffer -/
  | copied (n : ℕ)
  /-- `wsm_txed` has found the pointer -/
  | found (n : ℕ)
  /-- `wsm_txed` has cleared the pointer -/
  | txed
deriving DecidableEq

/-- Where the RX thread is: between the sections of a confirm, before or behind the handler. -/
inductive RxPc
  | idle
  | handling (e : Sent) (arg : Option ℕ)
  | handled (e : Sent) (ret : ℤ)
deriving DecidableEq

/-- The `BUG_ON`s. -/
inductive Bug
  /-- at the start of `wsm_cmd_send` -/
  | cmdSend
  /-- in the last wait of `wsm_cmd_send` -/
  | lastChance
  /-- in `wsm_get_tx` -/
  | getTx
  /-- the header has another length than the slot -/
  | txLen
deriving DecidableEq

structure State where
  sender : SenderPc
  buf : WsmBuf
  slot : WsmCmd
  tx : TxPc
  wsmTxSeq : ℕ
  /-- what is in the transfer buffer -/
  xmitBuff : List Sent
  /-- what was handed to the bus -/
  sent : List Sent
  rx : RxPc
  /-- the sender that has the buffer or is the next to get it -/
  cur : ℕ
  /-- the commands that were built -/
  built : List WsmTx
  timedOut : List ℕ
  bug : Option Bug

inductive Act
  | lock
  | put (bs : List UInt8)
  | nomem
  | send (cmd ifId : BitVec 16) (arg : Bool)
  | register
  | timeout
  | complete
  | giveUp
  | lastChance
  | leave
  /-- the bottom half looks for a command, and takes a frame when there is none -/
  | test (frame : Bool)
  | get
  | linearize
  | txedTest
  | txed
  | write (ok : Bool)
  /-- the device answers a message that was handed to the bus -/
  | confirm (k : ℕ)
  | handle (ret : ℤ)
  | confirmed

namespace State

/-- `wsm_cmd_send` and its callers. -/
def sendStep (s : State) : Act → Option State
  | .lock =>
    match s.sender with
    | .free => some { s with sender := .building }
    | _ => none
  | .put bs =>
    match s.sender with
    | .building => some { s with buf := s.buf.put bs }
    | _ => none
  | .nomem =>
    match s.sender with
    | .building => some { s with sender := .free }
    | _ => none
  | .send cmd ifId arg =>
    match s.sender with
    | .building =>
      let buf := s.buf.fillHdr cmd ifId s.cur
      some { s with sender := .submitted cmd arg, buf := buf, built := s.built ++ [buf.msg] }
    | _ => none
  | .register =>
    match s.sender with
    | .submitted cmd arg =>
      if s.slot.ptr.isSome then some { s with bug := some .cmdSend }
      else some { s with
        sender := .waiting
        slot := { s.slot with
          ptr := some s.cur
          len := s.buf.bufLen
          arg := if arg then some s.cur else none
          cmd := cmd
          done := false } }
    | _ => none
  | .timeout =>
    match s.sender with
    | .waiting => if s.slot.done then none else some { s with sender := .expired }
    | _ => none
  | .complete =>
    match s.sender with
    | .waiting => if s.slot.done then some { s with sender := .leaving s.slot.ret } else none
    | _ => none
  | .giveUp =>
    match s.sender with
    | .expired =>
      some { s with
        sender := if s.slot.cmd = 0xffff then .lastChance else .leaving (-110)
        slot := { s.slot with ptr := none, arg := none }
        timedOut := s.timedOut ++ [s.cur] }
    | _ => none
  | .lastChance =>
    match s.sender with
    | .lastChance =>
      if s.slot.done then some { s with sender := .leaving (-110) }
      else some { s with bug := some .lastChance }
    | _ => none
  | .leave =>
    match s.sender with
    | .leaving _ => some { s with sender := .free, buf := s.buf.reset, cur := s.cur + 1 }
    | _ => none
  | _ => none

/-- `wsm_get_tx`, `wsm_txed` and `atbm_sdio_tx_bh` around them. -/
def txStep (s : State) : Act → Option State
  | .test frame =>
    match s.tx with
    | .idle =>
      if s.slot.ptr.isSome then some { s with tx := .tested }
      else some { s with wsmTxSeq := if frame then (s.wsmTxSeq + 1) &&& 7 else s.wsmTxSeq }
    | _ => none
  | .get =>
    match s.tx with
    | .tested =>
      match s.slot.ptr with
      | none => some { s with bug := some .getTx }
      | some n => some { s with tx := .got n s.slot.len }
    | _ => none
  | .linearize =>
    match s.tx with
    | .got n len =>
      if s.buf.len.toNat ≠ len then some { s with bug := some .txLen }
      else some { s with
        tx := .copied n
        buf := s.buf.stamp s.wsmTxSeq
        wsmTxSeq := (s.wsmTxSeq + 1) &&& 7
        xmitBuff := s.xmitBuff ++ [⟨n, s.buf.owner, s.wsmTxSeq, s.buf.msg.stamp s.wsmTxSeq⟩] }
    | _ => none
  | .txedTest =>
    match s.tx with
    | .copied n => some { s with tx := if s.slot.ptr.isSome then .found n else .idle }
    | _ => none
  | .txed =>
    match s.tx with
    | .found _ => some { s with tx := .txed, slot := { s.slot with ptr := none } }
    | _ => none
  | .write ok =>
    let s' := { s with tx := .idle, xmitBuff := [], sent := s.sent ++ s.xmitBuff }
    match s.tx with
    | .txed => some (if ok then s' else { s' with slot := s.slot.forceFree s.buf.id })
    | .idle => some s'
    | _ => none
  | _ => none

/-- The branch of `wsm_handle_rx` for confirms. -/
def rxStep (s : State) : Act → Option State
  | .confirm k =>
    match s.rx, s.sent[k]? with
    | .idle, some e =>
      some { s with
        slot := { s.slot with cmd := 0xffff }
        rx := if s.slot.isCnf e.cnfId then .handling e s.slot.arg else .idle }
    | _, _ => none
  | .handle ret =>
    match s.rx with
    | .handling e _ => some { s with rx := .handled e ret }
    | _ => none
  | .confirmed =>
    match s.rx with
    | .handled e ret =>
      some { s with rx := .idle, slot := { s.slot with ret := ret, done := true, doneBy := some e } }
    | _ => none
  | _ => none

/-- A `BUG_ON` that was reached stops everything. -/
def step (s : State) (a : Act) : Option State :=
  if s.bug.isSome then none else (s.sendStep a).or ((s.txStep a).or (s.rxStep a))

end State

/-- Before the first command. -/
def start (mem : List UInt8) : State where
  sender := .free
  buf := ⟨0, 0, 0, mem, 0, 0⟩
  slot := ⟨none, 0, none, 0, false, 0, none⟩
  tx := .idle
  wsmTxSeq := 0
  xmitBuff := []
  sent := []
  rx := .idle
  cur := 0
  built := []
  timedOut := []
  bug := none

/-- Runs from the initialisation on. -/
def system : System State Act where
  init s := ∃ mem, s = start mem
  step := State.step

/-- A sender that builds and registers a command with a result. -/
def submits (cmd : BitVec 16) : List Act := [.lock, .put [1, 2, 3, 4], .send cmd 0 true, .register]

/-- The bottom half transmits a command. -/
def transmits : List Act := [.test false, .get, .linearize, .txedTest, .txed, .write true]

end Atbm6441.Wsm.Cmd
