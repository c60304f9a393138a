import Atbm6441.Lib.Bytes
import Atbm6441.Os.Port
import Mathlib.Data.BitVec

/-!
# The buffer of the commands

`struct wsm_buf` with the memory behind it, `wsm_buf_init`, `wsm_buf_reset` and `wsm_buf_reserve`, the
macros `WSM_PUT`, `WSM_PUT16` and `WSM_PUT32`, and the functions `wsm_*` that build a command in the
one buffer `wsm_cmd_buf` and hand it to `wsm_cmd_send` or `wsm_cmd_send_no_ack`. They run one after
the other under `wsm_cmd_mux`.
-/

namespace Atbm6441.Wsm.Buf

open Atbm6441.Lib Atbm6441.Os

/-- `SDIO_BLOCK_SIZE`. -/
def sdioBlockSize : ℕ := 256

/-- `MAX_WSM_BUF_LEN`. -/
def maxWsmBufLen : ℕ := 1632

/-- `sizeof(struct wsm_hdr_tx)`. -/
def hdrTxLen : ℕ := 8

/-- `ENOMEM`. -/
def enomem : ℤ := 12

/-! ### The memory -/

/-- Memory with some bytes in it, on one of the ports. -/
structure Block where
  port : Port
  found : ℕ → UInt8

/-- What `krealloc` returns: `NULL`, as the one of the RTOS does for no bytes at all, or memory. -/
abbrev Alloc := Option Block

/-- The block that `krealloc` returns. -/
def Block.krealloc (blk : Block) (old : List UInt8) (size : ℕ) : List UInt8 :=
  blk.port.krealloc old size blk.found

@[simp] theorem Block.length_krealloc (blk : Block) (old : List UInt8) (size : ℕ) :
    (blk.krealloc old size).length = size :=
  Port.length_krealloc ..

/-- `memcpy` to offset `i` of a block. -/
def memcpy (m : List UInt8) (i : ℕ) (bs : List UInt8) : List UInt8 :=
  m.take i ++ bs ++ m.drop (i + bs.length)

/-- `struct wsm_buf`: `mem` is the block from `begin` to `end`, none when they are `NULL`, and `data`
counts from `begin`. -/
structure WsmBuf where
  mem : Option (List UInt8)
  data : ℕ
deriving DecidableEq

/-- How the filling of a buffer ends: `overrun` when a byte is written outside of the block. -/
inductive Built
  | done (b : WsmBuf)
  | nomem (b : WsmBuf)
  | overrun

namespace WsmBuf

/-- `buf->end - buf->begin`. -/
def size (b : WsmBuf) : ℕ := (b.mem.getD []).length

/-- `wsm_buf_reset`. -/
def reset (b : WsmBuf) : WsmBuf :=
  match b.mem with
  | some m => ⟨some (memcpy m 0 (leBytes 4 0)), hdrTxLen⟩
  | none => ⟨none, 0⟩

/-- `wsm_buf_init`, with the bytes in the memory that `kmalloc` returns. -/
def init (alloc : Option (ℕ → UInt8)) : WsmBuf :=
  reset ⟨alloc.map fun found => (List.range maxWsmBufLen).map found, 0⟩

/-- The size that `wsm_buf_reserve` asks for. -/
def reserveSize (size : ℕ) : ℕ :=
  if size &&& (sdioBlockSize - 1) ≠ 0 then (size &&& sdioBlockSize) + sdioBlockSize else size

/-- `wsm_buf_reserve`. -/
def reserve (b : WsmBuf) (extraSize : ℕ) (alloc : Alloc) : Built :=
  match alloc with
  | some blk =>
    .done ⟨some (blk.krealloc (b.mem.getD []) (reserveSize (b.data + extraSize))), b.data⟩
  | none => .nomem ⟨none, 0⟩

/-- The `memcpy` of `WSM_PUT`. -/
def write (b : WsmBuf) (bs : List UInt8) : Built :=
  match b.mem with
  | some m =>
    if b.data + bs.length ≤ m.length then .done ⟨some (memcpy m b.data bs), b.data + bs.length⟩
    else .overrun
  | none => if bs = [] then .done b else .overrun

/-- `WSM_PUT`, with what `krealloc` returns should it be called. -/
def put (b : WsmBuf) (bs : List UInt8) (alloc : Alloc) : Built :=
  if b.size < b.data + bs.length then
    match b.reserve bs.length alloc with
    | .done b' => b'.write bs
    | r => r
  else b.write bs

/-- One `WSM_PUT` after the other, with what `krealloc` returns at each. -/
def puts (b : WsmBuf) : List (List UInt8) → (ℕ → Alloc) → Built
  | [], _ => .done b
  | bs :: bss, alloc =>
    match b.put bs (alloc 0) with
    | .done b' => b'.puts bss fun i => alloc (i + 1)
    | r => r

end WsmBuf

/-! ### The functions -/

/-- The functions that put the caller's buffer. -/
inductive SetFn
  | setTcpFilter | setPsmode | setScan | setWifimode | setApCfg | setWifichannel | setCountryId
  | smartCfgStart | smartCfgStop | apTouchStart | apTouchStop | etfStartTx | etfSingleTone
  | etfStopTx | etfStartRx | etfStartRxNoDrop | etfStopRx | etfResetRx | setAdaptive | updateFw
  | setListenItvl | sendAtCmd | setDbgPrint | fwSleep | clearWifiConfig | addNetpatternInfo
  | delNetpatternInfo | addConnParamInfo | delConnParamInfo | connSwitch | setWakeupSsid
  | clearWakeupSsid | autoReconnect | setWakeupEvent | sendCustomerCmd | customerCertSave
  | checkAlive
deriving DecidableEq

/-- `WSM_*_REQ_ID`. -/
def SetFn.reqId : SetFn → BitVec 16
  | setTcpFilter => 0x0009
  | setPsmode => 0x0008
  | setScan => 0x000A
  | setWifimode => 0x000D
  | setApCfg => 0x000E
  | setWifichannel => 0x000F
  | setCountryId => 0x0010
  | smartCfgStart => 0x0013
  | smartCfgStop => 0x0014
  | apTouchStart => 0x0015
  | apTouchStop => 0x0016
  | etfStartTx => 0x0017
  | etfSingleTone => 0x0018
  | etfStopTx => 0x0019
  | etfStartRx => 0x001A
  | etfStartRxNoDrop => 0x0025
  | etfStopRx => 0x001B
  | etfResetRx => 0x001C
  | setAdaptive => 0x001D
  | updateFw => 0x0020
  | setListenItvl => 0x0022
  | sendAtCmd => 0x0023
  | setDbgPrint => 0x0024
  | fwSleep => 0x0026
  | clearWifiConfig => 0x002C
  | addNetpatternInfo => 0x002E
  | delNetpatternInfo => 0x002F
  | addConnParamInfo => 0x0030
  | delConnParamInfo => 0x0031
  | connSwitch => 0x0032
  | setWakeupSsid => 0x0034
  | clearWakeupSsid => 0x0035
  | autoReconnect => 0x0036
  | setWakeupEvent => 0x0037
  | sendCustomerCmd => 0x0038
  | customerCertSave => 0x0039
  | checkAlive => 0x003A

/-- The functions that put the size of the buffer for the answer. -/
inductive GetFn
  | getConfig | getTcpFilter | getCountryId | getStalist | getVer | getSdkVer | getApCfg | getTxRate
  | getScanState | getRssi | getTime | getEtfRxInfo | connLose
deriving DecidableEq

/-- `WSM_*_REQ_ID`. -/
def GetFn.reqId : GetFn → BitVec 16
  | getConfig => 0x0002
  | getTcpFilter => 0x000C
  | getCountryId => 0x0011
  | getStalist => 0x0012
  | getVer => 0x001E
  | getSdkVer => 0x001F
  | getApCfg => 0x0021
  | getTxRate => 0x0027
  | getScanState => 0x0029
  | getRssi => 0x002A
  | getTime => 0x002B
  | getEtfRxInfo => 0x002D
  | connLose => 0x0033

/-- `struct wsm_configuration`. -/
structure WsmConfiguration where
  dot11MaxTransmitMsduLifeTime : ℕ
  dot11MaxReceiveLifeTime : ℕ
  dot11RtsThreshold : ℕ
  dot11StationId : List UInt8
  dpdData : List UInt8

/-- A call of one of the functions `wsm_*`. -/
inductive Call
  | set (f : SetFn) (buffer : List UInt8)
  | get (f : GetFn) (bufSize : ℕ)
  | getScanInfo (buffer : List UInt8)
  | reset (linkId : BitVec 16) (resetStatistics : Bool) (ifId : ℤ)
  | readShmem (address bufSize : ℕ)
  | writeShmem (address : ℕ) (buffer : List UInt8)
  | join (arg : List UInt8) (ifId : ℤ)
  | configuration (arg : WsmConfiguration) (ifId : ℤ)
  | sendIpcData (buffer : List UInt8)

namespace Call

/-- What a function puts into the buffer, piece by piece. -/
def puts : Call → List (List UInt8)
  | set _ buffer | getScanInfo buffer | sendIpcData buffer => [buffer]
  | get _ bufSize => [leBytes 2 bufSize]
  | reset _ resetStatistics _ => [leBytes 4 (if resetStatistics then 0 else 1)]
  | readShmem address bufSize => [leBytes 4 address, leBytes 2 bufSize, leBytes 2 0]
  | writeShmem address buffer =>
    [leBytes 4 address, leBytes 2 buffer.length, leBytes 2 0, buffer]
  | join arg _ => [arg]
  | configuration arg _ =>
    [leBytes 4 arg.dot11MaxTransmitMsduLifeTime, leBytes 4 arg.dot11MaxReceiveLifeTime,
      leBytes 4 arg.dot11RtsThreshold, leBytes 2 (arg.dpdData.length + 12), leBytes 2 1,
      arg.dot11StationId, leBytes 2 5, arg.dpdData]

def reqId : Call → BitVec 16
  | set f _ => f.reqId
  | get f _ => f.reqId
  | getScanInfo _ => 0x000B
  | reset linkId _ _ => 0x000A ||| (linkId &&& 0x0F) <<< 6
  | readShmem _ _ => 0x0000
  | writeShmem _ _ => 0x0001
  | join _ _ => 0x0003
  | configuration _ _ => 0x0009
  | sendIpcData _ => 0x0028

def ifId : Call → ℤ
  | reset _ _ ifId | join _ ifId | configuration _ ifId => ifId
  | set _ _ | get _ _ | getScanInfo _ | readShmem _ _ | writeShmem _ _ | sendIpcData _ => 0

/-- The command goes to `wsm_cmd_send_no_ack`. -/
def noAck : Call → Bool
  | sendIpcData _ => true
  | set _ _ | get _ _ | getScanInfo _ | reset _ _ _ | readShmem _ _ | writeShmem _ _ | join _ _
  | configuration _ _ => false

/-- The encoded arguments. -/
def payload (c : Call) : List UInt8 := c.puts.flatten

/-- The id in the header. -/
def hdrId (c : Call) : BitVec 16 :=
  c.reqId ||| BitVec.ofInt 16 (if c.ifId = -1 then 0 else c.ifId) <<< 6

end Call

/-- What a call meets: what `krealloc` returns at each put, whether `atbm_dev_alloc_skb` returns a
buffer, and how the wait for the confirm ends. -/
structure Env where
  krealloc : ℕ → Alloc
  skb : Bool
  ret : ℤ

/-- What a call leaves behind: its result, the message that it has handed over for transmission and the
buffer. -/
structure Result where
  ret : ℤ
  msg : Option (List UInt8)
  buf : WsmBuf

/-- `wsm_cmd_send` and `wsm_cmd_send_no_ack`; none when the header is written outside of the block. -/
def WsmBuf.send (b : WsmBuf) (c : Call) (e : Env) : Option Result :=
  match b.mem with
  | some m =>
    if hdrTxLen ≤ m.length then
      let m' := memcpy m 4 (leBytes 2 b.data ++ leBytes 2 c.hdrId.toNat)
      let b' : WsmBuf := ⟨some m', b.data⟩
      if c.noAck ∧ ¬ e.skb then some ⟨-1, none, b'⟩
      else some ⟨if c.noAck then 0 else e.ret, some (m'.take b.data), b'.reset⟩
    else none
  | none => none

/-- A call of one of the functions `wsm_*`; none when it has written outside of the block. -/
def WsmBuf.call (b : WsmBuf) (c : Call) (e : Env) : Option Result :=
  match b.puts c.puts e.krealloc with
  | .done b' => b'.send c e
  | .nomem b' => some ⟨-enomem, none, b'⟩
  | .overrun => none

/-- The results of a sequence of calls, up to the first that writes outside of the block. -/
def WsmBuf.transcript (b : WsmBuf) : List (Call × Env) → List (Call × Option Result)
  | [] => []
  | (c, e) :: cs =>
    (c, b.call c e) ::
      match b.call c e with
      | some r => r.buf.transcript cs
      | none => []

end Atbm6441.Wsm.Buf
