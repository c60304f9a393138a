import Atbm6441.Lib.Cursor
import Atbm6441.Wsm.MultiRx.Model

/-!
# Parsing a message of the device

`atbm_rx_directly` of `bh_sdio.c` and, in `wsm.c`, `wsm_handle_exception`, `wsm_handle_rx` and the
parsers of confirms and indications that it calls. The message lies at the start of a memory that
goes on behind it, and `Parsed` records what is read. What the parsers store is left out, as are the
`BUG_ON`s on the capabilities of the firmware and the frames that a receive indication hands on to
`atbm_rx_cb`; a pointer does not wrap around.
-/

namespace Atbm6441.Wsm.Rx

open Atbm6441.Lib Atbm6441.Wsm.MultiRx

/-- `EINVAL`. -/
def einval : ℤ := 22

/-- What the host knows when a message comes. -/
structure Host where
  /-- the messages that came before, up to four -/
  recvCnt : ℕ
  rxResync : Bool
  wsmRxSeq : ℕ
  /-- what `wsm_release_tx_buffer` returns -/
  releaseTxBuffer : ℤ
  /-- `wsm_cmd.cmd` -/
  cmd : ℕ
  /-- the size of the buffer that `wsm_cmd.arg` names, none when it is `NULL` -/
  arg : Option ℕ
  /-- `ABwifi_hwpriv_to_vifpriv`, and whether the type of the interface is specified -/
  vif : ℕ → Option Bool
  /-- `atbm_kzalloc` returns memory -/
  alloc : Bool

/-- `wsm_seq`. -/
def wsmSeq (m : RxBuf) : ℕ := (m.le16 2 >>> 13) &&& 7

/-! ### Confirms -/

def wsmReadShmemConfirm (bufSize : ℕ) : Get ℤ := do
  let status ← Get.num 4
  if status ≠ 0 then return -einval
  else
    let _ ← Get.bytes bufSize
    return 0

def wsmWriteShmemConfirm : Get ℤ := do
  let status ← Get.num 4
  return if status ≠ 0 then -einval else 0

def wsmGenericGetConfirm (bufSize : ℕ) : Get ℤ := do
  let _ ← Get.bytes bufSize
  return 0

def wsmGenericConfirm : Get ℤ := do
  let status ← Get.num 4
  return if status ≠ 0 then -einval else 0

def wsmConfirmForSdioAlive : Get ℤ := do
  let status ← Get.num 4
  let notify ← Get.num 4
  return if status = 0 ∧ notify = 2121 then 0 else -1

/-- The ids of the confirms for `wsm_generic_get_confirm`. -/
def genericGetIds : List ℕ :=
  [0x0402, 0x040B, 0x040C, 0x0411, 0x0412, 0x041E, 0x041F, 0x0421, 0x0427, 0x0429, 0x042A, 0x042B,
    0x042D, 0x0433]

/-- The ids of the confirms that are not parsed: join, scan, wifimode, channel and set country. -/
def emptyIds : List ℕ := [0x0403, 0x040A, 0x040D, 0x040F, 0x0410]

/-- The ids of the confirms for `wsm_generic_confirm`. -/
def genericIds : List ℕ :=
  [0x0409, 0x0408, 0x040E, 0x0413, 0x0414, 0x0415, 0x0416, 0x0417, 0x0418, 0x0419, 0x041A, 0x041B,
    0x041C, 0x041D, 0x0420, 0x0422, 0x0423, 0x0424, 0x0425, 0x0426, 0x042C, 0x0430, 0x0431, 0x042E,
    0x042F, 0x0432, 0x0434, 0x0435, 0x0436, 0x0437, 0x0438, 0x0439]

/-- The parser of a confirm, none for the `BUG_ON` of the default case. -/
def confirm (id : ℕ) (arg : Option ℕ) : Option (Get ℤ) :=
  if id = 0x0400 then some (arg.elim (return 0) wsmReadShmemConfirm)
  else if id = 0x0401 then some (arg.elim (return 0) fun _ => wsmWriteShmemConfirm)
  else if id ∈ genericGetIds then some (arg.elim (return 0) wsmGenericGetConfirm)
  else if id ∈ emptyIds then some (return 0)
  else if id ∈ genericIds then some wsmGenericConfirm
  else if id = 0x043A then some wsmConfirmForSdioAlive
  else none

/-! ### Indications -/

def wsmStartupIndication : Get ℤ := do
  let _numInpChBufs ← Get.num 2
  let _sizeInpChBuf ← Get.num 2
  let _hardwareId ← Get.num 2
  let _hardwareSubId ← Get.num 2
  let status ← Get.num 2
  let _firmwareCap ← Get.num 2
  let firmwareType ← Get.num 2
  let _firmwareApiVer ← Get.num 2
  let _firmwareBuildNumber ← Get.num 2
  let _firmwareVersion ← Get.num 2
  let _fwLabel ← Get.bytes 128
  let _config ← Get.words 4
  let _firmwareCap2 ← Get.num 2
  return if status ≠ 0 then -einval else if 4 < firmwareType then -einval else 0

/-- `WSM_EVENT_SDIO_INPUTCHAN_EVNET`. -/
def sdioInputchanEvnet : ℕ := 3

/-- `WSM_EVENT_HOST_RMMOD`, `_INSMOD`, `_WAKEUP_REASON`, `_DISCONN_REASON` and `_CONN_ERR_REASON`. -/
def hostEvents : List ℕ := [10, 11, 12, 13, 14]

/-- `MAX_SDIO_EVENT_BUFFER_LEN`. -/
def maxSdioEventBufferLen : ℕ := 504

def wsmEventIndication (h : Host) (interfaceLinkId : ℕ) : Get ℤ := do
  let eventid ← Get.num 4
  if eventid ∉ hostEvents ∧ h.vif interfaceLinkId ≠ some true then return 0
  else if eventid = sdioInputchanEvnet then
    let _ ← Get.num 4
    return 0
  else if h.alloc then
    let _ ← Get.bytes maxSdioEventBufferLen
    return 0
  else return 0

def wsmReceiveIndication (h : Host) (interfaceLinkId : ℕ) : Get ℤ := do
  let _status ← Get.num 4
  let _channelNumber ← Get.num 2
  let _rxedRate ← Get.num 1
  let _rcpiRssi ← Get.num 1
  let _flags ← Get.num 4
  let _channelType ← Get.num 4
  if h.vif interfaceLinkId = none then return 0
  else
    -- `fctl` is read through a cast
    Get.peek 2 fun _ => return 0

/-- The parser of an indication. -/
def indication (h : Host) (interfaceLinkId id : ℕ) : Get ℤ :=
  if id = 0x0801 then wsmStartupIndication
  else if id = 0x0805 then wsmEventIndication h interfaceLinkId
  else if id = 0x0804 ∨ id = 0x0814 then wsmReceiveIndication h interfaceLinkId
  else return 0

/-! ### The message -/

/-- What a function has done with a message: its reads, whether a field went beyond the end, the value
returned, the result that a confirm has given to the sender, and whether a `BUG_ON` was reached. -/
structure Parsed where
  reads : List (ℕ × ℕ)
  underflow : Bool
  ret : ℤ
  cmdRet : Option ℤ
  bug : Bool

/-- `wsm_handle_rx`. -/
def wsmHandleRx (h : Host) (id : ℕ) (m : RxBuf) : Parsed :=
  let interfaceLinkId := (id >>> 6) &&& 0x0F
  let id := id &&& 0xFC3F
  if id &&& 0x0400 ≠ 0 then
    if id &&& 0xFBFF ≠ h.cmd &&& 0xFC3F then ⟨[(0, 2)], false, -einval, none, false⟩
    else
      match confirm id h.arg with
      | some p =>
        let o := p.run m.mem (m.wsmLen 0) 4
        ⟨(0, 2) :: o.reads, o.val.isNone, 0, some (o.val.getD (-einval)), false⟩
      | none => ⟨[(0, 2)], false, 0, none, true⟩
  else if id &&& 0x0800 ≠ 0 then
    let o := (indication h interfaceLinkId id).run m.mem (m.wsmLen 0) 4
    ⟨(0, 2) :: o.reads, o.val.isNone, o.val.getD (-einval), none, false⟩
  else ⟨[(0, 2)], false, -einval, none, false⟩

/-- The fields of an exception. -/
def exceptionFields : Get ℤ := do
  let _reason ← Get.num 4
  let _reg ← Get.words 18
  let _fname ← Get.bytes 32
  return 0

/-- `wsm_handle_exception`, with its bytes from a position on; on an underflow they are dumped. -/
def wsmHandleException (m : RxBuf) (pos len : ℕ) : Parsed :=
  let o := exceptionFields.run m.mem (pos + len) pos
  match o.val with
  | some ret => ⟨o.reads, false, ret, none, false⟩
  | none => ⟨o.reads ++ [(pos, len)], true, -einval, none, false⟩

/-- `atbm_rx_directly`, for a message that is not aggregated. -/
def atbmRxDirectly (h : Host) (m : RxBuf) : Parsed :=
  if h.recvCnt < 4 then ⟨[], false, 0, none, false⟩
  else if m.wsmId 0 = 0x0800 then
    let x := wsmHandleException m 4 (u32 ((m.wsmLen 0 : ℤ) - 4))
    { x with reads := (0, 4) :: x.reads, ret := -1 }
  else if ¬ h.rxResync ∧ wsmSeq m ≠ h.wsmRxSeq then ⟨[(0, 4)], false, -2, none, false⟩
  else if m.wsmId 0 &&& 0x0400 ≠ 0 ∧ h.releaseTxBuffer < 0 then ⟨[(0, 4)], false, -3, none, false⟩
  else
    let x := wsmHandleRx h (m.wsmId 0) m
    let u := atbmRxTasklet m (m.wsmId 0) fun _ => x.ret
    { x with reads := (0, 4) :: u.reads ++ x.reads, ret := if u.ret ≠ 0 then -4 else 0 }

end Atbm6441.Wsm.Rx
