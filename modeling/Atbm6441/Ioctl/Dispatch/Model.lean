import Atbm6441.Lib.Cursor
import Atbm6441.Wsm.Buf.Reset

/-!
# The ioctls

`atbm_unlocked_ioctl` and its handlers, between a process and the firmware: what is copied from the
process, the command that is built of it and the answer that is copied back. What a request does to
the mode, the scan, the alive check and the events of the host is in the other modules of `Ioctl`.
-/

namespace Atbm6441.Ioctl.Dispatch

open Atbm6441.Lib Atbm6441.Wsm.Buf

/-! ### The firmware -/

/-- What becomes of a command. -/
inductive Answer
  /-- there is no answer: the result is negative -/
  | fails (e : ℕ)
  /-- what follows the header of the confirm -/
  | confirm (body : List UInt8)

/-- The first word of an answer is `WSM_STATUS_SUCCESS`; with no word, it underflows. -/
def genericConfirm (body : List UInt8) : ℤ :=
  if body.length < 4 then -22 else if leNat (body.take 4) ≠ 0 then -22 else 0

/-- `wsm_confirm_for_sdio_alive`. -/
def confirmForSdioAlive (body : List UInt8) : ℤ :=
  if body.length < 8 then -22
  else if leNat (body.take 4) = 0 ∧ leNat ((body.drop 4).take 4) = 2121 then 0 else -1

/-- What `wsm_handle_rx` makes of the confirm of a command. -/
def confirm : Call → List UInt8 → ℤ
  | .set f _, body =>
    match f with
    | .setScan | .setWifimode | .setWifichannel | .setCountryId => 0
    | .checkAlive => confirmForSdioAlive body
    | _ => genericConfirm body
  | .get _ n, body => if body.length < n then -22 else 0
  | .getScanInfo buffer, body => if body.length < buffer.length then -22 else 0
  | _, _ => 0

/-! ### The process and the driver -/

/-- A request as `atbm_unlocked_ioctl` meets it: a process with pointers of `w` bits, the firmware,
and what the handlers read of the host. -/
structure World (w : ℕ) where
  /-- none when a part of it is not mapped -/
  copyFromUser : BitVec w → (n : ℕ) → Option (Vector UInt8 n)
  /-- whether all of it is copied -/
  copyToUser : BitVec w → List UInt8 → Bool
  answer : Call → Answer
  /-- `char` is a signed type -/
  charSigned : Bool
  /-- the interface 0 exists -/
  vif : Bool
  scanState : Bool
  txFrameQueueEmpty : Bool
  /-- `sizeof(struct wsm_sdio_getconfig_cnf)` -/
  cnfSize : ℕ

/-- What a request does to the process and to the firmware. -/
inductive Event (w : ℕ)
  | read (addr : BitVec w) (n : ℕ)
  | send (c : Call)
  | write (addr : BitVec w) (bytes : List UInt8)

/-- The result of a request. -/
structure Outcome (w : ℕ) where
  ret : ℤ
  log : List (Event w)

variable {w : ℕ}

namespace World

variable (W : World w)

/-- The result of a function `wsm_*`. -/
def wsm (c : Call) : ℤ :=
  match W.answer c with
  | .fails e => -(e + 1 : ℤ)
  | .confirm body => confirm c body

/-- What a function `wsm_*` leaves in the buffer of `n` bytes that its answer is for. -/
def filled (c : Call) (n : ℕ) (left : List UInt8) : List UInt8 :=
  match W.answer c with
  | .fails _ => left
  | .confirm body => if confirm c body = 0 then body.take n else left

/-- A `char` as an `int`. -/
def charVal (c : BitVec 8) : ℤ := if W.charSigned then c.toInt else c.toNat

end World

/-- An argument that goes through an `unsigned int` to a pointer. -/
def narrow (arg : BitVec w) : BitVec w := (arg.setWidth 32).setWidth w

/-- Any error becomes -1. -/
def minusOne (ret : ℤ) : ℤ := if ret ≠ 0 then -1 else ret

/-! ### Their kinds -/

/-- A request with data for the firmware: the test for `NULL`, `copy_from_user`, and the command
that is made of the data, if they are valid. -/
def putData (W : World w) (null : Bool) (data : BitVec w) (n : ℕ)
    (command : List UInt8 → Option Call) (err : ℤ → ℤ) : Outcome w :=
  if null ∧ data = 0 then ⟨-1, []⟩
  else match W.copyFromUser data n with
    | none => ⟨-1, [.read data n]⟩
    | some req =>
      match command req.toList with
      | none => ⟨-1, [.read data n]⟩
      | some c => ⟨err (W.wsm c), [.read data n, .send c]⟩

/-- A request without data: a command, if its argument is valid. -/
def putCommand (W : World w) (c : Option Call) : Outcome w :=
  match c with
  | none => ⟨-1, []⟩
  | some c => ⟨W.wsm c, [.send c]⟩

/-- A request for an answer of `n` bytes; `left` is in the buffer before, `status` is tested in the
answer, and `part` is what is copied to the process. -/
def getData (W : World w) (null : Bool) (data : BitVec w) (f : GetFn) (n : ℕ) (left : List UInt8)
    (status : Bool) (part : List UInt8 → List UInt8) (err : ℤ → ℤ) : Outcome w :=
  if null ∧ data = 0 then ⟨-1, []⟩
  else
    let c := Call.get f n
    let req := W.filled c n left
    if W.wsm c ≠ 0 then ⟨err (W.wsm c), [.send c]⟩
    else if status ∧ leNat (req.take 4) ≠ 0 then ⟨-1, [.send c]⟩
    else ⟨if W.copyToUser data (part req) then 0 else -1, [.send c, .write data (part req)]⟩

/-- `n` bytes that are zero. -/
def zeros (n : ℕ) : List UInt8 := List.replicate n 0

/-- A request of `n` bytes with one that is not zero. -/
def oneByte (n i : ℕ) (v : UInt8) : List UInt8 := (zeros n).set i v

/-- A request for byte `i` of a command of 8 bytes, if its value is in its range. -/
def putChar (W : World w) (refused : ℤ → Bool) (f : SetFn) (i : ℕ) (c : BitVec 8) : Outcome w :=
  putCommand W (if refused (W.charVal c) then none else some (.set f (oneByte 8 i ⟨c⟩)))

/-! ### The handlers -/

section
variable (W : World w) (data : BitVec w)

def atbmWsmPs : Outcome w := putData W true (narrow data) 12 (some ∘ .set .setPsmode) id

/-- The flags of a `struct wsm_join` and its `ssidLength`, at most the size of `ssid`. -/
def joinParameter (join : List UInt8) : List UInt8 :=
  let join := join.set 0 (join.getD 0 0 &&& ~~~0x10)
  if 32 < join.getD 7 0 then join.set 7 32 else join

def atbmWsmConnect : Outcome w :=
  if W.vif then
    putData W true (narrow data) 108 (fun join => some (.join (joinParameter join) 0)) minusOne
  else ⟨-1, []⟩

def atbmWsmGetStatus : Outcome w :=
  getData W false (narrow data) .getConfig W.cnfSize (zeros W.cnfSize) false id id

def atbmWsmTcpFilter : Bool → Outcome w
  | true => putData W true (narrow data) 24 (some ∘ .set .setTcpFilter) id
  | false => getData W true (narrow data) .getTcpFilter 24 (zeros 24) false id minusOne

def atbmWsmSetScan : Outcome w :=
  if W.scanState then ⟨0, []⟩ else putCommand W (some (.set .setScan (zeros 4)))

def atbmWsmGetScanInfo : Outcome w :=
  let data := narrow data
  if data = 0 then ⟨-1, []⟩
  else match W.copyFromUser data 1300 with
    | none => ⟨-1, [.read data 1300]⟩
    | some result =>
      let c := Call.getScanInfo result.toList
      let result := W.filled c 1300 result.toList
      if W.wsm c ≠ 0 then ⟨W.wsm c, [.read data 1300, .send c]⟩
      else if leNat (result.take 4) ≠ 0 then ⟨-1, [.read data 1300, .send c]⟩
      else ⟨if W.copyToUser data result then 0 else -1,
        [.read data 1300, .send c, .write data result]⟩

def atbmWsmSetWifiMode (isAp : BitVec 8) : Outcome w :=
  putChar W (fun v => (v ≠ 0 ∧ v ≠ 1) ∨ ¬ W.vif) .setWifimode 4 isAp

/-- What is sent of a `struct wsm_ap_cfg_req`. -/
def apCfgReq (req : List UInt8) : List UInt8 := if 32 < req.getD 11 0 then req.set 11 32 else req

def atbmWsmSetApCfg : Outcome w :=
  if W.vif then putData W true (narrow data) 112 (some ∘ .set .setApCfg ∘ apCfgReq) id
  else ⟨-1, []⟩

def atbmWsmSetWifiChannel (channel : BitVec 8) : Outcome w :=
  putChar W (fun v => v ≤ 0 ∨ 14 < v) .setWifichannel 5 channel

def atbmWsmSetCountry (country : BitVec 8) : Outcome w :=
  putChar W (fun v => 9 ≤ v) .setCountryId 6 country

def atbmWsmGetCountry : Outcome w :=
  getData W true (narrow data) .getCountryId 8 (zeros 8) false (fun req => [req.getD 6 0]) id

def atbmWsmGetStaList : Outcome w :=
  getData W true (narrow data) .getStalist 32 (zeros 32) false id id

def atbmWsmSmartcfgStart : Outcome w := putCommand W (some (.set .smartCfgStart (zeros 4)))

def atbmWsmSmartcfgStop : Outcome w := putCommand W (some (.set .smartCfgStop (zeros 4)))

def atbmWsmApTouchStart (data : BitVec 8) : Outcome w :=
  putCommand W (some (.set .apTouchStart (oneByte 8 4 (if data ≠ 0 then 1 else 0))))

def atbmWsmApTouchStop : Outcome w := putCommand W (some (.set .apTouchStop (zeros 4)))

def atbmWsmEtfStartTx : Outcome w := putData W true (narrow data) 16 (some ∘ .set .etfStartTx) id

def atbmWsmEtfSingleTone : Outcome w :=
  putData W true (narrow data) 16 (some ∘ .set .etfSingleTone) minusOne

def atbmWsmEtfStopTx : Outcome w := putCommand W (some (.set .etfStopTx (zeros 4)))

def atbmWsmEtfStartRx : Outcome w := putData W true (narrow data) 16 (some ∘ .set .etfStartRx) id

def atbmWsmEtfStartRxNoDrop : Outcome w :=
  putData W true (narrow data) 16 (some ∘ .set .etfStartRxNoDrop) id

def atbmWsmEtfStopRx : Outcome w := putCommand W (some (.set .etfStopRx (zeros 4)))

def atbmWsmEtfResetRx : Outcome w := putCommand W (some (.set .etfResetRx (zeros 4)))

def atbmWsmSetAdaptive : Outcome w := putData W true (narrow data) 8 (some ∘ .set .setAdaptive) id

def atbmWsmGetVersion : Outcome w :=
  getData W true (narrow data) .getVer 132 (zeros 132) false id id

def atbmWsmGetSdkVersion : Outcome w :=
  getData W true (narrow data) .getSdkVer 132 (zeros 132) false id id

def atbmWsmUpdateFw : Outcome w := putData W true (narrow data) 1036 (some ∘ .set .updateFw) id

def atbmWsmSetListenItvl (interval : BitVec 8) : Outcome w :=
  putChar W (fun v => v ≤ 0 ∨ 20 < v) .setListenItvl 4 interval

def atbmWsmSendAtCmd : Outcome w := putData W true (narrow data) 260 (some ∘ .set .sendAtCmd) id

def atbmWsmSetDbgPrint (enable : BitVec 8) : Outcome w :=
  putCommand W (some (.set .setDbgPrint (oneByte 8 4 (if enable ≠ 0 then 1 else 0))))

def atbmWsmFwSleep : Outcome w := putCommand W (some (.set .fwSleep (zeros 4)))

def atbmWsmGetRate : Outcome w := getData W false (narrow data) .getTxRate 8 (zeros 8) false id id

def atbmWsmSendIpcData : Outcome w := putData W true (narrow data) 1024 (some ∘ .sendIpcData) id

def atbmWsmGetRssi : Outcome w := getData W false (narrow data) .getRssi 8 (zeros 8) false id id

def atbmWsmGetTime : Outcome w :=
  getData W false (narrow data) .getTime 40 (zeros 40) true id minusOne

def atbmWsmClearWifiConfig : Outcome w := putCommand W (some (.set .clearWifiConfig (zeros 4)))

def atbmWsmGetEtfRxInfo : Outcome w :=
  getData W false (narrow data) .getEtfRxInfo 16 (zeros 16) true id minusOne

def atbmWsmPreRmmod : Outcome w := ⟨0, []⟩

def atbmWsmIsTxBufferEmpty : Outcome w :=
  let isEmpty := [if W.txFrameQueueEmpty then 1 else 0]
  ⟨if W.copyToUser data isEmpty then 0 else -1, [.write data isEmpty]⟩

def atbmWsmSetWakeupEvent (wakeupEvent : BitVec 32) : Outcome w :=
  putCommand W (some (.set .setWakeupEvent (zeros 4 ++ leBytes 4 wakeupEvent.toNat)))

def atbmWsmAddNetpatternInfo : Outcome w :=
  putData W false data 84 (some ∘ .set .addNetpatternInfo) id

def atbmWsmDelNetpatternInfo : Outcome w :=
  putData W false data 84 (some ∘ .set .delNetpatternInfo) id

def atbmWsmAddConnParamInfo : Outcome w :=
  putData W false data 84 (some ∘ .set .addConnParamInfo) id

def atbmWsmDelConnParamInfo : Outcome w :=
  putData W false data 84 (some ∘ .set .delConnParamInfo) id

def atbmWsmSetWkSsid : Outcome w := putData W false data 40 (some ∘ .set .setWakeupSsid) id

def atbmWsmClearWkSsid : Outcome w := putData W false data 40 (some ∘ .set .clearWakeupSsid) id

/-- `stack` is what is in the buffer, which is not cleared. -/
def atbmWsmConnLoseMap (stack : Vector UInt8 8) : Outcome w :=
  getData W false data .connLose 8 stack.toList false id id

def atbmWsmConnSwitch : Outcome w := putData W false data 12 (some ∘ .set .connSwitch) id

def atbmWsmAutoReconnect : Outcome w := putData W false data 8 (some ∘ .set .autoReconnect) id

def atbmWsmSendCustomerCmd : Outcome w :=
  putData W false data 136 (some ∘ .set .sendCustomerCmd) id

def atbmWsmCustomerCertSave : Outcome w :=
  putData W false data 1036 (some ∘ .set .customerCertSave) id

/-- The command of a `struct wsm_check_alive_req`. -/
def checkAliveReq (req : List UInt8) : Option Call :=
  if leNat ((req.drop 8).take 4) < 1 ∨ leNat ((req.drop 12).take 4) < 2 then none
  else some (.set .checkAlive (req.take 4 ++ leBytes 4 1212 ++ req.drop 8))

def atbmWsmStartCheckAlive : Outcome w := putData W false data 16 checkAliveReq id

end

/-! ### The requests -/

/-- `ATBM_*`. -/
inductive Code
  | psSet | connect | status | setFilter | getFilter | scan | scanInfo | wifiMode | apCfg
  | wifiChannel | setCountry | getCountry | getStalist | smartStart | smartStop | aptouchStart
  | aptouchStop | etfStartTx | etfSingletone | etfStopTx | etfStartRx | etfStopRx | etfResetRx
  | adaptive | version | sdkVersion | updateFw | listenItvl | fwAtCmd | fwDbgPrint
  | etfStartRxNoDrop | fwSleep | txRate | ipcData | rssi | time | clearWifiCfg | etfRxInfo
  | preRmmod | txEmpty | wkupEvent | netpatternAdd | netpatternDel | connParamAdd | connParamDel
  | connLoseMap | connSwitch | setWkSsid | clrWkSsid | autoReconn | customerCmd | customerCert
  | checkAlive
  /-- any other number -/
  | invalid
deriving DecidableEq

/-- `atbm_unlocked_ioctl`. -/
def atbmUnlockedIoctl (W : World w) (stack : Vector UInt8 8) (cmd : Code) (arg : BitVec w) :
    Outcome w :=
  match cmd with
  | .psSet => atbmWsmPs W arg
  | .connect => atbmWsmConnect W arg
  | .status => atbmWsmGetStatus W arg
  | .setFilter => atbmWsmTcpFilter W arg true
  | .getFilter => atbmWsmTcpFilter W arg false
  | .scan => atbmWsmSetScan W
  | .scanInfo => atbmWsmGetScanInfo W arg
  | .wifiMode => atbmWsmSetWifiMode W (arg.setWidth 8)
  | .apCfg => atbmWsmSetApCfg W arg
  | .wifiChannel => atbmWsmSetWifiChannel W (arg.setWidth 8)
  | .setCountry => atbmWsmSetCountry W (arg.setWidth 8)
  | .getCountry => atbmWsmGetCountry W arg
  | .getStalist => atbmWsmGetStaList W arg
  | .smartStart => atbmWsmSmartcfgStart W
  | .smartStop => atbmWsmSmartcfgStop W
  | .aptouchStart => atbmWsmApTouchStart W (arg.setWidth 8)
  | .aptouchStop => atbmWsmApTouchStop W
  | .etfStartTx => atbmWsmEtfStartTx W arg
  | .etfSingletone => atbmWsmEtfSingleTone W arg
  | .etfStopTx => atbmWsmEtfStopTx W
  | .etfStartRx => atbmWsmEtfStartRx W arg
  | .etfStopRx => atbmWsmEtfStopRx W
  | .etfResetRx => atbmWsmEtfResetRx W
  | .adaptive => atbmWsmSetAdaptive W arg
  | .version => atbmWsmGetVersion W arg
  | .sdkVersion => atbmWsmGetSdkVersion W arg
  | .updateFw => atbmWsmUpdateFw W arg
  | .listenItvl => atbmWsmSetListenItvl W (arg.setWidth 8)
  | .fwAtCmd => atbmWsmSendAtCmd W arg
  | .fwDbgPrint => atbmWsmSetDbgPrint W (arg.setWidth 8)
  | .etfStartRxNoDrop => atbmWsmEtfStartRxNoDrop W arg
  | .fwSleep => atbmWsmFwSleep W
  | .txRate => atbmWsmGetRate W arg
  | .ipcData => atbmWsmSendIpcData W arg
  | .rssi => atbmWsmGetRssi W arg
  | .time => atbmWsmGetTime W arg
  | .clearWifiCfg => atbmWsmClearWifiConfig W
  | .etfRxInfo => atbmWsmGetEtfRxInfo W arg
  | .preRmmod => atbmWsmPreRmmod
  | .txEmpty => atbmWsmIsTxBufferEmpty W arg
  | .wkupEvent => atbmWsmSetWakeupEvent W (arg.setWidth 32)
  | .netpatternAdd => atbmWsmAddNetpatternInfo W arg
  | .netpatternDel => atbmWsmDelNetpatternInfo W arg
  | .connParamAdd => atbmWsmAddConnParamInfo W arg
  | .connParamDel => atbmWsmDelConnParamInfo W arg
  | .connLoseMap => atbmWsmConnLoseMap W arg stack
  | .connSwitch => atbmWsmConnSwitch W arg
  | .setWkSsid => atbmWsmSetWkSsid W arg
  | .clrWkSsid => atbmWsmClearWkSsid W arg
  | .autoReconn => atbmWsmAutoReconnect W arg
  | .customerCmd => atbmWsmSendCustomerCmd W arg
  | .customerCert => atbmWsmCustomerCertSave W arg
  | .checkAlive => atbmWsmStartCheckAlive W arg
  | .invalid => ⟨-1, []⟩

end Atbm6441.Ioctl.Dispatch
