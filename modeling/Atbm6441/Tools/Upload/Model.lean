import Atbm6441.Ioctl.Dispatch.Safe
import Atbm6441.Lib.Parts

/-!
# Files for the firmware

`update_fw_cmd` and `customer_cert_save_cmd` of `tools.c`: a new firmware, or a certificate, is read
from a file and given to the driver in ioctls of one part each, up to the first that fails or a read
that is short; and what the driver makes of them, down to the messages. An ioctl that fails may have
sent its message or not. The tool casts the addresses of its structures to `unsigned int`: the host is
one of 32 bits.
-/

namespace Atbm6441.Tools.Upload

open Atbm6441.Lib Atbm6441.Lib.Parts Atbm6441.Wsm.Buf Atbm6441.Ioctl.Dispatch

/-! ### The driver -/

/-- What an ioctl meets; `arrives` is whether its message reaches the firmware, should it fail. -/
structure Site where
  world : World 32
  stack : Vector UInt8 8
  krealloc : ℕ → Alloc
  arrives : Bool

/-- A process with the bytes `req` at `addr`. -/
def user (W : World 32) (addr : BitVec 32) (req : List UInt8) : World 32 :=
  { W with
    copyFromUser := fun a n =>
      if a = addr then if h : req.length = n then some ⟨⟨req⟩, h⟩ else none
      else W.copyFromUser a n }

/-- The ioctls so far, and whether their messages have arrived. -/
abbrev Log := List (Request 32 × Bool)

/-- The processes and the driver: what each ioctl meets, and where the tool has its structure. -/
structure Kernel where
  site : ℕ → Site
  addr : BitVec 32
  addr_ne : addr ≠ 0

/-- An ioctl of the tool. -/
def Kernel.ioctl (K : Kernel) (log : Log) (cmd : Code) (req : List UInt8) : ℤ × Log :=
  let s := K.site log.length
  let r : Request 32 := ⟨user s.world K.addr req, s.stack, cmd, K.addr, s.krealloc⟩
  (r.outcome.ret, log ++ [(r, r.outcome.ret = 0 || s.arrives)])

/-! ### The tool -/

/-- `struct update_info`. -/
structure UpdateInfo where
  status : BitVec 32
  len : BitVec 32
  data : Vector UInt8 1024
  start : UInt8
  endFlag : UInt8
  restart : UInt8

def UpdateInfo.bytes (u : UpdateInfo) : List UInt8 :=
  leBytes 4 u.status.toNat ++ leBytes 4 u.len.toNat ++ u.data.toList ++
    [u.start, u.endFlag, u.restart, 0]

/-- `struct customer_cert_save_req`. -/
structure CertSaveReq where
  status : BitVec 32
  certType : BitVec 32
  data : Vector UInt8 1024
  length : BitVec 16
  first : UInt8
  remain : UInt8

def CertSaveReq.bytes (c : CertSaveReq) : List UInt8 :=
  leBytes 4 c.status.toNat ++ leBytes 4 c.certType.toNat ++ c.data.toList ++
    leBytes 2 c.length.toNat ++ [c.first, c.remain]

/-- A file that is open: the bytes from its position on, and how many of them each read gets at most. -/
structure File where
  bytes : List UInt8
  reads : ℕ → ℕ

/-- What `fread` gets of `n` bytes, and the file after it. -/
def File.read (file : File) (n : ℕ) : List UInt8 × File :=
  let n := min n (file.reads 0)
  (file.bytes.take n, ⟨file.bytes.drop n, fun i => file.reads (i + 1)⟩)

/-- `fread` into a buffer. -/
def fread (data : Vector UInt8 1024) (bs : List UInt8) : Vector UInt8 1024 :=
  .ofFn fun i => bs.getD i data[i]

/-- How a command ends: its result, how often the file was closed, and the ioctls. -/
structure Ended where
  ret : ℤ
  closed : ℕ
  log : Log

/-- The loop of `update_fw_cmd`; none when it fails. -/
def updateLoop (K : Kernel) (update : UpdateInfo) (firstWrite : Bool) (file : File) (len : ℕ)
    (log : Log) : Option UpdateInfo × Log :=
  if len = 0 then (some update, log)
  else
    let readLen := if firstWrite then 512 else if 512 ≤ len then 512 else len
    let got := file.read readLen
    if got.1.length ≠ readLen then (none, log)
    else
      let update := { update with data := fread update.data got.1, len := readLen }
      match K.ioctl log .updateFw update.bytes with
      | (ret, log) =>
        if ret ≠ 0 then (none, log)
        else updateLoop K update false got.2 (len - readLen) log
termination_by len
decreasing_by split_ifs <;> omega

/-- The size of a file, if a `long` of 32 bits holds it. -/
def ftell (file : File) : ℤ := if file.bytes.length < 2 ^ 31 then file.bytes.length else -1

/-- A size that is not negative is that of the whole file. -/
theorem take_ftell {file : File} (h : 0 < ftell file) :
    file.bytes.take (ftell file).toNat = file.bytes := by
  unfold ftell at h ⊢
  split_ifs at h ⊢
  · exact List.take_length
  · omega

/-- `update_fw_cmd` with the file open. -/
def updateFile (K : Kernel) (file : File) (log : Log) : Ended :=
  if ftell file ≤ 512 then ⟨-1, 0, log⟩
  else
    let update : UpdateInfo := ⟨0, 0, .replicate 1024 0, 0, 0, 0⟩
    match K.ioctl log .updateFw update.bytes with
    | (ret, log) =>
      if ret ≠ 0 then ⟨-1, 0, log⟩
      else match updateLoop K { update with start := 1 } true file (ftell file).toNat log with
        | (none, log) => ⟨-1, 1, log⟩
        | (some update, log) =>
          match K.ioctl log .updateFw { update with start := 0, endFlag := 1 }.bytes with
          | (ret, log) => if ret ≠ 0 then ⟨-1, 2, log⟩ else ⟨0, 1, log⟩

/-- `update_fw_cmd`: `argc` is the length of `argv`. -/
def updateFwCmd (K : Kernel) (argv : List String) (fopen : String → Option File) (log : Log) :
    Ended :=
  match argv with
  | [] => ⟨-1, 0, log⟩
  | path :: _ =>
    match fopen path with
    | none => ⟨-1, 0, log⟩
    | some file => updateFile K file log

/-- The loop of `customer_cert_save_cmd`; whether it comes to its end. -/
def certLoop (K : Kernel) (req : CertSaveReq) (file : File) (len : ℕ) (log : Log) : Bool × Log :=
  if len = 0 then (true, log)
  else
    let readLen := if 1024 < len then 1024 else len
    let got := file.read readLen
    if got.1.length ≠ readLen then (false, log)
    else
      let req := { req with
        remain := if 1024 < len then 1 else 0
        data := fread req.data got.1
        length := readLen }
      match K.ioctl log .customerCert req.bytes with
      | (ret, log) =>
        if ret ≠ 0 then (false, log)
        else certLoop K { req with first := 0 } got.2 (len - readLen) log
termination_by len
decreasing_by split_ifs <;> omega

/-- The types of certificates. -/
def certType (arg : String) : Option (BitVec 32) :=
  if arg = "CERT" then some 0
  else if arg = "PRIV_KEY" then some 1
  else if arg = "ROOT_CA" then some 2
  else none

/-- `customer_cert_save_cmd` with the file open. -/
def saveCert (K : Kernel) (ty : BitVec 32) (file : File) (log : Log) : Ended :=
  if 2048 < ftell file then ⟨-1, 0, log⟩
  else match certLoop K ⟨0, ty, .replicate 1024 0, 0, 1, 0⟩ file (ftell file).toNat log with
    | (ok, log) => ⟨if ok then 0 else -1, 1, log⟩

/-- `customer_cert_save_cmd`. -/
def customerCertSaveCmd (K : Kernel) (argv : List String) (fopen : String → Option File)
    (log : Log) : Ended :=
  match argv with
  | [type, path] =>
    match certType type, fopen path with
    | none, _ | some _, none => ⟨-1, 0, log⟩
    | some ty, some file => saveCert K ty file log
  | _ => ⟨-1, 0, log⟩

/-- A command of the tool, with its arguments and what `fopen` returns. -/
inductive ToolCmd
  | updateFw (argv : List String) (fopen : String → Option File)
  | customerCert (argv : List String) (fopen : String → Option File)

def ToolCmd.run (K : Kernel) (log : Log) : ToolCmd → Ended
  | .updateFw argv fopen => updateFwCmd K argv fopen log
  | .customerCert argv fopen => customerCertSaveCmd K argv fopen log

/-- Commands one after the other, with their results. -/
def session (K : Kernel) : Log → List ToolCmd → List (ToolCmd × ℤ) × Log
  | log, [] => ([], log)
  | log, c :: cs =>
    let e := c.run K log
    let r := session K e.log cs
    ((c, e.ret) :: r.1, r.2)

/-! ### The messages and their reading -/

/-- The messages that arrive, of ioctls that build them one after the other in the one buffer. -/
def wire (fresh : ℕ → UInt8) (log : Log) : List (List UInt8) :=
  let results := (WsmBuf.init (some fresh)).transcript (log.flatMap fun r => r.1.calls)
  (log.zip results).filterMap fun x => if x.1.2 then x.2.2.bind Result.msg else none

/-- What is sent. -/
inductive Image
  | firmware
  | cert (type : ℕ)
deriving DecidableEq

/-- A part of a firmware: the message that is neither the start nor the end opens it. -/
def updatePart (l : List UInt8) : Part Image UInt8 where
  key := .firmware
  opens := l.getD 1032 0 = 0 ∧ l.getD 1033 0 = 0
  data := if l.getD 1032 0 = 0 then [] else (l.drop 8).take (leNat ((l.drop 4).take 4))
  closes := l.getD 1033 0 ≠ 0

/-- A part of a certificate. -/
def certPart (l : List UInt8) : Part Image UInt8 where
  key := .cert (leNat ((l.drop 4).take 4))
  opens := l.getD 1034 0 ≠ 0
  data := (l.drop 8).take (leNat ((l.drop 1032).take 2))
  closes := l.getD 1035 0 = 0

/-- The part that a message is. -/
def partOf (m : List UInt8) : Option (Part Image UInt8) :=
  if leNat ((m.drop 6).take 2) = 0x20 then some (updatePart (m.drop hdrTxLen))
  else if leNat ((m.drop 6).take 2) = 0x39 then some (certPart (m.drop hdrTxLen))
  else none

end Atbm6441.Tools.Upload
