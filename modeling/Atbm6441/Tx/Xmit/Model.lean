import Atbm6441.Ether.Model
import Atbm6441.Lib.Memory
import Atbm6441.Rx.Handlers.Model
import Mathlib.Data.Int.Init

/-!
# Transmission of a frame

`atbm_subif_start_xmit` of `iface.c` and `atbm_tx` of `txrx.c` with its helpers, on a buffer with
its memory: the pushes in front of `skb->data`, the way the frame takes, and who gives the buffer
away.
`skb_clone`, `pskb_expand_head` and `skb_padto` are those of the operating system; a failing
`skb_padto` frees its buffer.
-/

namespace Atbm6441.Tx.Xmit

open Atbm6441.Lib Atbm6441.Ieee80211
open Atbm6441.Ether (TxVif encapsData ethertype skipHeaderBytes isMulticast hdrBytes)
open Atbm6441.Rx.Handlers (EncType)
open Atbm6441.Rx.Replay (Nl80211Iftype)

/-! ### Keys -/

/-- `enc_type > IEEE80211_ENC_TYPE`. -/
def encrypts : EncType → Bool
  | .unset | .type => false
  | _ => true

/-- The lengths of the IV and of the ICV that go with a cipher. -/
def cipherLens : EncType → ℕ × ℕ
  | .wep => (4, 4)
  | .tkip => (8, 4)
  | .aes => (8, 8)
  | .aesCmac => (0, 18)
  | .wapi => (18, 16)
  | _ => (0, 0)

/-- `struct ieee80211_key` with `conf.iv_len` and `conf.icv_len`, which are those of the cipher when
there is one. -/
structure Key where
  keyType : EncType
  ivLen : ℕ
  icvLen : ℕ
  lens_eq : encrypts keyType = true → (ivLen, icvLen) = cipherLens keyType

/-- The cipher suites that `atbm_sta_key_config` knows. -/
inductive CipherSuite
  | wep40 | wep104 | tkip | ccmp | aesCmac
  | other
deriving DecidableEq

/-- `atbm_sta_key_config`. -/
def atbmStaKeyConfig (key : Key) : CipherSuite → Key
  | .wep40 | .wep104 => ⟨.wep, 4, 4, fun _ => rfl⟩
  | .tkip => ⟨.tkip, 8, 4, fun _ => rfl⟩
  | .ccmp => ⟨.aes, 8, 8, fun _ => rfl⟩
  | .aesCmac => ⟨.aesCmac, 0, 18, fun _ => rfl⟩
  | .other => key

/-- The values of `keyMgmt`. -/
inductive KeyMgmt
  | none | wep | wepShared | wpa | wpa2
  | other
deriving DecidableEq

/-- The key that `atbm_wsm_set_ap_cfg` and the start in AP mode configure. -/
def apKeyConfig (key : Key) : KeyMgmt → Key
  | .none => ⟨.type, key.ivLen, key.icvLen, nofun⟩
  | .wep | .wepShared => ⟨.wep, 4, 4, fun _ => rfl⟩
  | .wpa => ⟨.tkip, 8, 4, fun _ => rfl⟩
  | .wpa2 => ⟨.aes, 8, 8, fun _ => rfl⟩
  | .other => key

/-! ### The state -/

/-- What the transmission reads of `struct sta_info`. -/
structure StaInfo where
  wmm : Bool
  aid : ℕ
  key : Key
  bgnMode : ℕ
  shortGI : Bool

/-- What it reads of `struct atbm_vif`. -/
structure AtbmVif where
  /-- the type and the addresses -/
  ether : TxVif
  staInfoGet : List UInt8 → Option StaInfo
  groupKey : Key
  enabled : Bool
  ifId : ℕ

/-- `struct sk_buff`: addresses, the memory, `skb_shared` and `skb_cloned`; and the pushes so far,
each with the headroom there was. -/
structure SkBuff where
  mem : ℕ → UInt8
  head : ℕ
  data : ℕ
  len : ℕ
  shared : Bool
  cloned : Bool
  queueMapping : ℕ
  priority : ℕ
  pushes : List (ℕ × ℕ)

namespace SkBuff

/-- The bytes of the frame. -/
def bytes (skb : SkBuff) : List UInt8 := slice skb.mem skb.data skb.len

/-- `atbm_skb_headroom`. -/
def headroom (skb : SkBuff) : ℕ := skb.data - skb.head

/-- `atbm_skb_push`, which does not check the headroom. -/
def push (skb : SkBuff) (n : ℕ) : SkBuff :=
  { skb with
    data := skb.data - n, len := skb.len + n, pushes := skb.pushes ++ [(n, skb.headroom)] }

/-- `atbm_skb_pull`. -/
def pull (skb : SkBuff) (n : ℕ) : SkBuff := { skb with data := skb.data + n, len := skb.len - n }

/-- Bytes written at an offset from `skb->data`. -/
def store (skb : SkBuff) (off : ℕ) (l : List UInt8) : SkBuff :=
  { skb with mem := writes skb.mem (skb.data + off) l }

/-- `memcpy(atbm_skb_push(skb, n), …, n)`. -/
def pushBytes (skb : SkBuff) (l : List UInt8) : SkBuff := (skb.push l.length).store 0 l

end SkBuff

/-- What the operating system does: `skb_clone` succeeds; where `pskb_expand_head` puts the new
buffer, unless it fails, and the memory there; `skb_padto` succeeds. -/
structure Env where
  isPreRmmod : Bool
  clone : Bool
  expandHead : Option ℕ
  fresh : ℕ → UInt8
  padto : Bool

/-! ### `atbm_tx` -/

/-- `WSM_TX_EXTRA_HEADROOM`. -/
def wsmTxExtraHeadroom : ℕ := 28 + 4

/-- `atbm_tx_h_crypt`: none when it fails. -/
def atbmTxHCrypt (sta : Option StaInfo) (skb : SkBuff) (vif : AtbmVif) : Option SkBuff :=
  let (encType, ivLen) :=
    match sta with
    | none => (vif.groupKey.keyType, vif.groupKey.ivLen)
    | some sta => (sta.key.keyType, sta.key.ivLen)
  if ¬ encrypts encType then some skb
  else if skb.headroom < wsmTxExtraHeadroom + ivLen then none
  else
    let fc := frameControl skb.bytes ||| 0x4000
    let skb := (skb.store 0 (leBytes 2 fc)).push ivLen
    -- the header is moved over the room for the IV
    some (skb.store 0 (slice skb.mem (skb.data + ivLen) (ieee80211Hdrlen fc)))

/-- `atbm_tx_h_align`: the buffer and the flags, none when it fails. -/
def atbmTxHAlign (skb : SkBuff) : Option (SkBuff × ℕ) :=
  let offset := skb.data % 4
  if offset = 0 then some (skb, 0)
  else if offset % 2 = 1 then none
  else if skb.headroom < offset then none
  else some (skb.push offset, 0x80)

/-- `struct wsm_tx`; the other fields are zero. -/
structure WsmTx where
  len : ℕ
  id : ℕ
  maxTxRate : ℕ
  queueId : ℕ
  flags : ℕ
  htTxParameters : ℕ

/-- Its bytes: `hdr` with `flag`, `len` and `id`, then `packetID`, `maxTxRate`, `queueId`, `more`,
`flags`, `reserved`, `expireTime` and `htTxParameters`. -/
def WsmTx.bytes (wsm : WsmTx) : List UInt8 :=
  leBytes 4 0 ++ leBytes 2 wsm.len ++ leBytes 2 wsm.id ++ leBytes 4 0 ++
    [.ofNat wsm.maxTxRate, .ofNat wsm.queueId, 0, .ofNat wsm.flags] ++ leBytes 4 0 ++
    leBytes 4 0 ++ leBytes 4 wsm.htTxParameters

/-- `ieee802_1d_to_ac`; `VO`, `VI`, `BE` and `BK` are 0 to 3. -/
def ieee8021dToAc : List ℕ := [2, 3, 3, 2, 1, 1, 0, 0]

/-- `wsm_queue_id_to_wsm`. -/
def wsmQueueIdToWsm (queueId : ℕ) : ℕ := [3, 2, 0, 1].getD queueId 0

/-- `atbm_tx_h_wsm`: the buffer with room for the descriptor, and the descriptor. -/
def atbmTxHWsm (sta : Option StaInfo) (skb : SkBuff) (vif : AtbmVif) : SkBuff × WsmTx :=
  let queueid := ieee8021dToAc.getD (skb.priority &&& 7) 0
  let (encType, icvLen) :=
    match sta with
    | none => (vif.groupKey.keyType, vif.groupKey.icvLen)
    | some sta => (sta.key.keyType, sta.key.icvLen)
  let icvLen := if ¬ encrypts encType then 0 else icvLen
  let icvLen := if encType = .tkip then (icvLen + 8) % 256 else icvLen
  let aid := match sta with
    | none => 0
    | some sta => sta.aid
  let skb := skb.push 28
  (skb,
    { len := skb.len + icvLen
      id := 0x0004 ||| (vif.ifId &&& 0xf) <<< 6
      maxTxRate := 0
      queueId := aid <<< 2 ||| wsmQueueIdToWsm queueid
      flags := 0
      htTxParameters := 0x200 })

/-- `atbm_tx_h_rate_policy`. -/
def atbmTxHRatePolicy (sta : Option StaInfo) (wsm : WsmTx) : WsmTx :=
  match sta with
  | none => { wsm with maxTxRate := 3 }
  | some sta =>
    let n := sta.bgnMode.testBit 2
    let wsm :=
      if n then { wsm with maxTxRate := 18, flags := wsm.flags ||| 1 <<< 4 }
      else if sta.bgnMode.testBit 1 then { wsm with maxTxRate := 11 }
      else { wsm with maxTxRate := 3 }
    let wsm := if n then { wsm with htTxParameters := wsm.htTxParameters ||| 1 } else wsm
    if sta.shortGI then { wsm with htTxParameters := wsm.htTxParameters ||| 4 } else wsm

/-- How `atbm_tx` ends. -/
inductive TxEnd
  /-- the buffer is freed -/
  | dropped (skb : SkBuff)
  /-- `skb_padto` has freed the buffer, and it is freed -/
  | padFailed (skb : SkBuff)
  /-- `atbm_submit_package` queues the buffer -/
  | queued (skb : SkBuff)

/-- `frame->addr1`. -/
def SkBuff.addr1 (skb : SkBuff) : List UInt8 := slice skb.mem (skb.data + 4) 6

/-- The receiver is a station that is known, or `atbm_tx` lets a frame to it pass without one. -/
def addressed (vif : AtbmVif) (addr1 : List UInt8) : Bool :=
  (vif.staInfoGet addr1).isSome ||
    match vif.ether.type with
    | .station => false
    | .ap => isMulticast addr1
    | _ => true

/-- `atbm_tx`. The descriptor is written when all of its fields are known. -/
def atbmTx (vif : AtbmVif) (env : Env) (skb : SkBuff) : TxEnd :=
  if ¬ vif.enabled then .dropped skb
  else if 4 ≤ skb.queueMapping then .dropped skb
  else if ¬ addressed vif skb.addr1 then .dropped skb
  else
    let sta := vif.staInfoGet skb.addr1
    match atbmTxHCrypt sta skb vif with
    | none => .dropped skb
    | some skb =>
      match atbmTxHAlign skb with
      | none => .dropped skb
      | some (skb, flags) =>
        let (skb, wsm) := atbmTxHWsm sta skb vif
        let wsm := atbmTxHRatePolicy sta { wsm with flags := wsm.flags ||| flags }
        let wsm := { wsm with htTxParameters := wsm.htTxParameters &&& 0xfffffeff }
        let skb := skb.store 0 wsm.bytes
        if ¬ env.padto then .padFailed skb else .queued skb

/-! ### `atbm_subif_start_xmit` -/

/-- The fields of `struct ieee80211_hdr` that the function fills in, and `hdrlen`. -/
structure XmitHdr where
  fc : ℕ
  addr1 : List UInt8
  addr2 : List UInt8
  addr3 : List UInt8
  hdrlen : ℕ

/-- The header of a frame; none in a mode without one. -/
def AtbmVif.xmitHdr (vif : AtbmVif) (d : List UInt8) : Option XmitHdr :=
  match vif.ether.hdr d with
  | none => none
  | some (fc, a1, a2, a3) =>
    if ¬ isMulticast a1 ∧ (vif.staInfoGet a1).any StaInfo.wmm then
      some ⟨fc ||| 0x0080, a1, a2, a3, 24 + 2⟩
    else some ⟨fc, a1, a2, a3, 24⟩

/-- `hw_priv->extra_tx_headroom`. -/
def extraTxHeadroom : ℕ := wsmTxExtraHeadroom + 64 + 8 + 12

/-- `IEEE80211_ENCRYPT_HEADROOM`. -/
def ieee80211EncryptHeadroom : ℕ := 20

/-- `pskb_expand_head`: the buffer with its headroom is copied. -/
def pskbExpandHead (skb : SkBuff) (nhead : ℕ) (env : Env) : Option SkBuff :=
  env.expandHead.map fun head =>
    { skb with
      mem := writes env.fresh (head + nhead) (slice skb.mem skb.head (skb.headroom + skb.len))
      head := head
      data := head + nhead + skb.headroom
      cloned := false }

/-- `ieee80211_skb_resize`: none when it fails. -/
def ieee80211SkbResize (skb : SkBuff) (headNeed : ℕ) (env : Env) : Option SkBuff :=
  if skb.cloned = false ∧ headNeed = 0 then some skb else pskbExpandHead skb headNeed env

/-- `head_need`, for the buffer without the Ethernet header. -/
def headNeed (hdr : XmitHdr) (et : ℕ) (skb : SkBuff) : ℤ :=
  hdr.hdrlen + (encapsData et).length - skb.headroom

/-- Room for the headers. -/
def makeRoom (hdr : XmitHdr) (et : ℕ) (skb : SkBuff) (env : Env) : Option SkBuff :=
  let need := headNeed hdr et skb
  if 0 < need ∨ skb.cloned then
    ieee80211SkbResize skb (max 0 (need + ieee80211EncryptHeadroom + extraTxHeadroom)).toNat env
  else some skb

/-- `atbm_set_qos_hdr`. -/
def atbmSetQosHdr (skb : SkBuff) : SkBuff :=
  let fc := frameControl skb.bytes
  if ieee80211IsDataQos fc then
    let p := ieee80211GetQosCtl fc
    skb.store p [.ofNat (byteAt skb.bytes p &&& 0x10 ||| skb.priority &&& 0x7), 0]
  else skb

/-- The headers in front of the payload. -/
def pushHeaders (hdr : XmitHdr) (et : ℕ) (skb : SkBuff) : SkBuff :=
  let skb := if encapsData et = [] then skb else skb.pushBytes (encapsData et)
  let header := hdrBytes hdr.fc hdr.addr1 hdr.addr2 hdr.addr3
  if ieee80211IsDataQos hdr.fc then ((skb.push 2).pushBytes header).store 24 [0, 0]
  else skb.pushBytes header

/-- The caller's buffer, and the clone of it. -/
inductive Buffer
  | caller | clone
deriving DecidableEq

/-- What happens to the buffers. -/
inductive Event
  /-- `skb_clone` -/
  | cloned
  | free (b : Buffer)
  /-- `atbm_submit_package` -/
  | queue (b : Buffer)
deriving DecidableEq

inductive NetdevTx
  | ok | busy
deriving DecidableEq

/-- What a call has come to: its result, the caller's buffer and the one the function works on
afterwards, and what has happened to them. -/
structure XmitEnd where
  ret : NetdevTx
  caller : SkBuff
  skb : SkBuff
  log : List Event

/-- What `atbm_tx` does with the buffer. -/
def TxEnd.log (b : Buffer) : TxEnd → List Event
  | .dropped _ => [.free b]
  | .padFailed _ => [.free b, .free b]
  | .queued _ => [.queue b]

def TxEnd.skb : TxEnd → SkBuff
  | .dropped skb | .padFailed skb | .queued skb => skb

/-- The part of `atbm_subif_start_xmit` after the clone: the result, the buffer, and what happens to
it. -/
def xmitOwn (vif : AtbmVif) (env : Env) (hdr : XmitHdr) (b : Buffer) (skb : SkBuff) :
    NetdevTx × SkBuff × List Event :=
  let et := ethertype skb.bytes
  let skb := skb.pull (skipHeaderBytes et)
  match makeRoom hdr et skb env with
  | none => (.busy, skb, [])
  | some skb =>
    let r := atbmTx vif env (atbmSetQosHdr (pushHeaders hdr et skb))
    (.ok, r.skb, r.log b)

/-- `atbm_subif_start_xmit`. -/
def atbmSubifStartXmit (vif : AtbmVif) (env : Env) (skb : SkBuff) : XmitEnd :=
  if env.isPreRmmod then ⟨.ok, skb, skb, [.free .caller]⟩
  else if skb.len < 14 then ⟨.ok, skb, skb, [.free .caller]⟩
  else
    match vif.xmitHdr skb.bytes with
    | none => ⟨.ok, skb, skb, [.free .caller]⟩
    | some hdr =>
      if skb.shared then
        -- without a clone `dev_kfree_skb` gets NULL
        if ¬ env.clone then ⟨.ok, skb, skb, [.free .caller]⟩
        else
          let (ret, own, log) :=
            xmitOwn vif env hdr .clone { skb with shared := false, cloned := true }
          ⟨ret, skb, own, .cloned :: .free .caller :: log⟩
      else
        let (ret, own, log) := xmitOwn vif env hdr .caller skb
        ⟨ret, own, own, log⟩

end Atbm6441.Tx.Xmit
