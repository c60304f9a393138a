import Atbm6441.Ether.Model

/-!
# The chain of RX handlers

The way of a received frame from `atbm_rx_cb` of `txrx.c` through `ieee80211_rx_handlers` of `rx.c`,
up to `ieee80211_rx_h_data`, which ends every data frame. The reorder buffer lies between
`ieee80211_rx_h_check` and the handlers: what is written into `skb->cb` at the arrival is read when
the frame is handled. A handler that dereferences a NULL pointer has no result.
-/

namespace Atbm6441.Rx.Handlers

open Atbm6441.Ieee80211 Atbm6441.Ether Atbm6441.Rx.Replay

/-- `enum ieee80211_enc_type`; a key that has not been set has the type `0`. -/
inductive EncType
  | unset | type | wep | tkip | aes | aesCmac | wapi
deriving DecidableEq

/-- What the handlers read of `struct sta_info`. -/
structure StaInfo where
  /-- `WLAN_STA_ASSOC` -/
  assoc : Bool
  /-- `WLAN_STA_AUTHORIZED` -/
  authorized : Bool
  enc : Bool
  keyType : EncType
  lastSeqCtrl : ℕ → ℕ

/-- What they read and write of `struct atbm_vif`. -/
structure Vif where
  /-- the interface type and the packet number counters -/
  replay : AtbmVif
  addr : EtherAddr
  groupKeyType : EncType
  /-- `ap_info.enc` -/
  apEnc : Bool

/-- `vif->type`. -/
def Vif.type (vif : Vif) : Nl80211Iftype := vif.replay.type

/-- A received buffer with its `struct ieee80211_rx_status`. -/
structure RxSkb where
  data : List UInt8
  decrypted : Bool
  ivStripped : Bool
  mmicError : Bool
  /-- `IEEE80211_RX_RA_MATCH` -/
  raMatch : Bool
  /-- `IEEE80211_RX_AMSDU` -/
  amsdu : Bool

/-! ### Arrival -/

/-- `atbm_rx_cb`: the status of the frame, if it is not dropped; `5` is `WSM_STATUS_MICFAILURE`. -/
def atbmRxCb (status : ℕ) (d : List UInt8) : Option RxSkb :=
  if status ≠ 0 ∧ status ≠ 5 then none
  else if d.length < 16 then none
  else some
    { data := d, decrypted := ieee80211HasProtected (frameControl d), ivStripped := status = 5,
      mmicError := status = 5, raMatch := false, amsdu := false }

/-- `NUM_RX_DATA_QUEUES`. -/
def numRxDataQueues : ℕ := 16

/-- `ieee80211_parse_qos`: the frame and `seqno_idx`. -/
def ieee80211ParseQos (skb : RxSkb) : RxSkb × ℕ :=
  let fc := frameControl skb.data
  if ieee80211IsDataQos fc then
    let qc := byteAt skb.data (ieee80211GetQosCtl fc)
    (if qc &&& 0x80 ≠ 0 then { skb with amsdu := true } else skb, qc &&& 0x0f)
  else (skb, numRxDataQueues)

/-- `ieee80211_get_bssid` finds an address; a block ack request has `0x0084`. -/
def hasBssid (d : List UInt8) : Bool :=
  let fc := frameControl d
  if d.length < 16 then false
  else if ieee80211IsData fc then 24 ≤ d.length && !ieee80211HasA4 fc
  else if ieee80211IsMgmt fc then 24 ≤ d.length
  else ieee80211IsPspoll fc || fc &&& 0x00fc == 0x0084

/-- `prepare_for_handlers`. -/
def prepareForHandlers (vif : Vif) (skb : RxSkb) : Option RxSkb :=
  match vif.type with
  | .station =>
    if ¬ hasBssid skb.data then none
    else if ¬ isMulticastEtherAddr skb.data ∧ etherAddrAt skb.data 4 ≠ vif.addr.bytes then
      some { skb with raMatch := false }
    else some skb
  | .ap | .apVlan => some skb
  | _ => none

/-- `ieee80211_rx_h_check`: the station as it is left, and whether the frame goes on. -/
def ieee80211RxHCheck (sta : Option StaInfo) (seqnoIdx : ℕ) (d : List UInt8) :
    Option StaInfo × Bool :=
  let fc := frameControl d
  let needsSta := ieee80211IsData fc || ieee80211IsPspoll fc
  match sta with
  | none => (none, ¬ d.length < 16 ∧ ¬ needsSta)
  | some sta =>
    if isMulticastEtherAddr d then (some sta, ¬ d.length < 16 ∧ (needsSta → sta.assoc))
    else if ieee80211HasRetry fc ∧ sta.lastSeqCtrl seqnoIdx = seqCtrl d then (some sta, false)
    else
      (some { sta with lastSeqCtrl := Function.update sta.lastSeqCtrl seqnoIdx (seqCtrl d) },
        ¬ d.length < 16 ∧ (needsSta → sta.assoc))

/-- From `atbm_rx_cb` to the end of `ieee80211_rx_h_check`: the frame as it goes to the reorder
buffer, with the station that sent it. -/
def arrive (vif : Vif) (sta : Option StaInfo) (status : ℕ) (d : List UInt8) :
    Option (RxSkb × Option StaInfo) :=
  match atbmRxCb status d with
  | none => none
  | some skb =>
    if ¬ ieee80211IsMgmt (frameControl d) ∧ d.length < ieee80211Hdrlen (frameControl d) then none
    else
      let (skb, seqnoIdx) := ieee80211ParseQos skb
      match prepareForHandlers vif { skb with raMatch := true } with
      | none => none
      | some skb =>
        match ieee80211RxHCheck sta seqnoIdx d with
        | (sta, true) => some (skb, sta)
        | (_, false) => none

/-! ### Handlers -/

/-- `ieee80211_rx_result`. -/
inductive RxResult
  | cont | queued | dropMonitor | dropUnusable
deriving DecidableEq

/-- The buffer of the frame, or a copy that the A-MSDU splitter has made. -/
inductive Buf
  | skb
  | copy (n : ℕ)
deriving DecidableEq

/-- What becomes of a buffer. -/
inductive Disposal
  /-- `atbm_netif_rx`, with the Ethernet frame in it -/
  | netifRx (b : Buf) (frame : List UInt8)
  | kfree (b : Buf)

/-- What the handlers depend on besides the frame: whether it can be linearized, and which copies
can be allocated. -/
structure RxEnv where
  linearize : Bool
  alloc : ℕ → Bool

/-- `struct ieee80211_rx_data`, with what has become of the buffers. -/
structure RxData where
  skb : RxSkb
  vif : Vif
  sta : Option StaInfo
  key : Option EncType
  log : List Disposal

/-- The end of a handler; `none` is a NULL pointer that is dereferenced. -/
abbrev Handled := Option (RxResult × RxData)

def RxData.setData (rx : RxData) (d : List UInt8) : RxData :=
  { rx with skb := { rx.skb with data := d } }

/-- The 802.11 header is moved over the `n` bytes behind it, and the buffer pulled by `n`. -/
def moveHeader (d : List UInt8) (hdrlen n : ℕ) : List UInt8 :=
  (d.take hdrlen ++ d.drop (hdrlen + n)).take (d.length - n)

/-- `ieee80211_crypto_wep_decrypt`; an IV and an ICV have 4 bytes. -/
def cryptoWepDecrypt (rx : RxData) : RxResult × RxData :=
  let d := rx.skb.data
  let fc := frameControl d
  if ¬ ieee80211IsData fc ∧ ¬ ieee80211IsAuth fc then (.cont, rx)
  else if ¬ rx.skb.decrypted then (.dropUnusable, rx)
  else if rx.skb.ivStripped then (.cont, rx)
  else
    let d := moveHeader d (ieee80211Hdrlen fc) 4
    (.cont, rx.setData (d.take (d.length - 4)))

/-- `ieee80211_crypto_tkip_decrypt`: the length behind the header is computed in 32 bits. -/
def cryptoTkipDecrypt (rx : RxData) : RxResult × RxData :=
  let d := rx.skb.data
  let hdrlen := ieee80211Hdrlen (frameControl d)
  if ¬ ieee80211IsData (frameControl d) then (.cont, rx)
  else if (d.length + 0x100000000 - hdrlen) % 0x100000000 < 12 then (.dropUnusable, rx)
  else (.cont, rx.setData (moveHeader (d.take (d.length - 4)) hdrlen 8))

/-- `ieee80211_crypto_ccmp_decrypt`; the CCMP header and the MIC have 8 bytes. -/
def cryptoCcmpDecrypt (rx : RxData) : RxResult × RxData :=
  let d := rx.skb.data
  let hdrlen := ieee80211Hdrlen (frameControl d)
  if ¬ ieee80211IsData (frameControl d) ∧ ¬ ieee80211IsRobustMgmtFrame d then (.cont, rx)
  else if d.length < hdrlen + 8 + 8 then (.dropUnusable, rx)
  else (.cont, rx.setData (moveHeader (d.take (d.length - 8)) hdrlen 8))

/-- `ieee80211_crypto_aes_cmac_decrypt`; an MMIE has 18 bytes. -/
def cryptoAesCmacDecrypt (rx : RxData) : RxResult × RxData :=
  let d := rx.skb.data
  if ¬ ieee80211IsMgmt (frameControl d) then (.cont, rx)
  else if d.length < 24 + 18 then (.dropUnusable, rx)
  else if byteAt d (d.length - 18) ≠ 76 ∨ byteAt d (d.length - 17) ≠ 16 then (.dropUnusable, rx)
  else (.cont, rx.setData (d.take (d.length - 18)))

/-- `ccmp_tkip_replaycnt`, in front of the decryption of TKIP and CCMP. -/
def withReplaycnt (rx : RxData) (isCcmp : Bool) (decrypt : RxData → RxResult × RxData) :
    RxResult × RxData :=
  let r := ccmpTkipReplaycnt rx.vif.replay rx.skb.data isCcmp
  if r.1 ≠ 0 then (.dropUnusable, { rx with vif := { rx.vif with replay := r.2 } })
  else decrypt { rx with vif := { rx.vif with replay := r.2 } }

/-- `ieee80211_rx_h_decrypt`. -/
def rxHDecrypt (env : RxEnv) (rx : RxData) : Handled :=
  let rx := { rx with key := none }
  if ¬ rx.skb.raMatch then some (.cont, rx)
  else if ¬ env.linearize then some (.dropUnusable, rx)
  else
    match rx.sta with
    | none => some (.cont, rx)
    | some sta =>
      if sta.enc = false then some (.cont, rx)
      else if ¬ rx.skb.decrypted then some (.cont, rx)
      else if rx.skb.ivStripped then some (.cont, rx)
      else
        let key := if isMulticastEtherAddr rx.skb.data then rx.vif.groupKeyType else sta.keyType
        let rx := { rx with key := some key }
        match key with
        | .wep => some (cryptoWepDecrypt rx)
        | .tkip => some (withReplaycnt rx false cryptoTkipDecrypt)
        | .aes => some (withReplaycnt rx true cryptoCcmpDecrypt)
        | .aesCmac => some (cryptoAesCmacDecrypt rx)
        | _ => some (.dropUnusable, rx)

/-- `ieee80211_rx_h_sta_process`. -/
def rxHStaProcess (rx : RxData) : Handled :=
  let fc := frameControl rx.skb.data
  if rx.sta.isNone ∨ ¬ rx.skb.raMatch then some (.cont, rx)
  else if ieee80211IsNullfunc fc ∨ ieee80211IsQosNullfunc fc then
    some (.queued, { rx with log := rx.log ++ [.kfree .skb] })
  else some (.cont, rx)

/-- `ieee80211_rx_h_michael_mic_verify`; the Michael MIC has 8 bytes. The flag that the MIC has been
stripped is never set. -/
def rxHMichaelMicVerify (rx : RxData) : Handled :=
  let d := rx.skb.data
  if rx.key ≠ some .tkip ∨ rx.sta.isNone ∨ ¬ rx.skb.decrypted then some (.cont, rx)
  else if ¬ ieee80211IsDataPresent (frameControl d) then some (.cont, rx)
  else if rx.skb.ivStripped ∨ rx.skb.mmicError then some (.dropUnusable, rx)
  else if d.length < ieee80211Hdrlen (frameControl d) + 8 then some (.dropUnusable, rx)
  else some (.cont, rx.setData (d.take (d.length - 8)))

/-- `ieee80211_rx_h_remove_qos_control`. -/
def rxHRemoveQosControl (rx : RxData) : Handled :=
  some (.cont, rx.setData (removeQosControl rx.skb.data))

/-! ### The A-MSDU splitter -/

/-- The length of a subframe with its header. -/
def subframeLen (d : List UInt8) : ℕ := 14 + be16At d 12

/-- The bytes from the end of a subframe to the next multiple of 4. -/
def padding (d : List UInt8) : ℕ := (4 - subframeLen d % 4) % 4

/-- The Ethernet frame of a subframe with the header in front of `d`. -/
def subframeTo8023 (d body : List UInt8) : List UInt8 :=
  if isSnap body then d.take 12 ++ body.drop 6 else d.take 14 ++ body

/-- The loop of `atbm_ieee80211_amsdu_to_8023s` with `n` subframes behind it: what it appends to the
list, or `none` if it purges it. `atbm_compare_ether_addr` is true of different addresses. -/
def amsduTo8023sLoop (alloc : ℕ → Bool) (n : ℕ) (d : List UInt8) :
    Option (List (Buf × List UInt8)) :=
  if d.length < subframeLen d then none
  else if etherAddrAt d 0 ≠ rfc1042Header then none
  else if d.length ≤ subframeLen d + padding d then
    some [(.skb, subframeTo8023 d (d.drop 14))]
  else if ¬ alloc n then none
  else
    (amsduTo8023sLoop alloc (n + 1) (d.drop (subframeLen d + padding d))).map fun l =>
      (.copy n, subframeTo8023 d ((d.drop 14).take (be16At d 12))) :: l
termination_by d.length
decreasing_by
  simp only [List.length_drop]
  unfold subframeLen at *
  omega

/-- `atbm_ieee80211_amsdu_to_8023s`, with an 802.11 header in front. -/
def amsduTo8023s (env : RxEnv) (d : List UInt8) (addr : EtherAddr) (iftype : Nl80211Iftype) :
    Option (List (Buf × List UInt8)) :=
  match ieee80211DataTo8023 d addr iftype with
  | none => none
  | some eth => if eth.length < 14 then none else amsduTo8023sLoop env.alloc 0 (eth.drop 14)

/-- `ieee80211_rx_h_amsdu`: what goes to the stack, or `none` for an error; no result if it reads
the cipher of a key that has not been selected. -/
def ieee80211RxHAmsdu (env : RxEnv) (rx : RxData) : Option (Option (List (Buf × List UInt8))) :=
  let d := rx.skb.data
  let rest := if rx.vif.type = .station ∧ ¬ rx.skb.decrypted ∧ rx.vif.apEnc then none
    else amsduTo8023s env d rx.vif.addr rx.vif.type
  if ¬ ieee80211IsDataPresent (frameControl d) then some none
  else if isMulticastEtherAddr d then some none
  else if rx.skb.decrypted then
    match rx.key with
    | none => none
    | some .wep | some .tkip => some none
    | some _ => some rest
  else some rest

/-! ### Delivery -/

/-- `ieee80211_802_1x_port_control`, `true` for success. -/
def portControl (rx : RxData) : Bool := rx.sta.any StaInfo.authorized

/-- `ieee80211_drop_unencrypted`, `true` for a frame that passes; it reads `rx->sta`. -/
def dropUnencrypted (rx : RxData) (sta : StaInfo) (fc : ℕ) : Bool :=
  rx.skb.decrypted || !(!ieee80211HasProtected fc && !ieee80211IsNullfunc fc &&
    ieee80211IsData fc && sta.enc)

/-- `ieee80211_frame_allowed`. -/
def frameAllowed (rx : RxData) (fc : ℕ) : Bool :=
  portControl rx && rx.sta.any fun sta => dropUnencrypted rx sta fc

/-- `ieee80211_deliver_skb`. -/
def ieee80211DeliverSkb (rx : RxData) : RxData :=
  if rx.vif.type = .station ∧ ¬ rx.skb.decrypted ∧ rx.vif.apEnc then
    { rx with log := rx.log ++ [.kfree .skb] }
  else { rx with log := rx.log ++ [.netifRx .skb rx.skb.data] }

/-- `ieee80211_rx_h_data`. -/
def rxHData (env : RxEnv) (rx : RxData) : Handled :=
  let fc := frameControl rx.skb.data
  if ¬ ieee80211IsData fc then some (.cont, rx)
  else if ¬ ieee80211IsDataPresent fc then some (.dropMonitor, rx)
  else if rx.skb.amsdu then
    match ieee80211RxHAmsdu env rx with
    | none => none
    | some none => some (.dropUnusable, rx)
    | some (some frames) =>
      some (.queued, { rx with
        log := rx.log ++ frames.map (fun f => .netifRx f.1 f.2) ++ [.kfree .skb] })
  else
    match ieee80211DataTo8023 rx.skb.data rx.vif.addr rx.vif.type with
    | none => some (.dropUnusable, rx)
    | some eth =>
      let rx := rx.setData eth
      if ¬ frameAllowed rx fc then some (.dropMonitor, rx)
      else some (.queued, ieee80211DeliverSkb rx)

/-- `CALL_RXH`: the next handler is called if this one says so. -/
def callRxh (h : Handled) (next : RxData → Handled) : Handled :=
  match h with
  | none => none
  | some (.cont, rx) => next rx
  | some (res, rx) => some (res, rx)

/-- `ieee80211_rx_handlers_result`. -/
def handlersResult : Handled → Option RxData
  | none => none
  | some (.queued, rx) => some rx
  | some (_, rx) => some { rx with log := rx.log ++ [.kfree .skb] }

/-- `ieee80211_rx_handlers` for a frame that the reorder buffer hands on, in the state of the
interface and of its station at that time. -/
def ieee80211RxHandlers (env : RxEnv) (vif : Vif) (sta : Option StaInfo) (skb : RxSkb) : Handled :=
  callRxh (rxHDecrypt env ⟨skb, vif, sta, none, []⟩) fun rx =>
  callRxh (rxHStaProcess rx) fun rx =>
  callRxh (rxHMichaelMicVerify rx) fun rx =>
  callRxh (rxHRemoveQosControl rx) (rxHData env)

end Atbm6441.Rx.Handlers
