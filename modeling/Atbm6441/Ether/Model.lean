import Atbm6441.Ieee80211.Hdr
import Atbm6441.Rx.Replay.Model

/-!
# Between Ethernet and 802.11 data frames

`atbm_subif_start_xmit` of `iface.c` builds an 802.11 data frame from an Ethernet frame;
`ieee80211_rx_h_remove_qos_control` of `rx.c` and `ieee80211_data_to_8023` of `atbm_os_proto.c` lead
back. A buffer is the list of its bytes from `skb->data` on: a pull drops bytes and a push puts
bytes in front. The CPU is little-endian.
-/

namespace Atbm6441.Ether

open Atbm6441.Ieee80211
open Atbm6441.Rx.Replay (Nl80211Iftype)

/-! ### Addresses and types -/

/-- A MAC address: `ETH_ALEN` bytes. -/
structure EtherAddr where
  bytes : List UInt8
  length_bytes : bytes.length = 6

/-- The address at an offset. -/
def etherAddrAt (d : List UInt8) (off : ℕ) : List UInt8 :=
  (List.range 6).map fun i => d.getD (off + i) 0

/-- `is_multicast_ether_addr`. -/
def isMulticast (a : List UInt8) : Bool := byteAt a 0 &&& 1 != 0

/-- `ETH_P_AARP`. -/
def ethPAarp : ℕ := 0x80f3

/-- `ETH_P_IPX`. -/
def ethPIpx : ℕ := 0x8137

def rfc1042Header : List UInt8 := [0xaa, 0xaa, 0x03, 0x00, 0x00, 0x00]

def bridgeTunnelHeader : List UInt8 := [0xaa, 0xaa, 0x03, 0x00, 0x00, 0xf8]

/-- A big-endian 16-bit field. -/
def be16At (d : List UInt8) (i : ℕ) : ℕ := byteAt d i * 256 + byteAt d (i + 1)

/-- The two bytes of a `u16` in memory. -/
def le16 (n : ℕ) : List UInt8 := [UInt8.ofNat n, UInt8.ofNat (n / 256)]

/-! ### Transmission -/

/-- What `atbm_subif_start_xmit` reads of `struct atbm_vif`. -/
structure TxVif where
  type : Nl80211Iftype
  addr : EtherAddr
  /-- `ap_info.bssid` -/
  bssid : EtherAddr

/-- The rest of what it depends on: `is_pre_rmmod`, the stations that `sta_info_get` finds with
their `wmm`, whether the copies of the buffer can be allocated, and `skb->priority`. -/
structure XmitEnv where
  isPreRmmod : Bool
  staInfoGet : List UInt8 → Option Bool
  alloc : Bool
  priority : ℕ

/-- The type or length field of an Ethernet frame. -/
def ethertype (skb : List UInt8) : ℕ := be16At skb 12

/-- `encaps_data`. -/
def encapsData (ethertype : ℕ) : List UInt8 :=
  if ethertype = ethPAarp ∨ ethertype = ethPIpx then bridgeTunnelHeader
  else if 0x600 ≤ ethertype then rfc1042Header
  else []

/-- `skip_header_bytes`. -/
def skipHeaderBytes (ethertype : ℕ) : ℕ :=
  if ethertype = ethPAarp ∨ ethertype = ethPIpx then 14 - 2
  else if 0x600 ≤ ethertype then 14 - 2
  else 14

/-- The frame control field without QoS, and the three addresses. -/
def TxVif.hdr (vif : TxVif) (skb : List UInt8) :
    Option (ℕ × List UInt8 × List UInt8 × List UInt8) :=
  match vif.type with
  | .station => some (0x0008 ||| 0x0100, vif.bssid.bytes, etherAddrAt skb 6, etherAddrAt skb 0)
  | .ap => some (0x0008 ||| 0x0200, etherAddrAt skb 0, vif.addr.bytes, etherAddrAt skb 6)
  | _ => none

/-- The first 24 bytes of `struct ieee80211_hdr`; `duration_id` and `seq_ctrl` are zero. -/
def hdrBytes (fc : ℕ) (a1 a2 a3 : List UInt8) : List UInt8 :=
  le16 fc ++ [0, 0] ++ a1 ++ a2 ++ a3 ++ [0, 0]

/-- `atbm_set_qos_hdr`. -/
def atbmSetQosHdr (priority : ℕ) (d : List UInt8) : List UInt8 :=
  let fc := frameControl d
  if ieee80211IsDataQos fc then
    let p := ieee80211GetQosCtl fc
    (d.set p (UInt8.ofNat (byteAt d p &&& 0x10 ||| priority &&& 0x7))).set (p + 1) 0
  else d

/-- `atbm_subif_start_xmit`: the frame that it gives to `atbm_tx`, if it does not drop the buffer. -/
def atbmSubifStartXmit (vif : TxVif) (env : XmitEnv) (skb : List UInt8) : Option (List UInt8) :=
  if env.isPreRmmod then none
  else if skb.length < 14 then none
  else
    match vif.hdr skb with
    | none => none
    | some (fc, a1, a2, a3) =>
      let fc := if ¬ isMulticast a1 ∧ env.staInfoGet a1 = some true then fc ||| 0x0080 else fc
      if ¬ env.alloc then none
      else
        let body := encapsData (ethertype skb) ++ skb.drop (skipHeaderBytes (ethertype skb))
        some (atbmSetQosHdr env.priority
          (if ieee80211IsDataQos fc then hdrBytes fc a1 a2 a3 ++ [0, 0] ++ body
          else hdrBytes fc a1 a2 a3 ++ body))

/-! ### Reception -/

/-- `ieee80211_get_SA`. -/
def ieee80211GetSA (d : List UInt8) : List UInt8 :=
  if ieee80211HasA4 (frameControl d) then etherAddrAt d 24
  else if ieee80211HasFromds (frameControl d) then etherAddrAt d 16
  else etherAddrAt d 10

/-- `ieee80211_get_DA`. -/
def ieee80211GetDA (d : List UInt8) : List UInt8 :=
  if ieee80211HasTods (frameControl d) then etherAddrAt d 16 else etherAddrAt d 4

/-- `ieee80211_rx_h_remove_qos_control`: the header is moved over the QoS control field. -/
def removeQosControl (d : List UInt8) : List UInt8 :=
  let fc := frameControl d
  if ieee80211IsDataQos fc then
    let d := d.take (ieee80211Hdrlen fc - 2) ++ d.drop (ieee80211Hdrlen fc)
    d.set 0 (UInt8.ofNat (byteAt d 0 &&& 0x7f))
  else d

/-- The directions that `ieee80211_data_to_8023` lets pass. -/
def dsAllowed (fc : ℕ) (iftype : Nl80211Iftype) (dst src : List UInt8) (addr : EtherAddr) : Bool :=
  if ieee80211HasA4 fc then false
  else if ieee80211HasTods fc then iftype = .ap ∨ iftype = .p2pGo
  else if ieee80211HasFromds fc then
    (iftype = .station ∨ iftype = .p2pClient) ∧ ¬ (isMulticast dst ∧ src = addr.bytes)
  else iftype = .adhoc ∨ iftype = .station

/-- The payload of a data frame begins with an RFC1042 or bridge-tunnel header to be removed. -/
def isSnap (payload : List UInt8) : Bool :=
  (etherAddrAt payload 0 = rfc1042Header ∧ be16At payload 6 ≠ ethPAarp ∧
    be16At payload 6 ≠ ethPIpx) ∨ etherAddrAt payload 0 = bridgeTunnelHeader

/-- The Ethernet frame of a payload. Without a header to be removed, what `ethertype` holds goes
into the length field as it is in memory. -/
def llcTo8023 (dst src payload : List UInt8) : List UInt8 :=
  if isSnap payload then dst ++ src ++ payload.drop 6
  else dst ++ src ++ le16 (be16At payload 6) ++ payload

/-- `ieee80211_data_to_8023`. -/
def ieee80211DataTo8023 (d : List UInt8) (addr : EtherAddr) (iftype : Nl80211Iftype) :
    Option (List UInt8) :=
  let fc := frameControl d
  if ¬ ieee80211IsDataPresent fc then none
  else if ¬ dsAllowed fc iftype (ieee80211GetDA d) (ieee80211GetSA d) addr then none
  else some (llcTo8023 (ieee80211GetDA d) (ieee80211GetSA d) (d.drop (ieee80211Hdrlen fc)))

/-! ### Addresses in a buffer -/

theorem length_etherAddrAt (d : List UInt8) (off : ℕ) : (etherAddrAt d off).length = 6 := by
  simp [etherAddrAt]

theorem etherAddrAt_append {a : List UInt8} (ha : a.length = 6) (l : List UInt8) :
    etherAddrAt (a ++ l) 0 = a := by
  refine List.ext_getElem (by simp [etherAddrAt, ha]) fun i h _ => ?_
  rw [length_etherAddrAt] at h
  simp [etherAddrAt, List.getD_eq_getElem?_getD, List.getElem?_append_left (ha ▸ h),
    List.getElem?_eq_getElem (ha ▸ h)]

theorem etherAddrAt_append_right {l : List UInt8} {n : ℕ} (hn : l.length = n) (m : List UInt8)
    (k : ℕ) : etherAddrAt (l ++ m) (n + k) = etherAddrAt m k := by
  refine List.map_congr_left fun i _ => ?_
  rw [List.getD_eq_getElem?_getD, List.getElem?_append_right (by omega),
    ← List.getD_eq_getElem?_getD, show n + k + i - l.length = k + i by omega]

theorem byteAt_append_right {l : List UInt8} {n : ℕ} (hn : l.length = n) (m : List UInt8) (k : ℕ) :
    byteAt (l ++ m) (n + k) = byteAt m k := by
  unfold byteAt
  rw [List.getD_eq_getElem?_getD, List.getElem?_append_right (by omega),
    ← List.getD_eq_getElem?_getD, show n + k - l.length = k by omega]

theorem ether_eq {f : List UInt8} (h : 14 ≤ f.length) :
    f = etherAddrAt f 0 ++ etherAddrAt f 6 ++ f.drop 12 := by
  obtain ⟨a, l, rfl, ha⟩ : ∃ a l, f = a ++ l ∧ a.length = 6 :=
    ⟨f.take 6, f.drop 6, (List.take_append_drop 6 f).symm, by rw [List.length_take]; omega⟩
  rw [List.length_append, ha] at h
  obtain ⟨b, m, rfl, hb⟩ : ∃ b m, l = b ++ m ∧ b.length = 6 :=
    ⟨l.take 6, l.drop 6, (List.take_append_drop 6 l).symm, by rw [List.length_take]; omega⟩
  have hright := etherAddrAt_append_right ha (b ++ m) 0
  rw [Nat.add_zero] at hright
  rw [etherAddrAt_append ha, hright, etherAddrAt_append hb, ← List.append_assoc,
    List.drop_left' (by rw [List.length_append, ha, hb])]

end Atbm6441.Ether
