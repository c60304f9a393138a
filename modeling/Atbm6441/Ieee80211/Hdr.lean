import Mathlib.Data.List.Basic
import Mathlib.Tactic.Common

/-!
# 802.11 headers

The socket buffer as the receive path sees it, the fields of the 802.11 header, and the predicates
of `atbm_os_proto.c` on the frame control field.
-/

namespace Atbm6441.Ieee80211

/-- A received buffer: the bytes from `data` on, `len` of them. -/
structure SkBuff where
  data : List UInt8
deriving DecidableEq, Repr

/-- `skb->len`. -/
def SkBuff.len (skb : SkBuff) : ℕ := skb.data.length

/-- The byte at an offset. -/
def byteAt (d : List UInt8) (i : ℕ) : ℕ := (d.getD i 0).toNat

/-- A little-endian 16-bit field. -/
def le16At (d : List UInt8) (i : ℕ) : ℕ := byteAt d i + 256 * byteAt d (i + 1)

/-- `hdr->frame_control`. -/
def frameControl (d : List UInt8) : ℕ := le16At d 0

theorem frameControl_take {n : ℕ} (hn : 2 ≤ n) (d : List UInt8) :
    frameControl (d.take n) = frameControl d := by
  unfold frameControl le16At byteAt
  rw [List.getD_eq_getElem?_getD, List.getD_eq_getElem?_getD, List.getElem?_take_of_lt (by omega),
    List.getElem?_take_of_lt (by omega), ← List.getD_eq_getElem?_getD, ← List.getD_eq_getElem?_getD]

/-- `hdr->seq_ctrl`. -/
def seqCtrl (d : List UInt8) : ℕ := le16At d 22

/-- The multicast bit of `hdr->addr1`. -/
def isMulticastEtherAddr (d : List UInt8) : Bool := byteAt d 4 &&& 1 != 0

def ieee80211HasTods (fc : ℕ) : Bool := fc &&& 0x0100 != 0

def ieee80211HasFromds (fc : ℕ) : Bool := fc &&& 0x0200 != 0

def ieee80211HasA4 (fc : ℕ) : Bool := fc &&& 0x0300 == 0x0300

def ieee80211HasRetry (fc : ℕ) : Bool := fc &&& 0x0800 != 0

def ieee80211HasProtected (fc : ℕ) : Bool := fc &&& 0x4000 != 0

def ieee80211HasOrder (fc : ℕ) : Bool := fc &&& 0x8000 != 0

def ieee80211IsMgmt (fc : ℕ) : Bool := fc &&& 0x000c == 0

def ieee80211IsCtl (fc : ℕ) : Bool := fc &&& 0x000c == 0x0004

def ieee80211IsData (fc : ℕ) : Bool := fc &&& 0x000c == 0x0008

def ieee80211IsDataQos (fc : ℕ) : Bool := fc &&& 0x008c == 0x0088

/-- A data frame of a subtype that carries data. -/
def ieee80211IsDataPresent (fc : ℕ) : Bool := fc &&& 0x004c == 0x0008

def ieee80211IsNullfunc (fc : ℕ) : Bool := fc &&& 0x00fc == 0x0048

def ieee80211IsQosNullfunc (fc : ℕ) : Bool := fc &&& 0x00fc == 0x00c8

def ieee80211IsAuth (fc : ℕ) : Bool := fc &&& 0x00fc == 0x00b0

def ieee80211IsDeauth (fc : ℕ) : Bool := fc &&& 0x00fc == 0x00c0

def ieee80211IsDisassoc (fc : ℕ) : Bool := fc &&& 0x00fc == 0x00a0

def ieee80211IsAction (fc : ℕ) : Bool := fc &&& 0x00fc == 0x00d0

def ieee80211IsPspoll (fc : ℕ) : Bool := fc &&& 0x00fc == 0x00a4

/-- `ieee80211_is_robust_mgmt_frame`: the action categories it leaves out are public, HT,
self-protected and vendor-specific. -/
def ieee80211IsRobustMgmtFrame (d : List UInt8) : Bool :=
  let fc := frameControl d
  if ieee80211IsDisassoc fc || ieee80211IsDeauth fc then true
  else if ieee80211IsAction fc then
    ieee80211HasProtected fc || !([4, 7, 15, 127].contains (byteAt d 24))
  else false

/-- The length of the 802.11 header. -/
def ieee80211Hdrlen (fc : ℕ) : ℕ :=
  if ieee80211IsData fc then
    (if ieee80211HasA4 fc then 30 else 24) +
      (if ieee80211IsDataQos fc then 2 + (if ieee80211HasOrder fc then 4 else 0) else 0)
  else if ieee80211IsCtl fc then
    if fc &&& 0x00e0 == 0x00c0 then 10 else 16
  else 24

/-- The offset of the QoS control field. -/
def ieee80211GetQosCtl (fc : ℕ) : ℕ := if ieee80211HasA4 fc then 30 else 24

/-- The traffic identifier of a QoS frame. -/
def qosCtlTid (d : List UInt8) : ℕ := byteAt d (ieee80211GetQosCtl (frameControl d)) &&& 0x000f

/-- The EtherType of a data frame is that of EAPOL (802.1X). -/
def ieee80211FrameEapol (d : List UInt8) : Bool :=
  let fc := frameControl d
  if ieee80211IsData fc && 34 < d.length then
    let eapolIndex := if ieee80211IsDataQos fc then 30 + 2 else 30
    byteAt d eapolIndex * 256 + byteAt d (eapolIndex + 1) == 0x888e
  else false

/-! ### The kinds of frames -/

section

variable {fc : ℕ}

theorem mask_part {m k v : ℕ} (h : fc &&& m = v) (hk : m &&& k = k) : fc &&& k = v &&& k := by
  rw [← h, Nat.and_assoc, hk]

theorem isData_of_present (h : ieee80211IsDataPresent fc = true) : ieee80211IsData fc = true := by
  unfold ieee80211IsDataPresent at h
  unfold ieee80211IsData
  rw [beq_iff_eq] at h ⊢
  exact mask_part h rfl

theorem isData_of_qos (h : ieee80211IsDataQos fc = true) : ieee80211IsData fc = true := by
  unfold ieee80211IsDataQos at h
  unfold ieee80211IsData
  rw [beq_iff_eq] at h ⊢
  exact mask_part h rfl

theorem isMgmt_of_data (h : ieee80211IsData fc = true) : ieee80211IsMgmt fc = false := by
  unfold ieee80211IsData at h
  rw [beq_iff_eq] at h
  rw [ieee80211IsMgmt, h]
  rfl

theorem isData_of_mgmt (h : ieee80211IsMgmt fc = true) : ieee80211IsData fc = false := by
  refine Bool.eq_false_iff.mpr fun hdata => ?_
  rw [isMgmt_of_data hdata] at h
  cases h

theorem isDataPresent_of_mgmt (h : ieee80211IsMgmt fc = true) :
    ieee80211IsDataPresent fc = false := by
  refine Bool.eq_false_iff.mpr fun hpresent => ?_
  have hdata := isData_of_present hpresent
  rw [isData_of_mgmt h] at hdata
  cases hdata

theorem isDataQos_of_mgmt (h : ieee80211IsMgmt fc = true) : ieee80211IsDataQos fc = false := by
  refine Bool.eq_false_iff.mpr fun hqos => ?_
  have hdata := isData_of_qos hqos
  rw [isData_of_mgmt h] at hdata
  cases hdata

theorem isPspoll_of_mgmt (h : ieee80211IsMgmt fc = true) : ieee80211IsPspoll fc = false := by
  unfold ieee80211IsMgmt at h
  unfold ieee80211IsPspoll
  rw [beq_iff_eq] at h
  rw [beq_eq_false_iff_ne]
  intro hpoll
  have hkind : fc &&& 0x000c = 0x00a4 &&& 0x000c := mask_part hpoll rfl
  rw [h] at hkind
  cases hkind

theorem hdrlen_mgmt (h : ieee80211IsMgmt fc = true) : ieee80211Hdrlen fc = 24 := by
  have hctl : ieee80211IsCtl fc = false := by
    unfold ieee80211IsMgmt at h
    rw [beq_iff_eq] at h
    rw [ieee80211IsCtl, h]
    rfl
  rw [ieee80211Hdrlen, isData_of_mgmt h, hctl, if_neg Bool.false_ne_true,
    if_neg Bool.false_ne_true]

end

end Atbm6441.Ieee80211
