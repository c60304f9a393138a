import Atbm6441.Ether.Model

/-!
# There and back again

`roundTrip_ethernetII` : what `atbm_subif_start_xmit` builds from an Ethernet II frame becomes that
frame again at the receiver. `roundTrip_8023_iff` : an IEEE 802.3 frame gets back its length field
exactly when the bytes 6 and 7 of its payload hold the length (`LenInLlc`), because the receiver
writes these into the field in the byte order of memory; `length_lost` : in general it does not.
-/

namespace Atbm6441.Ether

open Atbm6441.Ieee80211
open Atbm6441.Rx.Replay (Nl80211Iftype)

/-! ### The header that was built -/

section

variable {a1 a2 a3 : List UInt8} (h1 : a1.length = 6) (h2 : a2.length = 6) (h3 : a3.length = 6)
  {fc : ℕ} (rest : List UInt8)

theorem hdrBytes_append : hdrBytes fc a1 a2 a3 ++ rest =
    le16 fc ++ ([0, 0] ++ (a1 ++ (a2 ++ (a3 ++ ([0, 0] ++ rest))))) := by
  simp [hdrBytes]

theorem frameControl_le16 (hfc : fc < 0x10000) : frameControl (le16 fc ++ rest) = fc := by
  simp only [frameControl, le16At, byteAt, le16, List.cons_append, List.nil_append,
    List.getD_cons_zero, List.getD_cons_succ, UInt8.toNat_ofNat']
  omega

theorem frameControl_hdrBytes (hfc : fc < 0x10000) :
    frameControl (hdrBytes fc a1 a2 a3 ++ rest) = fc := by
  rw [hdrBytes_append, frameControl_le16 _ hfc]

include h1 in
theorem addr1_hdrBytes : etherAddrAt (hdrBytes fc a1 a2 a3 ++ rest) 4 = a1 := by
  rw [hdrBytes_append, etherAddrAt_append_right (n := 2) rfl _ 2,
    etherAddrAt_append_right (n := 2) rfl _ 0, etherAddrAt_append h1]

include h1 h2 in
theorem addr2_hdrBytes : etherAddrAt (hdrBytes fc a1 a2 a3 ++ rest) 10 = a2 := by
  rw [hdrBytes_append, etherAddrAt_append_right (n := 2) rfl _ 8,
    etherAddrAt_append_right (n := 2) rfl _ 6, etherAddrAt_append_right h1 _ 0,
    etherAddrAt_append h2]

include h1 h2 h3 in
theorem addr3_hdrBytes : etherAddrAt (hdrBytes fc a1 a2 a3 ++ rest) 16 = a3 := by
  rw [hdrBytes_append, etherAddrAt_append_right (n := 2) rfl _ 14,
    etherAddrAt_append_right (n := 2) rfl _ 12, etherAddrAt_append_right h1 _ 6,
    etherAddrAt_append_right h2 _ 0, etherAddrAt_append h3]

include h1 h2 h3 in
theorem length_hdrBytes : (hdrBytes fc a1 a2 a3).length = 24 := by
  simp [hdrBytes, le16, h1, h2, h3]

end

/-- The frame control field with the QoS bit or without. -/
def qosFc (qos : Bool) (ds : ℕ) : ℕ := (if qos then 0x0088 else 0x0008) ||| ds

/-- A data frame with its QoS control field, if it has one. -/
structure IsDataFrame (d : List UInt8) (ds : ℕ) (a1 a2 a3 body : List UInt8) : Prop where
  eq : ∃ qos qc, qc.length = (if qos then 2 else 0) ∧
    d = hdrBytes (qosFc qos ds) a1 a2 a3 ++ qc ++ body
  length1 : a1.length = 6
  length2 : a2.length = 6
  length3 : a3.length = 6

/-- The bits that say whether the frame goes to the AP or comes from it. -/
def IsDs (ds : ℕ) : Prop := ds = 0x0100 ∨ ds = 0x0200

section

variable {d a1 a2 a3 body : List UInt8} {ds : ℕ}

theorem qosFc_lt (qos : Bool) (hds : IsDs ds) : qosFc qos ds < 0x10000 := by
  rcases hds with rfl | rfl <;> cases qos <;> decide

theorem isDataQos_qosFc (qos : Bool) (hds : IsDs ds) : ieee80211IsDataQos (qosFc qos ds) = qos := by
  rcases hds with rfl | rfl <;> cases qos <;> rfl

theorem hdrlen_qosFc (qos : Bool) (hds : IsDs ds) :
    ieee80211Hdrlen (qosFc qos ds) = 24 + if qos then 2 else 0 := by
  rcases hds with rfl | rfl <;> cases qos <;> rfl

/-- **The receiver's removal of the QoS control field** leaves a data frame with the same addresses
and payload. -/
theorem IsDataFrame.removeQos (h : IsDataFrame d ds a1 a2 a3 body) (hds : IsDs ds) :
    IsDataFrame (removeQosControl d) ds a1 a2 a3 body := by
  obtain ⟨qos, qc, hqc, rfl⟩ := h.eq
  have hlen : (hdrBytes (qosFc qos ds) a1 a2 a3).length = 24 :=
    length_hdrBytes h.length1 h.length2 h.length3
  have hfc : frameControl (hdrBytes (qosFc qos ds) a1 a2 a3 ++ qc ++ body) = qosFc qos ds := by
    rw [List.append_assoc]
    exact frameControl_hdrBytes _ (qosFc_lt qos hds)
  refine ⟨⟨false, [], rfl, ?_⟩, h.length1, h.length2, h.length3⟩
  unfold removeQosControl
  simp only [hfc, isDataQos_qosFc qos hds, hdrlen_qosFc qos hds]
  cases qos with
  | false =>
    obtain rfl : qc = [] := List.length_eq_zero_iff.mp hqc
    rfl
  | true =>
    have htake : (hdrBytes (qosFc true ds) a1 a2 a3 ++ qc ++ body).take 24 =
        hdrBytes (qosFc true ds) a1 a2 a3 := by
      rw [List.append_assoc]
      exact List.take_left' hlen
    have hdrop : (hdrBytes (qosFc true ds) a1 a2 a3 ++ qc ++ body).drop 26 = body :=
      List.drop_left' (by rw [List.length_append, hlen, hqc]; rfl)
    have hbyte : byteAt (hdrBytes (qosFc true ds) a1 a2 a3 ++ body) 0 = 0x88 := by
      rcases hds with rfl | rfl <;> rfl
    simp only [if_true, Nat.add_sub_cancel, htake, hdrop, List.append_nil, hbyte]
    rcases hds with rfl | rfl <;> rfl

/-- **What the receiver makes of a data frame.** -/
theorem IsDataFrame.to8023 (h : IsDataFrame d ds a1 a2 a3 body) (hds : IsDs ds) (addr : EtherAddr)
    (iftype : Nl80211Iftype) : ieee80211DataTo8023 d addr iftype =
      if ds = 0x0100 then
        if iftype = .ap ∨ iftype = .p2pGo then some (llcTo8023 a3 a2 body) else none
      else if (iftype = .station ∨ iftype = .p2pClient) ∧ ¬ (isMulticast a1 ∧ a3 = addr.bytes) then
        some (llcTo8023 a1 a3 body)
      else none := by
  obtain ⟨qos, qc, hqc, rfl⟩ := h.eq
  rw [List.append_assoc]
  have hlen : (hdrBytes (qosFc qos ds) a1 a2 a3).length = 24 :=
    length_hdrBytes h.length1 h.length2 h.length3
  have hdrop : (hdrBytes (qosFc qos ds) a1 a2 a3 ++ (qc ++ body)).drop
      (ieee80211Hdrlen (qosFc qos ds)) = body := by
    rw [← List.append_assoc, hdrlen_qosFc qos hds]
    exact List.drop_left' (by rw [List.length_append, hlen, hqc])
  have hpresent : ieee80211IsDataPresent (qosFc qos ds) = true := by
    rcases hds with rfl | rfl <;> cases qos <;> rfl
  unfold ieee80211DataTo8023 ieee80211GetDA ieee80211GetSA
  simp only [frameControl_hdrBytes _ (qosFc_lt qos hds), hdrop, hpresent,
    addr1_hdrBytes h.length1, addr2_hdrBytes h.length1 h.length2,
    addr3_hdrBytes h.length1 h.length2 h.length3]
  rcases hds with rfl | rfl
  · have hto : ieee80211HasTods (qosFc qos 0x0100) = true ∧
        ieee80211HasFromds (qosFc qos 0x0100) = false ∧
        ieee80211HasA4 (qosFc qos 0x0100) = false := by cases qos <;> decide
    by_cases hi : iftype = .ap ∨ iftype = .p2pGo <;> simp [dsAllowed, hto, hi]
  · have hfrom : ieee80211HasTods (qosFc qos 0x0200) = false ∧
        ieee80211HasFromds (qosFc qos 0x0200) = true ∧
        ieee80211HasA4 (qosFc qos 0x0200) = false := by cases qos <;> decide
    have hallow : dsAllowed (qosFc qos 0x0200) iftype a1 a3 addr =
        decide ((iftype = .station ∨ iftype = .p2pClient) ∧
          ¬ (isMulticast a1 ∧ a3 = addr.bytes)) := by
      simp only [dsAllowed, hfrom, Bool.false_eq_true, if_false, if_true]
    simp only [hfrom, hallow, Bool.false_eq_true, if_false, if_true, not_true_eq_false,
      decide_eq_true_eq]
    rw [if_neg (show ¬ 0x0200 = 0x0100 by decide)]
    exact ite_not _ _ _

/-! ### The frame that is sent -/

theorem setQosHdr_isDataFrame {qos : Bool} {qc : List UInt8} (hqc : qc.length = if qos then 2 else 0)
    (h1 : a1.length = 6) (h2 : a2.length = 6) (h3 : a3.length = 6) (hds : IsDs ds)
    (priority : ℕ) : IsDataFrame
      (atbmSetQosHdr priority (hdrBytes (qosFc qos ds) a1 a2 a3 ++ qc ++ body))
      ds a1 a2 a3 body := by
  have hlen : (hdrBytes (qosFc qos ds) a1 a2 a3).length = 24 := length_hdrBytes h1 h2 h3
  have hfc : frameControl (hdrBytes (qosFc qos ds) a1 a2 a3 ++ qc ++ body) = qosFc qos ds := by
    rw [List.append_assoc]
    exact frameControl_hdrBytes _ (qosFc_lt qos hds)
  unfold atbmSetQosHdr
  simp only [hfc, isDataQos_qosFc qos hds]
  cases qos with
  | false => exact ⟨⟨false, qc, hqc, rfl⟩, h1, h2, h3⟩
  | true =>
    have hp : ieee80211GetQosCtl (qosFc true ds) = 24 := by rcases hds with rfl | rfl <;> rfl
    rw [if_pos rfl, hp, List.append_assoc, List.set_append_right _ _ (by omega),
      List.set_append_right _ _ (by omega), hlen]
    match qc, hqc with
    | [q0, q1], _ =>
      generalize UInt8.ofNat _ = ctl
      exact ⟨⟨true, [ctl, 0], rfl, (List.append_assoc _ [ctl, 0] body).symm⟩, h1, h2, h3⟩

end

/-- The payload of the data frame. -/
def msdu (f : List UInt8) : List UInt8 :=
  encapsData (ethertype f) ++ f.drop (skipHeaderBytes (ethertype f))

/-- The surroundings let the frame pass: the module is not being removed and memory is available. -/
structure Sends (env : XmitEnv) : Prop where
  running : env.isPreRmmod = false
  alloc : env.alloc = true

section

variable {vif : TxVif} {env : XmitEnv} {f : List UInt8}

theorem xmit_isDataFrame (henv : Sends env) (hlen : 14 ≤ f.length) {ds : ℕ} (hds : IsDs ds)
    {a1 a2 a3 : List UInt8} (hhdr : vif.hdr f = some (qosFc false ds, a1, a2, a3))
    (h1 : a1.length = 6) (h2 : a2.length = 6) (h3 : a3.length = 6) :
    ∃ d, atbmSubifStartXmit vif env f = some d ∧ IsDataFrame d ds a1 a2 a3 (msdu f) := by
  have hqos : qosFc false ds ||| 0x0080 = qosFc true ds := by rcases hds with rfl | rfl <;> rfl
  unfold atbmSubifStartXmit
  rw [if_neg (by rw [henv.running]; exact Bool.false_ne_true), if_neg (Nat.not_lt.mpr hlen), hhdr]
  simp only [henv.alloc, not_true_eq_false, if_false, hqos]
  refine ⟨_, rfl, ?_⟩
  split_ifs with hwmm hdata hdata
  · have hqc : ([0, 0] : List UInt8).length = if true then 2 else 0 := rfl
    exact setQosHdr_isDataFrame hqc h1 h2 h3 hds _
  · exact absurd (isDataQos_qosFc true hds) hdata
  · rw [isDataQos_qosFc false hds] at hdata
    cases hdata
  · have hqc : ([] : List UInt8).length = if false then 2 else 0 := rfl
    have hset : IsDataFrame
        (atbmSetQosHdr env.priority (hdrBytes (qosFc false ds) a1 a2 a3 ++ [] ++ msdu f))
        ds a1 a2 a3 (msdu f) := setQosHdr_isDataFrame hqc h1 h2 h3 hds _
    rwa [List.append_nil] at hset

/-! ### Ethernet II frames -/

/-- From a station to its AP, or from an AP to a station: the interface type of the receiver. -/
def Link (vif : TxVif) (iftype : Nl80211Iftype) : Prop :=
  vif.type = .station ∧ iftype = .ap ∨ vif.type = .ap ∧ iftype = .station

/-- The AP sends a multicast frame back to the station it came from. -/
def Reflected (vif : TxVif) (f : List UInt8) (addr : EtherAddr) : Prop :=
  vif.type = .ap ∧ isMulticast (etherAddrAt f 0) ∧ etherAddrAt f 6 = addr.bytes

instance (vif : TxVif) (f : List UInt8) (addr : EtherAddr) : Decidable (Reflected vif f addr) :=
  inferInstanceAs (Decidable (_ ∧ _))

/-- The receiver: with or without its removal of the QoS control field. -/
def receive (removed : Bool) (addr : EtherAddr) (iftype : Nl80211Iftype) (d : List UInt8) :
    Option (List UInt8) :=
  ieee80211DataTo8023 (if removed then removeQosControl d else d) addr iftype

/-- What the receiver makes of the frame that is built. -/
def roundTrip (vif : TxVif) (env : XmitEnv) (removed : Bool) (addr : EtherAddr)
    (iftype : Nl80211Iftype) (f : List UInt8) : Option (List UInt8) :=
  (atbmSubifStartXmit vif env f).bind (receive removed addr iftype)

theorem IsDataFrame.received {d a1 a2 a3 body : List UInt8} {ds : ℕ} (hds : IsDs ds)
    (h : IsDataFrame d ds a1 a2 a3 body) (removed : Bool) :
    IsDataFrame (if removed then removeQosControl d else d) ds a1 a2 a3 body := by
  cases removed with
  | false => exact h
  | true => exact h.removeQos hds

/-- **At the receiver** a frame that is not reflected has its addresses and its payload. -/
theorem roundTrip_eq (henv : Sends env) (hlen : 14 ≤ f.length) {iftype : Nl80211Iftype}
    (hlink : Link vif iftype) (removed : Bool) (addr : EtherAddr) :
    roundTrip vif env removed addr iftype f =
      if Reflected vif f addr then none
      else some (llcTo8023 (etherAddrAt f 0) (etherAddrAt f 6) (msdu f)) := by
  rcases hlink with ⟨hv, rfl⟩ | ⟨hv, rfl⟩
  · have hhdr : vif.hdr f = some (qosFc false 0x0100, vif.bssid.bytes, etherAddrAt f 6,
        etherAddrAt f 0) := by
      unfold TxVif.hdr
      rw [hv]
      rfl
    have hds : IsDs 0x0100 := Or.inl rfl
    obtain ⟨d, hx, hd⟩ := xmit_isDataFrame henv hlen hds hhdr vif.bssid.length_bytes
      (length_etherAddrAt f 6) (length_etherAddrAt f 0)
    have hno : ¬ Reflected vif f addr := fun hr => absurd (hv.symm.trans hr.1) (by decide)
    rw [roundTrip, hx, Option.bind_some, receive, (hd.received hds removed).to8023 hds, if_pos rfl,
      if_pos (Or.inl rfl), if_neg hno]
  · have hhdr : vif.hdr f = some (qosFc false 0x0200, etherAddrAt f 0, vif.addr.bytes,
        etherAddrAt f 6) := by
      unfold TxVif.hdr
      rw [hv]
      rfl
    have hds : IsDs 0x0200 := Or.inr rfl
    obtain ⟨d, hx, hd⟩ := xmit_isDataFrame henv hlen hds hhdr (length_etherAddrAt f 0)
      vif.addr.length_bytes (length_etherAddrAt f 6)
    rw [roundTrip, hx, Option.bind_some, receive, (hd.received hds removed).to8023 hds,
      if_neg (by decide)]
    by_cases hr : Reflected vif f addr
    · rw [if_neg fun h => h.2 hr.2, if_pos hr]
    · rw [if_pos ⟨Or.inl rfl, fun h => hr ⟨hv, h⟩⟩, if_neg hr]

theorem llcTo8023_msdu (hlen : 14 ≤ f.length) (htype : 0x600 ≤ ethertype f) :
    llcTo8023 (etherAddrAt f 0) (etherAddrAt f 6) (msdu f) = f := by
  have hskip : skipHeaderBytes (ethertype f) = 12 := by
    unfold skipHeaderBytes
    rw [if_pos htype, ite_self]
  have hencaps : (encapsData (ethertype f)).length = 6 := by
    unfold encapsData
    rw [if_pos htype]
    split_ifs <;> rfl
  have hfield : be16At (msdu f) 6 = ethertype f := by
    conv_rhs => rw [ethertype, ether_eq hlen]
    unfold msdu be16At
    rw [hskip, byteAt_append_right hencaps _ 0, byteAt_append_right hencaps _ 1,
      byteAt_append_right (n := 12) (by simp [length_etherAddrAt]) _ 0,
      byteAt_append_right (n := 12) (by simp [length_etherAddrAt]) _ 1]
  have hsnap : isSnap (msdu f) = true := by
    unfold isSnap
    rw [hfield, msdu, etherAddrAt_append hencaps]
    unfold encapsData
    rw [if_pos htype]
    by_cases hbt : ethertype f = ethPAarp ∨ ethertype f = ethPIpx
    · simp [hbt]
    · rw [if_neg hbt]
      simpa [not_or] using Or.inl hbt
  rw [llcTo8023, if_pos hsnap, msdu, hskip, List.drop_left' hencaps]
  exact (ether_eq hlen).symm

/-- **An Ethernet II frame comes out as it went in**: what is built from it becomes the same frame
again at the receiver, unless the receiver sent it. -/
theorem roundTrip_ethernetII (henv : Sends env) (hlen : 14 ≤ f.length) (htype : 0x600 ≤ ethertype f)
    {iftype : Nl80211Iftype} (hlink : Link vif iftype) {addr : EtherAddr}
    (hsrc : vif.type = .ap → etherAddrAt f 6 ≠ addr.bytes) (removed : Bool) :
    roundTrip vif env removed addr iftype f = some f := by
  rw [roundTrip_eq henv hlen hlink, if_neg fun hr => hsrc hr.1 hr.2.2, llcTo8023_msdu hlen htype]

/-- An AppleTalk address resolution frame goes through the bridge-tunnel encapsulation. -/
theorem roundTrip_ethernetII_aarp :
    let zero : EtherAddr := ⟨List.replicate 6 0, rfl⟩
    let f : List UInt8 := [2, 0, 0, 0, 0, 1, 2, 0, 0, 0, 0, 2, 0x80, 0xf3, 1, 2, 3]
    roundTrip ⟨.station, zero, zero⟩ ⟨false, fun _ => some true, true, 6⟩ true zero .ap f =
      some f :=
  roundTrip_ethernetII ⟨rfl, rfl⟩ (by decide) (by decide) (Or.inl ⟨rfl, rfl⟩)
    (fun h => by cases h) true

/-! ### IEEE 802.3 frames -/

/-- An IEEE 802.3 frame: a length field, and a payload of at least 8 bytes that does not begin with
an encapsulation. -/
structure Is8023 (f : List UInt8) : Prop where
  length : 22 ≤ f.length
  field : ethertype f < 0x600
  noRfc1042 : etherAddrAt f 14 ≠ rfc1042Header
  noBridgeTunnel : etherAddrAt f 14 ≠ bridgeTunnelHeader

/-- The frame `g` has the addresses and the payload of `f`, and its length field is the length of
the payload, in network byte order. -/
structure LenRestored (f g : List UInt8) : Prop where
  dst : etherAddrAt g 0 = etherAddrAt f 0
  src : etherAddrAt g 6 = etherAddrAt f 6
  payload : g.drop 14 = f.drop 14
  field : be16At g 12 = (f.drop 14).length

/-- The bytes 6 and 7 of the payload hold its length, in little-endian order. -/
def LenInLlc (f : List UInt8) : Prop := le16At f 20 = f.length - 14

instance (f : List UInt8) : Decidable (LenInLlc f) := inferInstanceAs (Decidable (_ = _))

/-- The payload of an 802.3 frame is sent as it is, and the receiver puts a header in front whose
length field is made of the bytes 6 and 7 of the payload. -/
theorem llcTo8023_msdu_llc (h : Is8023 f) :
    llcTo8023 (etherAddrAt f 0) (etherAddrAt f 6) (msdu f) =
      etherAddrAt f 0 ++ etherAddrAt f 6 ++ le16 (be16At f 20) ++ f.drop 14 := by
  have hlt := h.field
  have hbt : ¬ (ethertype f = ethPAarp ∨ ethertype f = ethPIpx) := by
    unfold ethPAarp ethPIpx
    omega
  have hmsdu : msdu f = f.drop 14 := by
    unfold msdu encapsData skipHeaderBytes
    rw [if_neg hbt, if_neg hbt, if_neg (by omega), if_neg (by omega), List.nil_append]
  have htake : (f.take 14).length = 14 := by
    rw [List.length_take]
    have := h.length
    omega
  have hdrop : ∀ k, etherAddrAt f (14 + k) = etherAddrAt (f.drop 14) k := by
    intro k
    conv_lhs => rw [← List.take_append_drop 14 f]
    exact etherAddrAt_append_right htake _ k
  have hbyte : ∀ k, byteAt f (14 + k) = byteAt (f.drop 14) k := by
    intro k
    conv_lhs => rw [← List.take_append_drop 14 f]
    exact byteAt_append_right htake _ k
  have hsnap : isSnap (f.drop 14) = false := by
    unfold isSnap
    rw [← hdrop 0, decide_eq_false_iff_not]
    rintro (hr | hr)
    · exact h.noRfc1042 hr.1
    · exact h.noBridgeTunnel hr
  rw [hmsdu, llcTo8023, if_neg (by rw [hsnap]; exact Bool.false_ne_true), be16At, be16At, ← hbyte 6,
    ← hbyte 7]

theorem be16At_le16 {l m : List UInt8} (hl : l.length = 12) (x y : ℕ) (hx : x < 256)
    (hy : y < 256) : be16At (l ++ le16 (x * 256 + y) ++ m) 12 = y * 256 + x := by
  rw [be16At, List.append_assoc, byteAt_append_right hl _ 0, byteAt_append_right hl _ 1]
  simp only [byteAt, le16, List.cons_append, List.getD_cons_zero, List.getD_cons_succ,
    UInt8.toNat_ofNat']
  omega

theorem byteAt_lt (d : List UInt8) (i : ℕ) : byteAt d i < 256 := UInt8.toNat_lt _

theorem lenRestored_iff (h : Is8023 f) :
    LenRestored f (llcTo8023 (etherAddrAt f 0) (etherAddrAt f 6) (msdu f)) ↔ LenInLlc f := by
  have h12 : (etherAddrAt f 0 ++ etherAddrAt f 6).length = 12 := by simp [length_etherAddrAt]
  have hfield : be16At (etherAddrAt f 0 ++ etherAddrAt f 6 ++ le16 (be16At f 20) ++ f.drop 14) 12 =
      le16At f 20 := by
    have h20 : be16At f 20 = byteAt f 20 * 256 + byteAt f 21 := rfl
    rw [h20, be16At_le16 h12 _ _ (byteAt_lt f 20) (byteAt_lt f 21), le16At, Nat.mul_comm,
      Nat.add_comm]
  rw [llcTo8023_msdu_llc h]
  constructor
  · intro hg
    rw [LenInLlc, ← hfield, hg.field, List.length_drop]
  · intro hlen
    refine ⟨?_, ?_, ?_, ?_⟩
    · rw [List.append_assoc, List.append_assoc, etherAddrAt_append (length_etherAddrAt f 0)]
    · rw [List.append_assoc, List.append_assoc,
        etherAddrAt_append_right (length_etherAddrAt f 0) _ 0,
        etherAddrAt_append (length_etherAddrAt f 6)]
    · exact List.drop_left' (by rw [List.length_append, h12]; rfl)
    · rw [hfield, List.length_drop]
      exact hlen

/-- **An IEEE 802.3 frame gets its length back** exactly when its payload holds the length where
the receiver takes it from, and the receiver did not send the frame. -/
theorem roundTrip_8023_iff (henv : Sends env) (h : Is8023 f) {iftype : Nl80211Iftype}
    (hlink : Link vif iftype) (removed : Bool) (addr : EtherAddr) :
    (∃ g, roundTrip vif env removed addr iftype f = some g ∧ LenRestored f g) ↔
      LenInLlc f ∧ ¬ Reflected vif f addr := by
  have hlen := h.length
  rw [roundTrip_eq henv (by omega) hlink]
  by_cases hr : Reflected vif f addr
  · rw [if_pos hr]
    constructor
    · rintro ⟨g, hg, -⟩
      cases hg
    · intro hc
      exact absurd hr hc.2
  · rw [if_neg hr]
    constructor
    · rintro ⟨g, hg, hgf⟩
      obtain rfl := Option.some.inj hg
      exact ⟨(lenRestored_iff h).mp hgf, hr⟩
    · intro hc
      exact ⟨_, rfl, (lenRestored_iff h).mpr hc.1⟩

end

/-- A payload of 8 bytes that holds its length. -/
theorem roundTrip_8023_lucky :
    let zero : EtherAddr := ⟨List.replicate 6 0, rfl⟩
    let f : List UInt8 :=
      [2, 0, 0, 0, 0, 1, 2, 0, 0, 0, 0, 2, 0, 8, 0x42, 0x42, 3, 0, 0, 0, 8, 0]
    ∃ g, roundTrip ⟨.station, zero, zero⟩ ⟨false, fun _ => none, true, 0⟩ false zero .ap f = some g ∧
      LenRestored f g :=
  (roundTrip_8023_iff ⟨rfl, rfl⟩ ⟨by decide, by decide, by decide, by decide⟩
    (Or.inl ⟨rfl, rfl⟩) false _).mpr ⟨by decide, fun hr => by cases hr.1⟩

/-- **The length of a bridge protocol frame is lost**: its length field comes back as zero. -/
theorem length_lost :
    let zero : EtherAddr := ⟨List.replicate 6 0, rfl⟩
    let f : List UInt8 :=
      [1, 0x80, 0xc2, 0, 0, 0, 2, 0, 0, 0, 0, 2, 0, 8, 0x42, 0x42, 3, 0, 0, 0, 0, 0]
    Is8023 f ∧ ¬ ∃ g,
      roundTrip ⟨.station, zero, zero⟩ ⟨false, fun _ => none, true, 0⟩ false zero .ap f = some g ∧
        LenRestored f g := by
  intro zero f
  refine ⟨⟨by decide, by decide, by decide, by decide⟩, ?_⟩
  rintro ⟨g, hg, hlen⟩
  have hout : (roundTrip ⟨.station, zero, zero⟩ ⟨false, fun _ => none, true, 0⟩ false zero .ap
      f).map (be16At · 12) = some 0 := by decide
  rw [hg] at hout
  exact absurd (hlen.field.symm.trans (Option.some.inj hout)) (by decide)

end Atbm6441.Ether
