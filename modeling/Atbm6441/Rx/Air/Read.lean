import Atbm6441.Rx.Air.Model

/-!
# An MPDU is handled as its frame

What the RX handlers make of an MPDU of the peer. `handled_mpdu` : the network stack gets its frame,
or nothing; and it gets the frame if the buffer can be linearized, the packet number is accepted, and
the station may send what it sends (`Opened`, `Admitted`).
-/

namespace Atbm6441.Rx.Air

open Atbm6441.Ieee80211
open Atbm6441.Ether (EtherAddr etherAddrAt removeQosControl ieee80211DataTo8023)
open Atbm6441.Rx.Handlers
open Atbm6441.Rx.Replay (Nl80211Iftype ccmpTkipReplaycnt)

variable {p : Peer} {k : ℕ} {d hdr iv trailer body : List UInt8} {env : RxEnv} {vif : Vif}
  {info : StaInfo} {key : EncType} {fc : ℕ}

/-! ### The header -/

namespace Peer.Mpdu

theorem isData (h : p.Mpdu k d) : ieee80211IsData (frameControl d) = true :=
  beq_iff_eq.mpr (mask_part h.kind rfl)

theorem isDataQos (h : p.Mpdu k d) : ieee80211IsDataQos (frameControl d) = true :=
  beq_iff_eq.mpr (mask_part h.kind rfl)

theorem isDataPresent (h : p.Mpdu k d) : ieee80211IsDataPresent (frameControl d) = true :=
  beq_iff_eq.mpr (mask_part h.kind rfl)

theorem not_null (h : p.Mpdu k d) : frameControl d &&& 0x0040 = 0 := mask_part h.kind rfl

theorem hasA4 (h : p.Mpdu k d) : ieee80211HasA4 (frameControl d) = false := by
  rcases h.addressed.ends with ⟨-, hds, -⟩ | ⟨-, hds, -⟩
  · rw [ieee80211HasA4, hds]
    rfl
  · rw [ieee80211HasA4, hds]
    rfl

theorem hdrlen (h : p.Mpdu k d) : ieee80211Hdrlen (frameControl d) = 26 := by
  have horder : ieee80211HasOrder (frameControl d) = false := by
    have hmask : frameControl d &&& 0x8000 = 0 := mask_part h.kind rfl
    rw [ieee80211HasOrder, hmask]
    rfl
  rw [ieee80211Hdrlen, if_pos h.isData, h.hasA4, h.isDataQos, horder]
  rfl

theorem trailerLen_eq (h : p.Mpdu k d) (key : EncType) :
    trailerLen (frameControl d) key = trailerLen 0x0088 key := by
  have hpresent : ieee80211IsDataPresent 0x0088 = true := rfl
  cases key <;> simp [trailerLen, h.isDataPresent, hpresent]

theorem length (h : p.Mpdu k d) : 26 ≤ d.length := by
  obtain ⟨hdr, iv, trailer, rfl, hhdr, -⟩ := h.parts
  rw [List.length_append]
  omega

/-- The buffer of an MPDU when it comes to the check. -/
def skb (_ : p.Mpdu k d) : RxSkb := ⟨d, p.cipher.isSome, false, false, true, false⟩

theorem atCheck (h : p.Mpdu k d) (haddr : vif.addr = p.own) (htype : vif.type = p.iftype)
    (linearize : Bool) : receivedAtCheck linearize vif 0 d = some (h.skb, p.tid) := by
  have hlen := h.length
  have hcb : atbmRxCb 0 d = some ⟨d, p.cipher.isSome, false, false, false, false⟩ := by
    unfold atbmRxCb
    rw [if_neg (by decide), if_neg (by omega), h.protection]
    rfl
  have hparse : ieee80211ParseQos ⟨d, p.cipher.isSome, false, false, false, false⟩ =
      (⟨d, p.cipher.isSome, false, false, false, false⟩, p.tid) := by
    have hctl : ieee80211GetQosCtl (frameControl d) = 24 := by
      rw [ieee80211GetQosCtl, h.hasA4]
      rfl
    have htid : byteAt d 24 &&& 0x0f = p.tid := by
      rw [← h.tid, qosCtlTid, hctl]
    unfold ieee80211ParseQos
    dsimp only
    rw [if_pos h.isDataQos, hctl, if_neg (not_not.mpr h.single), htid]
  have hprepare : prepareForHandlers vif ⟨d, p.cipher.isSome, false, false, true, false⟩ =
      some h.skb := by
    have hbssid : hasBssid d = true := by
      unfold hasBssid
      dsimp only
      rw [if_neg (by omega), if_pos h.isData, h.hasA4]
      simpa using by omega
    unfold prepareForHandlers
    rcases h.addressed.ends with ⟨hmode, -⟩ | ⟨hmode, -⟩
    · rw [htype, hmode]
      dsimp only
      rw [if_neg (not_not.mpr hbssid), if_neg fun hc => hc.2 (by rw [h.addressed.receiver, haddr])]
      rfl
    · rw [htype, hmode]
      rfl
  rw [receivedAtCheck, hcb, Option.bind_some, Handlers.atCheck]
  dsimp only
  rw [hparse, hprepare, if_neg, Option.map_some]
  rw [isMgmt_of_data h.isData, h.hdrlen]
  rintro (hm | hm)
  · exact Bool.false_ne_true hm.1
  · omega

end Peer.Mpdu

/-! ### From the payload to the Ethernet frame -/

theorem getD_removeQosControl (hqos : ieee80211IsDataQos (frameControl d) = true)
    (hlen : ieee80211Hdrlen (frameControl d) = 26) {i : ℕ} (hi : 1 ≤ i) (hi' : i < 24) :
    (removeQosControl d).getD i 0 = d.getD i 0 := by
  unfold removeQosControl
  dsimp only
  rw [if_pos hqos, hlen, List.getD_eq_getElem?_getD, List.getElem?_set_ne (by omega),
    ← List.getD_eq_getElem?_getD, getD_cut hi' (by omega)]

theorem etherAddrAt_removeQosControl (hqos : ieee80211IsDataQos (frameControl d) = true)
    (hlen : ieee80211Hdrlen (frameControl d) = 26) {off : ℕ} (h : 1 ≤ off) (h' : off + 6 ≤ 24) :
    etherAddrAt (removeQosControl d) off = etherAddrAt d off := by
  refine List.map_congr_left fun i hi => ?_
  have hi := List.mem_range.mp hi
  exact getD_removeQosControl hqos hlen (by omega) (by omega)

theorem drop_removeQosControl (hqos : ieee80211IsDataQos (frameControl d) = true)
    (hlen : ieee80211Hdrlen (frameControl d) = 26) (h26 : 26 ≤ d.length) :
    (removeQosControl d).drop 24 = d.drop 26 := by
  have hcut : (d.take 24).length = 24 := List.length_take_of_le (by omega)
  unfold removeQosControl
  dsimp only
  rw [if_pos hqos, hlen, List.drop_set_of_lt (by omega), List.drop_left' hcut]

theorem isDataQos_removeQosControl (hqos : ieee80211IsDataQos (frameControl d) = true) :
    ieee80211IsDataQos (frameControl (removeQosControl d)) = false := by
  rw [frameControl_removeQosControl, if_pos hqos]
  unfold ieee80211IsDataQos
  rw [Nat.and_assoc]
  refine beq_eq_false_iff_ne.mpr fun heq => ?_
  have hbit : frameControl d &&& (0xff7f &&& 0x008c) &&& 0x0080 = 0x0088 &&& 0x0080 := by
    rw [heq]
  rw [Nat.and_assoc] at hbit
  simp at hbit

section

variable {n : ℕ} {body : List UInt8}

theorem getD_take_append {i : ℕ} (h : n ≤ d.length) (hi : i < n) :
    (d.take n ++ body).getD i 0 = d.getD i 0 := by
  have hn : (d.take n).length = n := List.length_take_of_le h
  rw [List.getD_eq_getElem?_getD, List.getElem?_append_left (by omega),
    List.getElem?_take_of_lt hi, ← List.getD_eq_getElem?_getD]

theorem frameControl_take_append (h : n ≤ d.length) (hn : 2 ≤ n) :
    frameControl (d.take n ++ body) = frameControl d := by
  unfold frameControl le16At byteAt
  rw [getD_take_append h (by omega), getD_take_append h (by omega)]

theorem etherAddrAt_take_append {off : ℕ} (h : n ≤ d.length) (hoff : off + 6 ≤ n) :
    etherAddrAt (d.take n ++ body) off = etherAddrAt d off := by
  refine List.map_congr_left fun i hi => ?_
  have hi := List.mem_range.mp hi
  exact getD_take_append h (by omega)

end

theorem Peer.Mpdu.not_multicast (h : p.Mpdu k d) : Ether.isMulticast (etherAddrAt d 4) = false := by
  rw [← h.addressed.unicast]
  simp [Ether.isMulticast, isMulticastEtherAddr, byteAt, etherAddrAt]

/-- **The payload of an MPDU** behind its header becomes the Ethernet frame. -/
theorem dataTo8023_mpdu (h : p.Mpdu k d) {d' : List UInt8}
    (hd' : d' = d.take 26 ++ Ether.msdu (p.frame k))
    (htype : vif.type = p.iftype) :
    ieee80211DataTo8023 (removeQosControl d') vif.addr vif.type = some (p.frame k) := by
  have hlen := h.length
  have h26 : (d.take 26).length = 26 := List.length_take_of_le hlen
  have hfc : frameControl d' = frameControl d := by
    rw [hd', frameControl_take_append hlen (by omega)]
  have hqos : ieee80211IsDataQos (frameControl d') = true := by
    rw [hfc]
    exact h.isDataQos
  have hhdr : ieee80211Hdrlen (frameControl d') = 26 := by
    rw [hfc]
    exact h.hdrlen
  have hd26 : 26 ≤ d'.length := by
    rw [hd', List.length_append]
    omega
  -- the frame control field without the QoS bit
  have hmask : ∀ m, 0xff7f &&& m = m → frameControl (removeQosControl d') &&& m =
      frameControl d &&& m := by
    intro m hm
    rw [and_removeQosControl d' hm, hfc]
  have hpresent : ieee80211IsDataPresent (frameControl (removeQosControl d')) = true := by
    unfold ieee80211IsDataPresent
    rw [hmask _ rfl]
    exact h.isDataPresent
  have hA4 : ieee80211HasA4 (frameControl (removeQosControl d')) = false := by
    unfold ieee80211HasA4
    rw [hmask _ rfl]
    exact h.hasA4
  have hbody : (removeQosControl d').drop (ieee80211Hdrlen (frameControl (removeQosControl d'))) =
      Ether.msdu (p.frame k) := by
    have h24 : ieee80211Hdrlen (frameControl (removeQosControl d')) = 24 := by
      rw [ieee80211Hdrlen, if_pos (isData_of_present hpresent), hA4,
        isDataQos_removeQosControl hqos]
      rfl
    rw [h24, drop_removeQosControl hqos hhdr hd26, hd', List.drop_left' h26]
  have hat : ∀ off, 1 ≤ off → off + 6 ≤ 24 →
      etherAddrAt (removeQosControl d') off = etherAddrAt d off := fun off h1 h2 => by
    rw [etherAddrAt_removeQosControl hqos hhdr h1 h2, hd', etherAddrAt_take_append hlen (by omega)]
  have hllc := Ether.llcTo8023_msdu h.ethernet.1 h.ethernet.2
  unfold ieee80211DataTo8023 Ether.dsAllowed Ether.ieee80211GetDA Ether.ieee80211GetSA
  dsimp only
  rw [if_neg (not_not.mpr hpresent), hA4, hbody, htype]
  unfold ieee80211HasTods ieee80211HasFromds
  rw [hmask 0x0100 rfl, hmask 0x0200 rfl, hat 16 (by omega) (by omega),
    hat 10 (by omega) (by omega), hat 4 (by omega) (by omega)]
  rcases h.addressed.ends with ⟨hmode, hds, hda, hsa⟩ | ⟨hmode, hds, hda, hsa⟩
  · have hto : frameControl d &&& 0x0100 = 0 := mask_part hds rfl
    have hfrom : frameControl d &&& 0x0200 = 0x0200 := mask_part hds rfl
    have huni : Ether.isMulticast (etherAddrAt (p.frame k) 0) = false := by
      rw [hda]
      exact h.not_multicast
    simp [hto, hfrom, hmode, huni, ← hda, ← hsa, hllc]
  · have hto : frameControl d &&& 0x0100 = 0x0100 := mask_part hds rfl
    have hfrom : frameControl d &&& 0x0200 = 0 := mask_part hds rfl
    simp [hto, hfrom, hmode, ← hda, ← hsa, hllc]

/-! ### What the handlers leave -/

/-- The interface but for its packet number counters. -/
structure SameIface (vif vif' : Vif) : Prop where
  addr : vif'.addr = vif.addr
  type : vif'.type = vif.type
  apEnc : vif'.apEnc = vif.apEnc

theorem SameIface.refl (vif : Vif) : SameIface vif vif := ⟨rfl, rfl, rfl⟩

theorem SameIface.trans {vif' vif'' : Vif} (h : SameIface vif vif') (h' : SameIface vif' vif'') :
    SameIface vif vif'' :=
  ⟨h'.addr.trans h.addr, h'.type.trans h.type, h'.apEnc.trans h.apEnc⟩

/-- A frame in front of `ieee80211_rx_h_data`. -/
structure Passed (vif : Vif) (sta : Option StaInfo) (skb : RxSkb) (rx : RxData) : Prop where
  iface : SameIface vif rx.vif
  log : rx.log = []
  sta : rx.sta = sta
  amsdu : rx.skb.amsdu = skb.amsdu
  decrypted : rx.skb.decrypted = skb.decrypted

section

variable {sta : Option StaInfo} {skb : RxSkb} {rx rx' : RxData} {res : RxResult}

theorem iface_withReplaycnt {decrypt : RxData → RxResult × RxData}
    (hdecrypt : ∀ rx, (decrypt rx).2.vif = rx.vif) (rx : RxData) (isCcmp : Bool) :
    SameIface rx.vif (withReplaycnt rx isCcmp decrypt).2.vif := by
  have htype := type_replaycnt rx.vif.replay rx.skb.data isCcmp
  unfold withReplaycnt
  dsimp only
  split_ifs
  · exact ⟨rfl, htype, rfl⟩
  · rw [hdecrypt]
    exact ⟨rfl, htype, rfl⟩

theorem iface_cryptoDecrypt (key : EncType) (rx : RxData) :
    SameIface rx.vif (cryptoDecrypt key rx).2.vif := by
  cases key with
  | unset | type | wapi => exact .refl _
  | wep =>
    show SameIface rx.vif (cryptoWepDecrypt rx).2.vif
    unfold cryptoWepDecrypt
    dsimp only
    split_ifs <;> exact .refl _
  | tkip =>
    refine iface_withReplaycnt (fun rx => ?_) rx false
    unfold cryptoTkipDecrypt
    dsimp only
    split_ifs <;> rfl
  | aes =>
    refine iface_withReplaycnt (fun rx => ?_) rx true
    unfold cryptoCcmpDecrypt
    dsimp only
    split_ifs <;> rfl
  | aesCmac =>
    show SameIface rx.vif (cryptoAesCmacDecrypt rx).2.vif
    unfold cryptoAesCmacDecrypt
    dsimp only
    split_ifs <;> exact .refl _

theorem passed_decrypt (h : rxHDecrypt env ⟨skb, vif, sta, none, []⟩ = some (res, rx)) :
    Passed vif sta skb rx := by
  rw [rxHDecrypt_eq] at h
  cases hkey : keyOf env vif sta skb with
  | none =>
    rw [hkey] at h
    obtain ⟨-, rfl⟩ := Prod.mk.inj (Option.some.inj h)
    exact ⟨.refl _, rfl, rfl, rfl, rfl⟩
  | some key =>
    rw [hkey] at h
    have hk := kept_cryptoDecrypt key ⟨skb, vif, sta, some key, []⟩
    have hi := iface_cryptoDecrypt key ⟨skb, vif, sta, some key, []⟩
    rw [Option.some.inj h] at hk hi
    exact ⟨hi, hk.log, hk.sta, hk.amsdu, hk.decrypted⟩

theorem Passed.michael (h : Passed vif sta skb rx)
    (hmic : rxHMichaelMicVerify rx = some (res, rx')) : Passed vif sta skb rx' := by
  unfold rxHMichaelMicVerify at hmic
  dsimp only at hmic
  split_ifs at hmic
  all_goals obtain ⟨-, rfl⟩ := Prod.mk.inj (Option.some.inj hmic)
  all_goals exact ⟨h.iface, h.log, h.sta, h.amsdu, h.decrypted⟩

theorem callRxh_cont (rx : RxData) (next : RxData → Handled) :
    callRxh (some (.cont, rx)) next = next rx := rfl

theorem passed_openFrame (h : openFrame env vif sta skb = some (res, rx)) :
    Passed vif sta skb rx := by
  unfold openFrame at h
  rcases hdec : rxHDecrypt env ⟨skb, vif, sta, none, []⟩ with _ | ⟨res', rx'⟩
  · rw [hdec] at h
    cases h
  · have hp := passed_decrypt hdec
    rw [hdec] at h
    cases res' with
    | cont => exact hp.michael h
    | queued | dropMonitor | dropUnusable =>
      obtain ⟨-, rfl⟩ := Prod.mk.inj (Option.some.inj h)
      exact hp

/-- **How the handlers end**: with a null frame, with a frame that is not opened, or with
`ieee80211_rx_h_data`. -/
theorem handlers_cases (h : ieee80211RxHandlers env vif sta skb = some (res, rx)) :
    (∃ rx', Passed vif sta skb rx' ∧ rx = { rx' with log := rx'.log ++ [.kfree .skb] }) ∨
    openFrame env vif sta skb = some (res, rx) ∨
    ∃ rx', openFrame env vif sta skb = some (.cont, rx') ∧
      rxHData env (rx'.setData (removeQosControl rx'.skb.data)) = some (res, rx) := by
  rw [rxHandlers_eq] at h
  unfold openFrame
  rcases hdec : rxHDecrypt env ⟨skb, vif, sta, none, []⟩ with _ | ⟨res₁, rx₁⟩
  · rw [hdec] at h
    cases h
  have hp := passed_decrypt hdec
  rw [hdec] at h
  cases res₁ with
  | queued | dropMonitor | dropUnusable => exact Or.inr (Or.inl h)
  | cont =>
    have hsp : rxHStaProcess rx₁ = some (.cont, rx₁) ∨ rxHStaProcess rx₁ =
        some (.queued, { rx₁ with log := rx₁.log ++ [.kfree .skb] }) := by
      unfold rxHStaProcess
      dsimp only
      split_ifs <;> simp
    change callRxh (rxHStaProcess rx₁) _ = _ at h
    rcases hsp with hsp | hsp
    swap
    · rw [hsp] at h
      obtain ⟨-, rfl⟩ := Prod.mk.inj (Option.some.inj h)
      exact Or.inl ⟨rx₁, hp, rfl⟩
    rw [hsp] at h
    change callRxh (rxHMichaelMicVerify rx₁) _ = _ at h
    refine Or.inr ?_
    show rxHMichaelMicVerify rx₁ = _ ∨ _
    rcases hmic : rxHMichaelMicVerify rx₁ with _ | ⟨res₂, rx₂⟩
    · rw [hmic] at h
      cases h
    rw [hmic] at h
    cases res₂ with
    | cont => exact Or.inr ⟨rx₂, hmic, h⟩
    | queued | dropMonitor | dropUnusable => exact Or.inl h

theorem vif_deliverSkb (rx : RxData) : (ieee80211DeliverSkb rx).vif = rx.vif := by
  unfold ieee80211DeliverSkb
  split_ifs <;> rfl

/-- **How `ieee80211_rx_h_data` ends**: without a change, or with an A-MSDU, or with one frame. -/
theorem data_cases (h : rxHData env rx = some (res, rx')) :
    rx' = rx ∨
    (rx.skb.amsdu = true ∧ ieee80211IsDataPresent (frameControl rx.skb.data) = true ∧
      ∃ log, rx' = { rx with log := log }) ∨
    ∃ eth, ieee80211DataTo8023 rx.skb.data rx.vif.addr rx.vif.type = some eth ∧
      ieee80211IsDataPresent (frameControl rx.skb.data) = true ∧
      (rx' = rx.setData eth ∨ rx' = ieee80211DeliverSkb (rx.setData eth)) := by
  unfold rxHData at h
  dsimp only at h
  by_cases hdata : ieee80211IsData (frameControl rx.skb.data) = true
  swap
  · rw [if_pos hdata] at h
    cases h
    exact Or.inl rfl
  by_cases hpresent : ieee80211IsDataPresent (frameControl rx.skb.data) = true
  swap
  · rw [if_neg (not_not.mpr hdata), if_pos hpresent] at h
    cases h
    exact Or.inl rfl
  rw [if_neg (not_not.mpr hdata), if_neg (not_not.mpr hpresent)] at h
  by_cases hamsdu : rx.skb.amsdu = true
  · rw [if_pos hamsdu] at h
    rcases hsplit : ieee80211RxHAmsdu env rx with _ | _ | frames
    · rw [hsplit] at h
      cases h
    · rw [hsplit] at h
      cases h
      exact Or.inl rfl
    · rw [hsplit] at h
      cases h
      exact Or.inr (Or.inl ⟨hamsdu, hpresent, _, rfl⟩)
  rw [if_neg hamsdu] at h
  cases heth : ieee80211DataTo8023 rx.skb.data rx.vif.addr rx.vif.type with
  | none =>
    rw [heth] at h
    cases h
    exact Or.inl rfl
  | some eth =>
    rw [heth] at h
    dsimp only at h
    refine Or.inr (Or.inr ⟨eth, rfl, hpresent, ?_⟩)
    by_cases hallowed : frameAllowed (rx.setData eth) (frameControl rx.skb.data) = true
    · rw [if_neg (not_not.mpr hallowed)] at h
      cases h
      exact Or.inr rfl
    · rw [if_pos hallowed] at h
      cases h
      exact Or.inl rfl

theorem iface_data (h : rxHData env rx = some (res, rx')) : SameIface rx.vif rx'.vif := by
  rcases data_cases h with rfl | ⟨-, -, log, rfl⟩ | ⟨eth, -, -, rfl | rfl⟩
  · exact .refl _
  · exact .refl _
  · exact .refl _
  · rw [vif_deliverSkb]
    exact .refl _

/-- **The handlers keep the interface.** -/
theorem iface_handlers (h : ieee80211RxHandlers env vif sta skb = some (res, rx)) :
    SameIface vif rx.vif := by
  rcases handlers_cases h with ⟨rx', hp, rfl⟩ | hopen | ⟨rx', hopen, hdata⟩
  · exact hp.iface
  · exact (passed_openFrame hopen).iface
  · have hiface := iface_data hdata
    exact (passed_openFrame hopen).iface.trans hiface

theorem handlersResult_eq {o : Handled} (h : handlersResult o = some rx) :
    ∃ res rx', o = some (res, rx') ∧ rx.vif = rx'.vif ∧
      stackFrames rx.log = stackFrames rx'.log := by
  have hfrees : ∀ log, stackFrames (log ++ [.kfree .skb]) = stackFrames log := fun log => by
    simp [stackFrames]
  rcases o with _ | ⟨res, rx'⟩
  · cases h
  · refine ⟨res, rx', rfl, ?_⟩
    cases res with
    | queued =>
      cases h
      exact ⟨rfl, rfl⟩
    | cont | dropMonitor | dropUnusable =>
      cases h
      exact ⟨rfl, hfrees _⟩

theorem data_translated {f : List UInt8} (hplain : rx.skb.amsdu = false) (hlog : rx.log = [])
    (heth : ieee80211DataTo8023 rx.skb.data rx.vif.addr rx.vif.type = some f)
    (h : rxHData env rx = some (res, rx')) :
    stackFrames rx'.log = [] ∨ stackFrames rx'.log = [f] := by
  rcases data_cases h with rfl | ⟨hamsdu, -⟩ | ⟨eth, heth', -, rfl | rfl⟩
  · exact Or.inl (by rw [hlog]; rfl)
  · rw [hplain] at hamsdu
    cases hamsdu
  · refine Or.inl ?_
    show stackFrames rx.log = []
    rw [hlog]
    rfl
  · obtain rfl : f = eth := Option.some.inj (heth.symm.trans heth')
    unfold ieee80211DeliverSkb
    split_ifs
    · refine Or.inl ?_
      show stackFrames (rx.log ++ _) = []
      rw [hlog]
      rfl
    · refine Or.inr ?_
      show stackFrames (rx.log ++ _) = _
      rw [hlog]
      rfl

/-- A frame without data. -/
theorem data_absent (hlog : rx.log = [])
    (habsent : ieee80211IsDataPresent (frameControl rx.skb.data) = false)
    (h : rxHData env rx = some (res, rx')) :
    stackFrames rx'.log = [] := by
  rcases data_cases h with rfl | ⟨-, hpresent, -⟩ | ⟨eth, -, hpresent, -⟩
  · rw [hlog]
    rfl
  · rw [habsent] at hpresent
    cases hpresent
  · rw [habsent] at hpresent
    cases hpresent

end

/-! ### An MPDU -/

theorem unpacks_mpdu (h : p.Mpdu k d) (hkeyed : p.Keyed info) (hcipher : p.cipher = some key)
    (hlin : env.linearize = true) :
    keyOf env vif (some info) h.skb = some key ∧ Unpacks env vif (some info) h.skb key := by
  obtain ⟨hkey, henc, htype⟩ := hkeyed key hcipher
  obtain ⟨hdr, iv, trailer, hd, hhdr, hiv, htrailer⟩ := h.parts
  have hprot : h.skb.decrypted = true := by
    show p.cipher.isSome = true
    rw [hcipher]
    rfl
  have hkeyOf : keyOf env vif (some info) h.skb = some key := by
    unfold keyOf
    rw [if_pos ⟨rfl, hlin, hprot, Bool.false_ne_true⟩]
    dsimp only
    rw [if_pos henc, selectedKey, if_neg, htype]
    show ¬ isMulticastEtherAddr d = true
    rw [h.addressed.unicast]
    exact Bool.false_ne_true
  have hroom : 26 + 8 ≤ d.length := by
    have hsum : 8 ≤ iv.length + trailer.length := by
      rw [hiv, htrailer, Peer.ivRoom, Peer.trailer, hcipher]
      rcases hkey with rfl | rfl | rfl <;> decide
    rw [hd]
    simp only [List.length_append]
    omega
  refine ⟨hkeyOf, (unpacks_iff hkeyOf hkey h.isData ?_ h.len).mpr fun _ => ?_⟩
  · show ieee80211Hdrlen (frameControl d) ≤ d.length
    rw [h.hdrlen]
    omega
  · show ieee80211Hdrlen (frameControl d) + 8 ≤ d.length
    rw [h.hdrlen]
    exact hroom

theorem open_protected (h : p.Mpdu k d) (hkeyed : p.Keyed info) (hcipher : p.cipher = some key)
    (hlin : env.linearize = true)
    (hreplay : key ≠ .wep → (ccmpTkipReplaycnt vif.replay d (key = .aes)).1 = 0) :
    ∃ rx, openFrame env vif (some info) h.skb = some (.cont, rx) ∧
      rx.skb.data = d.take 26 ++ Ether.msdu (p.frame k) := by
  obtain ⟨hdr, iv, trailer, hd, hhdr, hiv, htrailer⟩ := h.parts
  have hunpacks : Unpacks env vif (some info) h.skb key := (unpacks_mpdu h hkeyed hcipher hlin).2
  have htake : d.take 26 = hdr := by
    rw [hd, ← hhdr, List.take_left]
  have hivlen : iv.length = ivLen key := by
    rw [hiv, Peer.ivRoom, hcipher]
    rfl
  have htrlen : trailer.length = trailerLen (frameControl d) key := by
    rw [htrailer, Peer.trailer, hcipher, h.trailerLen_eq]
    rfl
  have hhdrlen : hdr.length = ieee80211Hdrlen (frameControl d) := by rw [hhdr, h.hdrlen]
  rw [htake]
  exact hunpacks.long hdr iv _ trailer hd hhdrlen hivlen htrlen ⟨hreplay, fun _ _ => rfl⟩

theorem open_clear (h : p.Mpdu k d) (hcipher : p.cipher = none) :
    openFrame env vif (some info) h.skb =
      if env.linearize = true then some (.cont, ⟨h.skb, vif, some info, none, []⟩)
      else some (.dropUnusable, ⟨h.skb, vif, some info, none, []⟩) := by
  have hclear : h.skb.decrypted = false := by
    show p.cipher.isSome = false
    rw [hcipher]
    rfl
  have hnone : (none : Option EncType) ≠ some .tkip := by decide
  unfold openFrame
  rw [rxHDecrypt_clear hclear]
  by_cases hlin : env.linearize = true
  · rw [if_neg fun hc => hc.2 hlin, if_pos hlin, callRxh_cont]
    exact michaelMicVerify_cont hnone
  · rw [if_pos ⟨rfl, hlin⟩, if_neg hlin]
    rfl

theorem data_clear (h : p.Mpdu k d) (hcipher : p.cipher = none) :
    d = d.take 26 ++ Ether.msdu (p.frame k) := by
  obtain ⟨hdr, iv, trailer, hd, hhdr, hiv, htrailer⟩ := h.parts
  have htake : d.take 26 = hdr := by
    rw [hd, ← hhdr, List.take_left]
  have hiv0 : iv = [] := List.eq_nil_of_length_eq_zero (by rw [hiv, Peer.ivRoom, hcipher]; rfl)
  have htr0 : trailer = [] :=
    List.eq_nil_of_length_eq_zero (by rw [htrailer, Peer.trailer, hcipher]; rfl)
  rw [htake]
  nth_rewrite 1 [hd]
  rw [hiv0, htr0, List.nil_append, List.append_nil]

/-- **An MPDU that is opened** is its header with the frame. -/
theorem opened_mpdu (h : p.Mpdu k d) (hkeyed : p.Keyed info) {rx : RxData}
    (hopen : openFrame env vif (some info) h.skb = some (.cont, rx)) :
    rx.skb.data = d.take 26 ++ Ether.msdu (p.frame k) := by
  cases hcipher : p.cipher with
  | none =>
    rw [open_clear h hcipher] at hopen
    split_ifs at hopen
    · cases hopen
      exact data_clear h hcipher
    · cases hopen
  | some key =>
    obtain ⟨hkey, henc, -⟩ := hkeyed key hcipher
    by_cases hlin : env.linearize = true
    swap
    · have hprot : h.skb.decrypted = true := by
        show p.cipher.isSome = true
        rw [hcipher]
        rfl
      have hra : ¬ ¬ h.skb.raMatch = true := not_not.mpr rfl
      unfold openFrame at hopen
      rw [rxHDecrypt_protected henc hprot, if_neg hra, if_pos hlin] at hopen
      cases hopen
    by_cases hreplay : key ≠ .wep → (ccmpTkipReplaycnt vif.replay d (key = .aes)).1 = 0
    · obtain ⟨rx', hopen', hdata⟩ := open_protected h hkeyed hcipher hlin hreplay
      rw [hopen] at hopen'
      cases hopen'
      exact hdata
    · -- the packet number is rejected
      obtain ⟨hwep, hno⟩ := Classical.not_imp.mp hreplay
      have hdrop : ∃ rx, openFrame env vif (some info) h.skb = some (.dropUnusable, rx) := by
        refine openFrame_drop (unpacks_mpdu h hkeyed hcipher hlin).1 ?_
        rcases hkey with rfl | rfl | rfl
        · exact absurd rfl hwep
        · exact withReplaycnt_reject hno
        · exact withReplaycnt_reject hno
      obtain ⟨rx', hdrop⟩ := hdrop
      rw [hopen] at hdrop
      cases hdrop

/-- **An MPDU is handled as its frame**: the network stack gets it, or nothing. -/
theorem handled_mpdu (h : p.Mpdu k d) (hkeyed : p.Keyed info) (htype : vif.type = p.iftype)
    {rx : RxData} (hrx : handlersResult (ieee80211RxHandlers env vif (some info) h.skb) = some rx) :
    stackFrames rx.log = [] ∨ stackFrames rx.log = [p.frame k] := by
  obtain ⟨res, rx₀, hhandlers, -, hlog⟩ := handlersResult_eq hrx
  rw [hlog]
  rcases handlers_cases hhandlers with ⟨rx', hp, rfl⟩ | hopen | ⟨rx', hopen, hdata⟩
  · refine Or.inl ?_
    show stackFrames (rx'.log ++ _) = []
    rw [hp.log]
    rfl
  · refine Or.inl ?_
    rw [(passed_openFrame hopen).log]
    rfl
  · have hp := passed_openFrame hopen
    have hopened := opened_mpdu h hkeyed hopen
    have heth := dataTo8023_mpdu h hopened (hp.iface.type.trans htype)
    exact @data_translated _ (rx'.setData (removeQosControl rx'.skb.data)) _ _ _ hp.amsdu hp.log heth
      hdata

theorem handlers_of_open {sta : Option StaInfo} {skb : RxSkb} {rx : RxData}
    (hopen : openFrame env vif sta skb = some (.cont, rx)) (hlen : 2 ≤ rx.skb.data.length)
    (hnull : ¬ (ieee80211IsNullfunc (frameControl rx.skb.data) ∨
      ieee80211IsQosNullfunc (frameControl rx.skb.data))) :
    ieee80211RxHandlers env vif sta skb =
      rxHData env (rx.setData (removeQosControl rx.skb.data)) := by
  rw [rxHandlers_eq]
  unfold openFrame at hopen
  rcases hdec : rxHDecrypt env ⟨skb, vif, sta, none, []⟩ with _ | ⟨res, rx₁⟩
  · rw [hdec] at hopen
    cases hopen
  rw [hdec] at hopen
  cases res with
  | queued | dropMonitor | dropUnusable => cases hopen
  | cont =>
    rw [callRxh_cont] at hopen
    -- the Michael MIC is at the end
    have htake : ∀ n, 2 ≤ (rx₁.skb.data.take n).length →
        frameControl (rx₁.skb.data.take n) = frameControl rx₁.skb.data := fun n hn => by
      rw [List.length_take] at hn
      exact frameControl_take (by omega) _
    have hfc : frameControl rx.skb.data = frameControl rx₁.skb.data := by
      unfold rxHMichaelMicVerify at hopen
      dsimp only at hopen
      split_ifs at hopen
      all_goals cases hopen
      · rfl
      · exact htake _ hlen
      · rfl
    rw [hfc] at hnull
    have hsp : rxHStaProcess rx₁ = some (.cont, rx₁) := by
      unfold rxHStaProcess
      dsimp only
      rw [if_neg hnull, ite_self]
    rw [callRxh_cont, afterDecrypt, hsp, callRxh_cont, hopen]
    rfl

theorem data_allowed {rx : RxData} {f : List UInt8} (hplain : rx.skb.amsdu = false)
    (hlog : rx.log = [])
    (heth : ieee80211DataTo8023 rx.skb.data rx.vif.addr rx.vif.type = some f)
    (hallowed : frameAllowed (rx.setData f) (frameControl rx.skb.data) = true)
    (hopen : ¬ (rx.vif.type = .station ∧ ¬ rx.skb.decrypted ∧ rx.vif.apEnc)) :
    ∃ rx', rxHData env rx = some (.queued, rx') ∧ stackFrames rx'.log = [f] := by
  have hpresent : ieee80211IsDataPresent (frameControl rx.skb.data) = true := by
    by_contra hno
    unfold ieee80211DataTo8023 at heth
    dsimp only at heth
    rw [if_pos hno] at heth
    cases heth
  refine ⟨ieee80211DeliverSkb (rx.setData f), ?_, ?_⟩
  · unfold rxHData
    dsimp only
    rw [if_neg (not_not.mpr (isData_of_present hpresent)), if_neg (not_not.mpr hpresent), hplain,
      if_neg Bool.false_ne_true, heth]
    dsimp only
    rw [if_neg (not_not.mpr hallowed)]
  · have hkept : ¬ ((rx.setData f).vif.type = .station ∧ ¬ (rx.setData f).skb.decrypted = true ∧
        (rx.setData f).vif.apEnc = true) := hopen
    unfold ieee80211DeliverSkb
    rw [if_neg hkept]
    show stackFrames (rx.log ++ _) = _
    rw [hlog]
    rfl

theorem opens_mpdu (h : p.Mpdu k d) (hkeyed : p.Keyed info) (htype : vif.type = p.iftype)
    (hlets : p.Lets vif.apEnc info) (hlin : env.linearize = true) :
    ∃ rx, openFrame env vif (some info) h.skb = some (.cont, rx) := by
  cases hcipher : p.cipher with
  | none => exact ⟨_, by rw [open_clear h hcipher, if_pos hlin]⟩
  | some key =>
    have hreplay : key ≠ .wep → (ccmpTkipReplaycnt vif.replay d (key = .aes)).1 = 0 := by
      intro hwep
      have hmode : vif.replay.type ≠ .station := fun hmode => by
        rcases hlets.unchecked (htype.symm.trans hmode) with hno | hno
        · rw [hcipher] at hno
          cases hno
        · rw [hcipher] at hno
          exact hwep (Option.some.inj hno)
      unfold ccmpTkipReplaycnt
      rw [if_pos hmode]
    obtain ⟨rx, hopen, -⟩ := open_protected h hkeyed hcipher hlin hreplay
    exact ⟨rx, hopen⟩

/-- **An MPDU that is let through** is handled as its frame. -/
theorem admitted_mpdu (h : p.Mpdu k d) (hkeyed : p.Keyed info) (htype : vif.type = p.iftype)
    (hlets : p.Lets vif.apEnc info) (hlin : env.linearize = true) :
    ∃ rx, handlersResult (ieee80211RxHandlers env vif (some info) h.skb) = some rx ∧
      stackFrames rx.log = [p.frame k] := by
  obtain ⟨rx, hopen⟩ := opens_mpdu h hkeyed htype hlets hlin
  have hp := passed_openFrame hopen
  have hdata := opened_mpdu h hkeyed hopen
  have h26 : (d.take 26).length = 26 := List.length_take_of_le h.length
  have hfc : frameControl rx.skb.data = frameControl d := by
    rw [hdata, frameControl_take_append h.length (by omega)]
  have hnull := isNullfunc_of_present h.isDataPresent
  have hhandlers := handlers_of_open hopen (by rw [hdata, List.length_append]; omega) (by
    rw [hfc, hnull.1, hnull.2]
    decide)
  have heth := dataTo8023_mpdu h hdata (hp.iface.type.trans htype)
  have hdec : rx.skb.decrypted = p.cipher.isSome := hp.decrypted
  have henc : rx.skb.decrypted = false → info.enc = false ∧
      ¬ (p.iftype = .station ∧ vif.apEnc = true) := fun hclear => by
    refine hlets.clear ?_
    rw [hclear] at hdec
    exact Option.not_isSome_iff_eq_none.mp (by rw [← hdec]; exact Bool.false_ne_true)
  obtain ⟨rx', hrx, hlog⟩ := @data_allowed env (rx.setData (removeQosControl rx.skb.data)) _ hp.amsdu
    hp.log heth (by
      unfold frameAllowed portControl dropUnencrypted
      show (rx.sta.any _ && rx.sta.any fun sta => rx.skb.decrypted || _) = true
      rw [hp.sta]
      cases hclear : rx.skb.decrypted with
      | true => simp [hlets.authorized]
      | false => simp [hlets.authorized, (henc hclear).1]) (by
      show ¬ (rx.vif.type = .station ∧ ¬ rx.skb.decrypted = true ∧ rx.vif.apEnc = true)
      rintro ⟨hmode, hclear, hap⟩
      rw [hp.iface.type, htype] at hmode
      rw [hp.iface.apEnc] at hap
      exact (henc (Bool.eq_false_iff.mpr hclear)).2 ⟨hmode, hap⟩)
  rw [hhandlers, hrx]
  exact ⟨rx', rfl, hlog⟩

theorem handled_null (hnull : IsNull d) {skb : RxSkb} (hd : skb.data = d)
    (hclear : skb.decrypted = false) {rx : RxData}
    (hrx : handlersResult (ieee80211RxHandlers env vif (some info) skb) = some rx) :
    stackFrames rx.log = [] := by
  obtain ⟨res, rx₀, hhandlers, -, hlog⟩ := handlersResult_eq hrx
  rw [hlog]
  rcases handlers_cases hhandlers with ⟨rx', hp, rfl⟩ | hopen | ⟨rx', hopen, hdata⟩
  · show stackFrames (rx'.log ++ _) = []
    rw [hp.log]
    rfl
  · rw [(passed_openFrame hopen).log]
    rfl
  · have hp := passed_openFrame hopen
    have hnone : (none : Option EncType) ≠ some .tkip := by decide
    have hsame : rx'.skb.data = d := by
      unfold openFrame at hopen
      rw [rxHDecrypt_clear hclear] at hopen
      split_ifs at hopen
      · cases hopen
      · rw [callRxh_cont, michaelMicVerify_cont hnone] at hopen
        cases hopen
        exact hd
    refine @data_absent _ (rx'.setData (removeQosControl rx'.skb.data)) _ _ hp.log ?_
      hdata
    show ieee80211IsDataPresent (frameControl (removeQosControl rx'.skb.data)) = false
    have hfc : frameControl d &&& 0x00fc = 0x00c8 := beq_iff_eq.mp hnull.1
    unfold ieee80211IsDataPresent
    rw [and_removeQosControl _ rfl, hsame, mask_part hfc rfl]
    rfl

end Atbm6441.Rx.Air
