import Atbm6441.Ether.RoundTrip
import Atbm6441.Tx.Xmit.Headroom

/-!
# The message of an Ethernet frame

`atbm_subif_start_xmit` on lists says what the 802.11 frame is, and the same function on a memory
where its bytes are put. `xmitOwn_refines` : in a buffer that is not cramped the two agree, and the
message that is queued decodes to that frame.
-/

namespace Atbm6441.Tx.Xmit

open Atbm6441.Lib Atbm6441.Ieee80211
open Atbm6441.Ether (encapsData ethertype skipHeaderBytes hdrBytes isMulticast)

variable {vif : AtbmVif} {env : Env} {hdr : XmitHdr} {skb out : SkBuff} {et : ℕ}

/-- What the function on lists depends on. -/
def xmitEnv (vif : AtbmVif) (env : Env) (skb : SkBuff) : Ether.XmitEnv where
  isPreRmmod := env.isPreRmmod
  staInfoGet a := (vif.staInfoGet a).map StaInfo.wmm
  alloc := true
  priority := skb.priority

/-! ### Bytes of the buffer -/

namespace SkBuff

theorem bytes_pull {n : ℕ} (hn : n ≤ skb.len) : (skb.pull n).bytes = skb.bytes.drop n := by
  have happend := slice_append skb.mem skb.data n (skb.len - n)
  rw [Nat.add_sub_cancel' hn] at happend
  unfold bytes
  rw [happend, List.drop_left' (length_slice _ _ _)]
  rfl

theorem bytes_pushBytes {l : List UInt8} (hl : l.length ≤ skb.data) :
    (skb.pushBytes l).bytes = l ++ skb.bytes := by
  have hle : l.length ≤ (skb.push l.length).len := Nat.le_add_left _ _
  rw [pushBytes, bytes_store _ hle, bytes_push _ hl, List.drop_left' (length_slice _ _ _)]

theorem bytes_store_at {off : ℕ} {l : List UInt8} (h : off + l.length ≤ skb.len) :
    (skb.store off l).bytes =
      skb.bytes.take off ++ (l ++ skb.bytes.drop (off + l.length)) := by
  obtain ⟨n, hn⟩ := Nat.exists_eq_add_of_le h
  have hold := slice_append skb.mem skb.data (off + l.length) n
  have hnew := slice_append (writes skb.mem (skb.data + off) l) skb.data (off + l.length) n
  rw [← hn] at hold hnew
  unfold bytes
  rw [hold, List.drop_left' (length_slice _ _ _),
    List.take_append_of_le_length (by rw [length_slice]; omega), slice_take _ _ (by omega)]
  have hbelow : skb.data + off ≤ skb.data + off := Nat.le_refl _
  have habove : skb.data + off + l.length ≤ skb.data + (off + l.length) := by omega
  refine Eq.trans hnew ?_
  rw [slice_append, slice_writes_below l hbelow, slice_writes, slice_writes_above l habove,
    List.append_assoc]

end SkBuff

/-! ### The headers -/

theorem bytes_pushHeaders (hwf : hdr.Wf) (hroom : headersLen hdr et ≤ skb.data) :
    (pushHeaders hdr et skb).bytes =
      if ieee80211IsDataQos hdr.fc then
        hdrBytes hdr.fc hdr.addr1 hdr.addr2 hdr.addr3 ++ [0, 0] ++ (encapsData et ++ skb.bytes)
      else hdrBytes hdr.fc hdr.addr1 hdr.addr2 hdr.addr3 ++ (encapsData et ++ skb.bytes) := by
  unfold headersLen at hroom
  have hlen := length_hdrBytes hwf
  have hinner : ∃ inner, inner = (if encapsData et = [] then skb else
      skb.pushBytes (encapsData et)) ∧ inner.bytes = encapsData et ++ skb.bytes ∧
      inner.data = skb.data - (encapsData et).length := by
    refine ⟨_, rfl, ?_⟩
    by_cases hnil : encapsData et = []
    · rw [if_pos hnil, hnil]
      exact ⟨rfl, rfl⟩
    · rw [if_neg hnil]
      exact ⟨SkBuff.bytes_pushBytes (by omega), rfl⟩
  obtain ⟨inner, heq, hbytes, hdata⟩ := hinner
  unfold pushHeaders
  dsimp only
  rw [← heq]
  by_cases hqos : ieee80211IsDataQos hdr.fc = true
  · have hhdrlen : hdr.hdrlen = 26 := hwf.hdrlen.trans (if_pos hqos)
    rw [if_pos hqos, if_pos hqos]
    have hroom2 : (hdrBytes hdr.fc hdr.addr1 hdr.addr2 hdr.addr3).length ≤ (inner.push 2).data := by
      show _ ≤ inner.data - 2
      omega
    have hfits : 24 + ([0, 0] : List UInt8).length ≤
        ((inner.push 2).pushBytes (hdrBytes hdr.fc hdr.addr1 hdr.addr2 hdr.addr3)).len := by
      show 24 + 2 ≤ inner.len + 2 + (hdrBytes hdr.fc hdr.addr1 hdr.addr2 hdr.addr3).length
      omega
    have hdrop : (hdrBytes hdr.fc hdr.addr1 hdr.addr2 hdr.addr3 ++
        (slice inner.mem (inner.data - 2) 2 ++ inner.bytes)).drop (24 + 2) = inner.bytes := by
      rw [← List.append_assoc, List.drop_left' (by rw [List.length_append, hlen, length_slice])]
    have htwo : ([0, 0] : List UInt8).length = 2 := rfl
    rw [SkBuff.bytes_store_at hfits, SkBuff.bytes_pushBytes hroom2, inner.bytes_push (by omega),
      List.take_left' hlen, htwo, hdrop, hbytes, List.append_assoc]
  · have hhdrlen : hdr.hdrlen = 24 := hwf.hdrlen.trans (if_neg hqos)
    rw [if_neg hqos, if_neg hqos, SkBuff.bytes_pushBytes (by omega), hbytes]

theorem set_set (l : List UInt8) {p : ℕ} (hp : p + 2 ≤ l.length) (a b : UInt8) :
    (l.set p a).set (p + 1) b = l.take p ++ ([a, b] ++ l.drop (p + 2)) := by
  obtain ⟨x, y, rest, hdrop⟩ : ∃ x y rest, l.drop p = x :: y :: rest := by
    rcases hl : l.drop p with _ | ⟨x, _ | ⟨y, rest⟩⟩
    · have hlen := congrArg List.length hl
      simp at hlen
      omega
    · have hlen := congrArg List.length hl
      simp at hlen
      omega
    · exact ⟨x, y, rest, rfl⟩
  have htake : (l.take p).length = p := List.length_take_of_le (by omega)
  have hl : l = l.take p ++ x :: y :: rest := by rw [← hdrop, List.take_append_drop]
  have hrest : l.drop (p + 2) = rest := by rw [← List.drop_drop, hdrop]; rfl
  rw [hrest]
  conv_lhs => rw [hl]
  rw [List.set_append_right _ _ (by omega), htake, Nat.sub_self, List.set_cons_zero,
    List.set_append_right _ _ (by omega), htake, Nat.add_sub_cancel_left, List.set_cons_succ,
    List.set_cons_zero]
  rfl

theorem bytes_setQosHdr (h : ieee80211IsDataQos (frameControl skb.bytes) = true →
    ieee80211GetQosCtl (frameControl skb.bytes) + 2 ≤ skb.len) :
    (atbmSetQosHdr skb).bytes = Ether.atbmSetQosHdr skb.priority skb.bytes := by
  unfold atbmSetQosHdr Ether.atbmSetQosHdr
  dsimp only
  by_cases hqos : ieee80211IsDataQos (frameControl skb.bytes) = true
  · have hle := h hqos
    rw [if_pos hqos, if_pos hqos, set_set _ (by rw [skb.length_bytes]; exact hle)]
    exact SkBuff.bytes_store_at hle
  · rw [if_neg hqos, if_neg hqos]

/-! ### Making room -/

theorem makeRoom_bytes {grown : SkBuff} (hhead : skb.head ≤ skb.data)
    (h : makeRoom hdr et skb env = some grown) :
    grown.bytes = skb.bytes ∧ grown.priority = skb.priority := by
  unfold makeRoom at h
  dsimp only at h
  split_ifs at h
  · unfold ieee80211SkbResize at h
    split_ifs at h
    · cases h
      exact ⟨rfl, rfl⟩
    · obtain ⟨head, -, rfl⟩ := Option.map_eq_some_iff.mp h
      refine ⟨?_, rfl⟩
      have hhr : skb.head + skb.headroom = skb.data := by
        unfold SkBuff.headroom
        omega
      have hfit : skb.headroom + skb.len ≤
          (slice skb.mem skb.head (skb.headroom + skb.len)).length :=
        Nat.le_of_eq (length_slice _ _ _).symm
      unfold SkBuff.bytes
      dsimp only
      rw [slice_writes_sub _ _ hfit, slice_append, List.drop_left' (length_slice _ _ _), hhr,
        List.take_of_length_le (Nat.le_of_eq (length_slice _ _ _))]
  · cases h
    exact ⟨rfl, rfl⟩

/-! ### The 802.11 frame -/

/-- The 802.11 frame in front of `atbm_set_qos_hdr`. -/
def plainFrame (hdr : XmitHdr) (d : List UInt8) : List UInt8 :=
  if ieee80211IsDataQos hdr.fc then
    hdrBytes hdr.fc hdr.addr1 hdr.addr2 hdr.addr3 ++ [0, 0] ++ Ether.msdu d
  else hdrBytes hdr.fc hdr.addr1 hdr.addr2 hdr.addr3 ++ Ether.msdu d

/-- **The function on lists** builds the frame of the header. -/
theorem ether_xmit_eq (h : Comes vif env skb hdr) :
    Ether.atbmSubifStartXmit vif.ether (xmitEnv vif env skb) skb.bytes =
      some (Ether.atbmSetQosHdr skb.priority (plainFrame hdr skb.bytes)) := by
  have hheader := h.header
  unfold AtbmVif.xmitHdr at hheader
  unfold Ether.atbmSubifStartXmit
  have hlong : ¬ skb.bytes.length < 14 := by
    rw [skb.length_bytes]
    exact Nat.not_lt.mpr h.long
  have hup : ¬ (xmitEnv vif env skb).isPreRmmod = true := Bool.eq_false_iff.mp h.up
  rw [if_neg hup, if_neg hlong]
  rcases hether : vif.ether.hdr skb.bytes with _ | ⟨fc, a1, a2, a3⟩
  · rw [hether] at hheader
    cases hheader
  rw [hether] at hheader
  dsimp only at hheader ⊢
  have hwmm : (xmitEnv vif env skb).staInfoGet a1 = some true ↔
      (vif.staInfoGet a1).any StaInfo.wmm = true := by
    show (vif.staInfoGet a1).map StaInfo.wmm = some true ↔ _
    cases vif.staInfoGet a1 <;> simp
  rw [if_neg (show ¬ ¬ (xmitEnv vif env skb).alloc = true from not_not.mpr rfl)]
  by_cases hqos : ¬ isMulticast a1 ∧ (vif.staInfoGet a1).any StaInfo.wmm = true
  · rw [if_pos hqos] at hheader
    cases hheader
    have hsta : ¬ isMulticast a1 ∧ (xmitEnv vif env skb).staInfoGet a1 = some true :=
      ⟨hqos.1, hwmm.mpr hqos.2⟩
    rw [if_pos hsta]
    rfl
  · rw [if_neg hqos] at hheader
    cases hheader
    have hsta : ¬ (¬ isMulticast a1 ∧ (xmitEnv vif env skb).staInfoGet a1 = some true) :=
      fun hn => hqos ⟨hn.1, hwmm.mp hn.2⟩
    rw [if_neg hsta]
    rfl

theorem Comes.fc (h : Comes vif env skb hdr) : ∃ ds qos, Ether.IsDs ds ∧
    vif.ether.hdr skb.bytes = some (Ether.qosFc false ds, hdr.addr1, hdr.addr2, hdr.addr3) ∧
    hdr.fc = Ether.qosFc qos ds := by
  have hheader := h.header
  unfold AtbmVif.xmitHdr at hheader
  rcases hether : vif.ether.hdr skb.bytes with _ | ⟨fc, a1, a2, a3⟩
  · rw [hether] at hheader
    cases hheader
  obtain ⟨ds, hds, rfl⟩ : ∃ ds, Ether.IsDs ds ∧ fc = Ether.qosFc false ds := by
    unfold Ether.TxVif.hdr at hether
    split at hether <;> cases hether
    · exact ⟨0x0100, Or.inl rfl, rfl⟩
    · exact ⟨0x0200, Or.inr rfl, rfl⟩
  rw [hether] at hheader
  dsimp only at hheader
  split_ifs at hheader
  · cases hheader
    refine ⟨ds, true, hds, rfl, ?_⟩
    rcases hds with rfl | rfl <;> rfl
  · cases hheader
    exact ⟨ds, false, hds, rfl, rfl⟩

/-- A frame in memory that is the one of the function on lists. -/
structure Built (vif : AtbmVif) (env : Env) (hdr : XmitHdr) (skb frame : SkBuff) : Prop where
  bytes : Ether.atbmSubifStartXmit vif.ether (xmitEnv vif env skb) skb.bytes = some frame.bytes
  data : ∃ ds, Ether.IsDs ds ∧ Ether.IsDataFrame frame.bytes ds hdr.addr1 hdr.addr2 hdr.addr3
    (Ether.msdu skb.bytes)
  hdrlen : ieee80211Hdrlen (frameControl frame.bytes) ≤ frame.len
  len : frame.len ≤ skb.len + 20

theorem length_msdu_le {d : List UInt8} (hd : 14 ≤ d.length) :
    (Ether.msdu d).length + 6 ≤ d.length := by
  unfold Ether.msdu encapsData skipHeaderBytes
  rw [List.length_append, List.length_drop]
  split_ifs <;> simp [Ether.bridgeTunnelHeader, Ether.rfc1042Header] <;> omega

theorem payload_fields (h : Comes vif env skb hdr) (hhead : skb.head ≤ skb.data) :
    skb.payload.bytes = skb.bytes.drop (skipHeaderBytes (ethertype skb.bytes)) ∧
      skb.payload.head ≤ skb.payload.data ∧ skb.payload.priority = skb.priority := by
  have hskip : skipHeaderBytes (ethertype skb.bytes) ≤ skb.own.len := by
    have hlong := h.long
    have hlen : skb.own.len = skb.len := by unfold SkBuff.own; split_ifs <;> rfl
    unfold skipHeaderBytes
    split_ifs <;> omega
  have hown : skb.own.head = skb.head ∧ skb.own.data = skb.data ∧
      skb.own.priority = skb.priority := by
    unfold SkBuff.own
    split_ifs <;> exact ⟨rfl, rfl, rfl⟩
  refine ⟨?_, ?_, hown.2.2⟩
  · rw [SkBuff.payload, SkBuff.bytes_pull hskip, (own_fields skb).1]
  · show skb.own.head ≤ skb.own.data + _
    omega

theorem priority_pushHeaders (hdr : XmitHdr) (et : ℕ) (skb : SkBuff) :
    (pushHeaders hdr et skb).priority = skb.priority := by
  unfold pushHeaders
  dsimp only
  split_ifs <;> rfl

/-- **The frame in memory** is that of the function on lists. -/
theorem built_of_makeRoom {grown : SkBuff} (h : Comes vif env skb hdr)
    (hhead : skb.head ≤ skb.data)
    (hmake : makeRoom hdr (ethertype skb.bytes) skb.payload env = some grown)
    (hroom : headersLen hdr (ethertype skb.bytes) ≤ grown.headroom) :
    Built vif env hdr skb (atbmSetQosHdr (pushHeaders hdr (ethertype skb.bytes) grown)) := by
  have hwf := xmitHdr_wf h.header
  obtain ⟨hpayload, hpayhead, hpayprio⟩ := payload_fields h hhead
  obtain ⟨hgrown, hprio⟩ := makeRoom_bytes hpayhead hmake
  obtain ⟨ds, qos, hds, hhdr, hfc⟩ := h.fc
  have hdata : headersLen hdr (ethertype skb.bytes) ≤ grown.data := by
    unfold SkBuff.headroom at hroom
    omega
  have hplain : (pushHeaders hdr (ethertype skb.bytes) grown).bytes = plainFrame hdr skb.bytes := by
    rw [bytes_pushHeaders hwf hdata, hgrown, hpayload]
    rfl
  have hctl : frameControl (plainFrame hdr skb.bytes) = hdr.fc := by
    unfold plainFrame
    rw [hfc]
    split_ifs
    · rw [List.append_assoc]
      exact Ether.frameControl_hdrBytes _ (Ether.qosFc_lt qos hds)
    · exact Ether.frameControl_hdrBytes _ (Ether.qosFc_lt qos hds)
  have hset : (atbmSetQosHdr (pushHeaders hdr (ethertype skb.bytes) grown)).bytes =
      Ether.atbmSetQosHdr skb.priority (plainFrame hdr skb.bytes) := by
    rw [bytes_setQosHdr, hplain, priority_pushHeaders, hprio, hpayprio]
    rw [hplain, hctl]
    intro hqos
    have hp : ieee80211GetQosCtl hdr.fc = 24 := by
      rw [hfc]
      rcases hds with rfl | rfl <;> cases qos <;> rfl
    rw [hp, ← SkBuff.length_bytes, hplain, plainFrame, if_pos hqos, List.append_assoc,
      List.length_append, length_hdrBytes hwf, List.length_append]
    exact Nat.add_le_add_left (Nat.le_add_right 2 _) 24
  have hframe := (ether_xmit_eq h).trans (congrArg some hset.symm)
  have henv : Ether.Sends (xmitEnv vif env skb) := ⟨h.up, rfl⟩
  have hlong : 14 ≤ skb.bytes.length := by
    rw [skb.length_bytes]
    exact h.long
  obtain ⟨d, hd, hdata⟩ := Ether.xmit_isDataFrame henv hlong hds hhdr hwf.addr1 hwf.addr2 hwf.addr3
  obtain rfl := Option.some.inj (hframe.symm.trans hd)
  obtain ⟨q, qc, hqc, heq⟩ := hdata.eq
  have hhl : (hdrBytes (Ether.qosFc q ds) hdr.addr1 hdr.addr2 hdr.addr3).length = 24 :=
    Ether.length_hdrBytes hwf.addr1 hwf.addr2 hwf.addr3
  have hlen := congrArg List.length heq
  rw [SkBuff.length_bytes, List.length_append, List.length_append, hhl, hqc] at hlen
  refine ⟨hframe, ⟨ds, hds, hdata⟩, ?_, ?_⟩
  · rw [heq, List.append_assoc, Ether.frameControl_hdrBytes _ (Ether.qosFc_lt q hds),
      Ether.hdrlen_qosFc q hds]
    omega
  · have hmsdu := length_msdu_le hlong
    rw [skb.length_bytes] at hmsdu
    have hq : (if q then 2 else 0) ≤ 2 := by cases q <;> decide
    omega

/-! ### The message -/

theorem Key.room_le (key : Key) : key.ivRoom + key.trailer ≤ 34 := by
  unfold Key.ivRoom Key.trailer
  by_cases henc : encrypts key.keyType = true
  · have hlens := Prod.ext_iff.mp (key.lens_eq henc)
    dsimp only at hlens
    rw [if_pos henc, if_pos henc, hlens.1, hlens.2]
    cases key.keyType <;> decide
  · rw [if_neg henc, if_neg henc]
    decide

theorem crypted_of_accepts {sta : Option StaInfo} {key : Key}
    (hkey : sta.elim vif.groupKey StaInfo.key = key)
    (hroom : encrypts key.keyType = true → wsmTxExtraHeadroom + key.ivLen ≤ skb.headroom)
    (hframe : ieee80211Hdrlen (frameControl skb.bytes) ≤ skb.len) :
    ∃ skb', atbmTxHCrypt sta skb vif = some skb' ∧ Crypted key skb skb' := by
  by_cases henc : encrypts key.keyType = true
  · refine atbmTxHCrypt_spec hkey ?_ hframe
    rw [Key.ivRoom, if_pos henc]
    exact hroom henc
  · have hiv : key.ivRoom = 0 := if_neg henc
    refine ⟨skb, by rw [atbmTxHCrypt_eq, hkey, if_pos henc], ?_, ?_, rfl, [], hiv.symm, ?_⟩
    · rw [hiv, Nat.sub_zero]
    · rw [hiv, Nat.add_zero]
    · rw [protect, if_neg henc, List.nil_append, List.take_append_drop]

theorem atbmTxHRatePolicy_id (sta : Option StaInfo) (wsm : WsmTx) :
    (atbmTxHRatePolicy sta wsm).id = wsm.id := by
  unfold atbmTxHRatePolicy
  cases sta with
  | none => rfl
  | some sta =>
    dsimp only
    split_ifs <;> rfl

/-- The id of the messages of an interface. -/
def AtbmVif.txId (vif : AtbmVif) : ℕ := 0x0004 ||| (vif.ifId &&& 0xf) <<< 6

/-- **A message that is queued** decodes to its frame, and has a descriptor with the id of its
interface. -/
structure Queued (vif : AtbmVif) (addr1 frame : List UInt8) (out : SkBuff) : Prop where
  decodes : Decodes (vif.keyFor addr1) frame out.bytes
  wsm : ∃ wsm : WsmTx, wsm.id = vif.txId ∧ wsm.bytes <+: out.bytes

theorem queued_of_atbmTx (h : atbmTx vif env skb = .queued out)
    (hframe : ieee80211Hdrlen (frameControl skb.bytes) ≤ skb.len)
    (hroom : 28 ≤ descriptorRoom vif skb.addr1 skb.headroom skb.data)
    (hfits : skb.len + 64 < 65536) : Queued vif skb.addr1 skb.bytes out := by
  have haccepts : Accepts vif skb.addr1 skb.queueMapping skb.headroom skb.data := by
    rcases atbmTx_path vif env skb with ⟨haccepts, -⟩ | ⟨-, skb', hdropped, -⟩
    · exact haccepts
    · cases hdropped.symm.trans h
  obtain ⟨henabled, hqueue, haddr, hcipher, heven, hle⟩ := haccepts
  obtain ⟨key, hkey⟩ : ∃ key, vif.keyFor skb.addr1 = key := ⟨_, rfl⟩
  have hsta : (vif.staInfoGet skb.addr1).elim vif.groupKey StaInfo.key = key := hkey
  unfold descriptorRoom at hroom
  rw [hkey] at hroom hcipher heven hle
  have headroom : skb.headroom = skb.data - skb.head := rfl
  have hkeylen := key.room_le
  obtain ⟨c, hcrypt, hc⟩ := crypted_of_accepts hsta hcipher hframe
  have hcdata := hc.data
  have hclen := hc.len
  have hcroom : c.headroom = c.data - skb.head := by rw [SkBuff.headroom, hc.head]
  obtain ⟨a, flags, halign, ha⟩ := atbmTxHAlign_spec c (by rw [hcdata]; exact heven)
    (by rw [hcroom, hcdata]; omega)
  have hadata := ha.data
  have halen := ha.len
  have hlen := atbmTxHWsm_len a hsta
  have hzero : (atbmTxHWsm (vif.staInfoGet skb.addr1) a vif).2.flags = 0 := rfl
  have hid : (atbmTxHWsm (vif.staInfoGet skb.addr1) a vif).2.id = vif.txId := rfl
  have hpush : (atbmTxHWsm (vif.staInfoGet skb.addr1) a vif).1 = a.push 28 := rfl
  have hpolicy := atbmTxHRatePolicy_spec (vif.staInfoGet skb.addr1)
    { (atbmTxHWsm (vif.staInfoGet skb.addr1) a vif).2 with
      flags := (atbmTxHWsm (vif.staInfoGet skb.addr1) a vif).2.flags ||| flags }
  have hpid := atbmTxHRatePolicy_id (vif.staInfoGet skb.addr1)
    { (atbmTxHWsm (vif.staInfoGet skb.addr1) a vif).2 with
      flags := (atbmTxHWsm (vif.staInfoGet skb.addr1) a vif).2.flags ||| flags }
  unfold atbmTx at h
  rw [if_neg (not_not.mpr henabled), if_neg (Nat.not_le.mpr hqueue), if_neg (not_not.mpr haddr)] at h
  dsimp only at h
  rw [hcrypt] at h
  dsimp only at h
  rw [halign] at h
  dsimp only at h
  generalize atbmTxHRatePolicy (vif.staInfoGet skb.addr1)
    { (atbmTxHWsm (vif.staInfoGet skb.addr1) a vif).2 with
      flags := (atbmTxHWsm (vif.staInfoGet skb.addr1) a vif).2.flags ||| flags } = wsm
    at h hpolicy hpid
  rw [hpush] at h
  split_ifs at h
  cases h
  have hwsmlen : wsm.len = a.len + 28 + key.trailer := hpolicy.1.trans hlen
  have hflags := hpolicy.2
  dsimp only at hflags
  rw [hzero, Nat.zero_or] at hflags
  refine ⟨?_, { wsm with htTxParameters := wsm.htTxParameters &&& 0xfffffeff }, hpid.trans hid, ?_⟩
  · rw [hkey]
    exact decodes_of { wsm with htTxParameters := wsm.htTxParameters &&& 0xfffffeff } hc ha hframe
      (by omega) hwsmlen (by dsimp only; omega) hflags
  · have hfit : (WsmTx.bytes { wsm with
        htTxParameters := wsm.htTxParameters &&& 0xfffffeff }).length ≤ (a.push 28).len :=
      Nat.le_add_left 28 _
    rw [SkBuff.bytes_store _ hfit]
    exact List.prefix_append _ _

/-- **What is queued** for an Ethernet frame: a message to the receiver in the header that decodes to
its 802.11 frame. -/
structure Refines (vif : AtbmVif) (env : Env) (hdr : XmitHdr) (skb out : SkBuff) : Prop where
  comes : Comes vif env skb hdr
  queued : ∃ frame, Built vif env hdr skb frame ∧ Queued vif hdr.addr1 frame.bytes out

/-- **A message that is queued refines the function on lists**, unless its frame was cramped. -/
theorem xmitOwn_refines {b b' : Buffer} {ret : NetdevTx} {log : List Event}
    (h : Comes vif env skb hdr) (hhead : skb.head ≤ skb.data) (hlen : skb.len + 84 < 65536)
    (hcramped : ¬ Cramped vif hdr skb) (hx : xmitOwn vif env hdr b skb.own = (ret, out, log))
    (hq : .queue b' ∈ log) : Refines vif env hdr skb out := by
  have hwf := xmitHdr_wf h.header
  unfold xmitOwn at hx
  dsimp only at hx
  rw [(own_fields skb).1,
    show skb.own.pull (skipHeaderBytes (ethertype skb.bytes)) = skb.payload from rfl] at hx
  obtain ⟨-, -, hnone⟩ | ⟨grown, hsome, hdata, hroom, -, hqueue⟩ :=
    makeRoom_path hdr (ethertype skb.bytes) skb.payload env
  · rw [hnone] at hx
    cases hx
    cases hq
  rw [hsome] at hx
  dsimp only at hx
  have hle : headersLen hdr (ethertype skb.bytes) ≤ grown.headroom := by
    rw [hroom, growth]
    by_cases hres : resized hdr (ethertype skb.bytes) skb.payload = true
    · rw [if_pos hres]
      omega
    · rw [if_neg hres]
      rw [resized, Bool.or_eq_true, decide_eq_true_eq] at hres
      omega
  have hbuilt := built_of_makeRoom h hhead hsome hle
  have hframed := framed_setQosHdr (pushHeaders_path hwf (ethertype skb.bytes) hle)
  generalize atbmSetQosHdr (pushHeaders hdr (ethertype skb.bytes) grown) = frame at hx hbuilt hframed
  have htx : atbmTx vif env frame = .queued out := by
    rcases htx : atbmTx vif env frame with skb' | skb' | skb' <;> rw [htx] at hx <;> cases hx
    · simp [TxEnd.log] at hq
    · simp [TxEnd.log] at hq
    · rfl
  have haddr : frameAddr hdr skb env = some frame.data := by
    rw [frameAddr, hdata, hframed.data]
    rfl
  have hfroom : frame.headroom = frameRoom hdr skb := by
    rw [hframed.headroom, hroom]
    rfl
  have hqueue' : frame.queueMapping = skb.queueMapping :=
    hframed.queueMapping.trans (hqueue.trans (own_fields skb).2.2)
  have hdesc : 28 ≤ descriptorRoom vif frame.addr1 frame.headroom frame.data := by
    have hcases := atbmTx_path vif env frame
    rw [hframed.addr1, hfroom, hqueue'] at hcases
    rw [hframed.addr1, hfroom]
    obtain ⟨haccepts, -⟩ | ⟨-, skb', hdropped, -⟩ := hcases
    · by_contra hless
      exact hcramped ((cramped_iff haddr).mpr ⟨haccepts, by omega⟩)
    · cases hdropped.symm.trans htx
  have hflen := hbuilt.len
  have hqueued := queued_of_atbmTx htx hbuilt.hdrlen hdesc (by omega)
  rw [hframed.addr1] at hqueued
  exact ⟨h, frame, hbuilt, hqueued⟩

/-- The buffer that a call has queued. -/
def XmitEnd.queued (r : XmitEnd) : Option SkBuff :=
  if .queue .caller ∈ r.log ∨ .queue .clone ∈ r.log then some r.skb else none

theorem queued_eq (r : XmitEnd) :
    r.queued = some out ↔ (∃ b, .queue b ∈ r.log) ∧ r.skb = out := by
  have hor : (Event.queue .caller ∈ r.log ∨ .queue .clone ∈ r.log) ↔ ∃ b, .queue b ∈ r.log := by
    constructor
    · rintro (h | h)
      · exact ⟨.caller, h⟩
      · exact ⟨.clone, h⟩
    · rintro ⟨_ | _, h⟩
      · exact Or.inl h
      · exact Or.inr h
  rw [XmitEnd.queued, Option.ite_none_right_eq_some, hor, Option.some.injEq]

theorem own_of_queued (h : (atbmSubifStartXmit vif env skb).queued = some out) :
    ∃ hdr b b' ret log, Comes vif env skb hdr ∧ xmitOwn vif env hdr b skb.own = (ret, out, log) ∧
      .queue b' ∈ log := by
  obtain ⟨⟨b', hq⟩, hout⟩ := (queued_eq _).mp h
  have hdrop {skb : SkBuff} : Event.queue b' ∉ (XmitEnd.mk .ok skb skb [.free .caller]).log := by
    simp
  unfold atbmSubifStartXmit at hq hout
  by_cases hup : env.isPreRmmod = true
  · rw [if_pos hup] at hq
    exact absurd hq hdrop
  by_cases hlong : skb.len < 14
  · rw [if_neg hup, if_pos hlong] at hq
    exact absurd hq hdrop
  rw [if_neg hup, if_neg hlong] at hq hout
  have hup' : env.isPreRmmod = false := Bool.eq_false_iff.mpr hup
  rcases hheader : vif.xmitHdr skb.bytes with _ | hdr
  · rw [hheader] at hq
    exact absurd hq hdrop
  rw [hheader] at hq hout
  dsimp only at hq hout
  by_cases hshared : skb.shared = true
  · rw [if_pos hshared] at hq hout
    by_cases hclone : env.clone = true
    · have hown : skb.own = { skb with shared := false, cloned := true } := if_pos hshared
      rw [if_neg (not_not.mpr hclone), ← hown] at hq hout
      rcases hx : xmitOwn vif env hdr .clone skb.own with ⟨ret, own, log⟩
      rw [hx] at hq hout
      obtain rfl : own = out := hout
      have hq' : Event.queue b' ∈ Event.cloned :: .free .caller :: log := hq
      refine ⟨hdr, .clone, b', ret, log, ⟨hup', Nat.not_lt.mp hlong, hheader, fun _ => hclone⟩, hx,
        ?_⟩
      simpa using hq'
    · rw [if_pos hclone] at hq
      exact absurd hq hdrop
  · have hown : skb.own = skb := if_neg hshared
    rw [if_neg hshared, ← hown] at hq hout
    rcases hx : xmitOwn vif env hdr .caller skb.own with ⟨ret, own, log⟩
    rw [hx] at hq hout
    obtain rfl : own = out := hout
    exact ⟨hdr, .caller, b', ret, log, ⟨hup', Nat.not_lt.mp hlong, hheader,
      fun hs => absurd hs hshared⟩, hx, hq⟩

/-- **A buffer that a call queues** refines the function on lists. -/
theorem refines_of_queued (hhead : skb.head ≤ skb.data) (hlen : skb.len + 84 < 65536)
    (hcramped : ∀ hdr, Comes vif env skb hdr → ¬ Cramped vif hdr skb)
    (h : (atbmSubifStartXmit vif env skb).queued = some out) :
    ∃ hdr, Refines vif env hdr skb out := by
  obtain ⟨hdr, b, b', ret, log, hcomes, hx, hq⟩ := own_of_queued h
  exact ⟨hdr, xmitOwn_refines hcomes hhead hlen (hcramped hdr hcomes) hx hq⟩

end Atbm6441.Tx.Xmit
