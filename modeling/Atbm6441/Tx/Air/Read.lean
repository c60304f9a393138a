import Atbm6441.Tx.Air.Model

/-!
# A message is read as its frame

The bottom half writes a new header over a message, and what is behind the frame goes with it.
`carries_of_refines` : whatever number a message gets, the device finds the 802.11 frame in it and the
receiver the Ethernet frame.
-/

namespace Atbm6441.Tx.Air

open Atbm6441.Lib Atbm6441.Wsm
open Atbm6441.Ieee80211 (frameControl ieee80211Hdrlen le16At byteAt)
open Atbm6441.Ether (TxVif etherAddrAt hdrBytes IsDs IsDataFrame qosFc)
open Atbm6441.Sdio.TxBh (Msg)
open Atbm6441.Tx.Xmit (SkBuff Key AtbmVif Env msgFrame Decodes encrypts protect)

/-! ### The message that is read -/

variable {key : Key} {frame a1 a2 a3 body : List UInt8} {ds : ℕ} {out : SkBuff} {m : Msg} {n : ℕ}
  {l : List UInt8} {p : Peer} {eth : TxVif} {sizeInpChBuf : ℕ} {vif : AtbmVif} {env : Env}
  {skb : SkBuff} {hdr : Xmit.XmitHdr}

theorem reading_linear {data : ℕ → UInt8} (hbody : m.body = .linear data) (h : m.ReadAs n l) :
    l = m.hdr n ++ slice data 0 (m.len.toNat - Buf.hdrTxLen) := by
  have hbytes : m.bytes n = m.hdr n ++ slice data 0 (m.len.toNat - Buf.hdrTxLen) := by
    unfold Msg.bytes Msg.pieces
    rw [hbody]
    exact List.flatten_singleton
  have hlen : (m.bytes n).length = l.length := by
    have hle := m.hdr_le
    rw [h.len.2, hbytes, List.length_append, Sdio.TxBh.length_hdr, length_slice]
    omega
  exact (h.bytes.eq_of_length hlen).symm.trans hbytes

theorem le16At_lt (d : List UInt8) (i : ℕ) : le16At d i < 65536 := by
  have h0 := Ether.byteAt_lt d i
  have h1 := Ether.byteAt_lt d (i + 1)
  unfold le16At
  omega

theorem msgOf_fields (h : msgOf out = some m) : m.id = BitVec.ofNat 16 (le16At out.bytes 6) ∧
    m.len = BitVec.ofNat 16 (le16At out.bytes 4) ∧ m.txed = false := by
  unfold msgOf at h
  split_ifs at h
  cases h
  exact ⟨rfl, rfl, rfl⟩

/-- **The message in a buffer** is read with a new header, and what is behind the frame. -/
theorem reading_msgOf (hm : msgOf out = some m) (h : m.ReadAs n l)
    (hdecodes : Decodes key frame out.bytes) (hlong : 8 ≤ out.len) :
    ∃ t, t.length = key.trailer ∧ l = m.hdr n ++ (out.bytes.drop 8 ++ t) := by
  have hlen := hdecodes.len
  rw [out.length_bytes] at hlen
  unfold msgOf at hm
  split_ifs at hm
  cases hm
  have hread := reading_linear rfl h
  have hfull : (BitVec.ofNat 16 (le16At out.bytes 4)).toNat - Buf.hdrTxLen =
      out.len - 8 + key.trailer := by
    have hhdr : Buf.hdrTxLen = 8 := rfl
    rw [BitVec.toNat_ofNat, Nat.mod_eq_of_lt (le16At_lt _ _), hlen, hhdr]
    omega
  have hmem (k : ℕ) : slice (fun i => out.mem (out.data + 8 + i)) 0 k =
      slice out.mem (out.data + 8) k := by
    unfold slice
    simp only [Nat.zero_add]
  have hdrop : out.bytes.drop 8 = slice out.mem (out.data + 8) (out.len - 8) := by
    have happend := slice_append out.mem out.data 8 (out.len - 8)
    rw [Nat.add_sub_cancel' hlong] at happend
    rw [SkBuff.bytes, happend, List.drop_left' (length_slice _ _ _)]
  refine ⟨slice out.mem (out.data + 8 + (out.len - 8)) key.trailer, length_slice _ _ _, ?_⟩
  rw [hdrop, ← slice_append, ← hmem, ← hfull]
  exact hread

theorem msgFrame_reading {hdr bytes : List UInt8} (hhdr : hdr.length = 8) (hlong : 28 ≤ bytes.length)
    (hne : 1 ≤ (msgFrame bytes).length) (t : List UInt8) :
    msgFrame (hdr ++ (bytes.drop 8 ++ t)) = msgFrame bytes ++ t := by
  have hflags : byteAt (hdr ++ (bytes.drop 8 ++ t)) 15 = byteAt bytes 15 := by
    have htake : (bytes.take 8).length = 8 := List.length_take_of_le (by omega)
    have hsplit := Ether.byteAt_append_right htake (bytes.drop 8) 7
    rw [List.take_append_drop] at hsplit
    have hin : 7 < (bytes.drop 8).length := by
      rw [List.length_drop]
      omega
    have hleft : byteAt (bytes.drop 8 ++ t) 7 = byteAt (bytes.drop 8) 7 := by
      unfold byteAt
      rw [List.getD_append _ _ _ _ hin]
    exact (Ether.byteAt_append_right hhdr _ 7).trans (hleft.trans hsplit.symm)
  have hdrop : (hdr ++ (bytes.drop 8 ++ t)).drop 28 = bytes.drop 28 ++ t := by
    have hin : 20 ≤ (bytes.drop 8).length := by
      rw [List.length_drop]
      omega
    have hsplit := @List.drop_length_add_append _ hdr (bytes.drop 8 ++ t) 20
    rw [hhdr] at hsplit
    rw [hsplit, List.drop_append_of_le_length hin, List.drop_drop]
  unfold msgFrame at hne ⊢
  rw [hflags, hdrop]
  generalize (if (byteAt bytes 15).testBit 7 then 2 else 0) = k at hne ⊢
  rw [List.length_drop] at hne
  exact List.drop_append_of_le_length (by omega)

/-- The frame control field under a key. -/
def protectedFc (key : Key) (fc : ℕ) : ℕ := if encrypts key.keyType then fc ||| 0x4000 else fc

theorem protect_hdrBytes {fc : ℕ} (hfc : fc < 0x10000) (rest : List UInt8) :
    protect key (hdrBytes fc a1 a2 a3 ++ rest) = hdrBytes (protectedFc key fc) a1 a2 a3 ++ rest := by
  unfold protect protectedFc
  by_cases henc : encrypts key.keyType = true
  · have htwo : (Ether.le16 fc).length = 2 := rfl
    rw [if_pos henc, if_pos henc, Ether.frameControl_hdrBytes _ hfc, Ether.hdrBytes_append,
      Ether.hdrBytes_append, List.drop_left' htwo]
    rfl
  · rw [if_neg henc, if_neg henc]

/-- **The frame in a message**: the header under the key, room for the IV, and the payload. -/
theorem msgFrame_of_decodes {msg : List UInt8} (h : Decodes key frame msg)
    (hdata : IsDataFrame frame ds a1 a2 a3 body) (hds : IsDs ds) :
    ∃ qos qc room, qc.length = (if qos then 2 else 0) ∧ room.length = key.ivRoom ∧
      frame = hdrBytes (qosFc qos ds) a1 a2 a3 ++ qc ++ body ∧
      msgFrame msg = hdrBytes (protectedFc key (qosFc qos ds)) a1 a2 a3 ++ qc ++ (room ++ body) := by
  obtain ⟨qos, qc, hqc, rfl⟩ := hdata.eq
  have hfc := Ether.qosFc_lt qos hds
  have hhl : (hdrBytes (qosFc qos ds) a1 a2 a3 ++ qc).length = 24 + if qos then 2 else 0 := by
    rw [List.length_append, hqc,
      Ether.length_hdrBytes hdata.length1 hdata.length2 hdata.length3]
  have hctl : frameControl (hdrBytes (qosFc qos ds) a1 a2 a3 ++ qc ++ body) = qosFc qos ds := by
    rw [List.append_assoc]
    exact Ether.frameControl_hdrBytes _ hfc
  obtain ⟨hheader, hpayload, hlen, -⟩ := h
  rw [hctl, Ether.hdrlen_qosFc qos hds, ← hhl] at hheader hpayload
  rw [List.take_left, protect_hdrBytes hfc] at hheader
  rw [List.drop_left] at hpayload
  rw [List.length_append] at hlen
  generalize (hdrBytes (qosFc qos ds) a1 a2 a3 ++ qc).length = k at *
  refine ⟨qos, qc, ((msgFrame msg).drop k).take key.ivRoom, hqc, ?_, rfl, ?_⟩
  · rw [List.length_take, List.length_drop]
    omega
  · rw [← hheader, ← hpayload, ← List.drop_drop, List.take_append_drop, List.take_append_drop]

/-- **The device finds the frame** that the message was made of. -/
theorem airFrame_eq (keys : List UInt8 → Key) (hdata : IsDataFrame frame ds a1 a2 a3 body)
    (hds : IsDs ds) {msg t : List UInt8} (h : Decodes (keys a1) frame msg)
    (ht : t.length = (keys a1).trailer) (hl : msgFrame l = msgFrame msg ++ t) :
    airFrame keys l = frame := by
  obtain ⟨qos, qc, room, hqc, hroom, hframe, hmsg⟩ := msgFrame_of_decodes h hdata hds
  have hfc := Ether.qosFc_lt qos hds
  have hpfc : protectedFc (keys a1) (qosFc qos ds) < 0x10000 ∧
      protectedFc (keys a1) (qosFc qos ds) &&& 0xbfff = qosFc qos ds ∧
      ieee80211Hdrlen (protectedFc (keys a1) (qosFc qos ds)) = 24 + if qos then 2 else 0 := by
    unfold protectedFc
    by_cases henc : encrypts (keys a1).keyType = true
    · rw [if_pos henc, Xmit.hdrlen_protected, Ether.hdrlen_qosFc qos hds]
      rcases hds with rfl | rfl <;> cases qos <;> decide
    · rw [if_neg henc, Ether.hdrlen_qosFc qos hds]
      rcases hds with rfl | rfl <;> cases qos <;> decide
  obtain ⟨hlt, hclear, hhdrlen⟩ := hpfc
  generalize protectedFc (keys a1) (qosFc qos ds) = fc at *
  have hhl : (hdrBytes fc a1 a2 a3 ++ qc).length = 24 + if qos then 2 else 0 := by
    rw [List.length_append, hqc, Ether.length_hdrBytes hdata.length1 hdata.length2 hdata.length3]
  have haddr : etherAddrAt (msgFrame l) 4 = a1 := by
    rw [hl, hmsg, List.append_assoc, List.append_assoc]
    exact Ether.addr1_hdrBytes hdata.length1 _
  have htake : (msgFrame l).take ((msgFrame l).length - (keys a1).trailer) = msgFrame msg := by
    rw [hl, List.length_append, ht, Nat.add_sub_cancel, List.take_left]
  have hctl : frameControl (msgFrame msg) = fc := by
    rw [hmsg, List.append_assoc]
    exact Ether.frameControl_hdrBytes _ hlt
  unfold airFrame
  dsimp only
  rw [haddr, htake, hctl, hhdrlen, hclear, ← hhl, hmsg, List.take_left, ← hroom,
    List.drop_length_add_append, List.drop_left, hframe, Ether.hdrBytes_append,
    Ether.hdrBytes_append]
  have htwo : (Ether.le16 fc).length = 2 := rfl
  rw [List.drop_left' htwo]
  simp only [List.append_assoc]
  rfl

/-! ### What the receiver hears -/

/-- **A message is heard as a frame**, whatever number it gets. -/
structure Carries (p : Peer) (f : List UInt8) (m : Msg) : Prop where
  tx : isTx m.id = true
  hears : ∀ n l, m.ReadAs n l → p.hears l = some f

theorem isTx_txId (vif : AtbmVif) : isTx (BitVec.ofNat 16 vif.txId) = true := by
  have hlt : vif.ifId &&& 0xf < 2 ^ 4 := Nat.and_lt_two_pow _ (by decide)
  unfold isTx AtbmVif.txId
  generalize vif.ifId &&& 0xf = k at hlt
  interval_cases k <;> decide

/-- **A message that was made of a frame** is heard as that frame. -/
theorem carries_of_refines (hlink : Ether.Link eth p.iftype)
    (ha : Arrives p eth sizeInpChBuf vif env skb) (h : Xmit.Refines vif env hdr skb out) :
    ∃ m, msgOf out = some m ∧ m.len.toNat ≤ sizeInpChBuf ∧ Carries p skb.bytes m := by
  obtain ⟨frame, hbuilt, hqueued⟩ := h.queued
  obtain ⟨ds, hds, hdata⟩ := hbuilt.data
  have hdecodes := hqueued.decodes
  rw [ha.keys] at hdecodes
  obtain ⟨wsm, hid, rest, hrest⟩ := hqueued.wsm
  have hlong : 28 ≤ out.bytes.length := by
    rw [← hrest, List.length_append, Xmit.length_wsmTx]
    exact Nat.le_add_right 28 _
  have hlen := hdecodes.len
  have hframe := hdecodes.length
  have hframelen := hbuilt.len
  have hkey := (p.keys hdr.addr1).room_le
  have hsize := ha.len
  have hmsg : out.bytes.length ≤ (msgFrame out.bytes).length + 30 := by
    unfold msgFrame
    rw [List.length_drop, List.length_drop]
    split_ifs <;> omega
  rw [frame.length_bytes] at hframe
  have hle : le16At out.bytes 4 ≤ sizeInpChBuf := by omega
  have hfull : (BitVec.ofNat 16 (le16At out.bytes 4)).toNat = le16At out.bytes 4 := by
    rw [BitVec.toNat_ofNat]
    exact Nat.mod_eq_of_lt (le16At_lt _ _)
  have hhdr : Buf.hdrTxLen ≤ (BitVec.ofNat 16 (le16At out.bytes 4)).toNat := by
    rw [hfull, hlen]
    exact Nat.le_trans (by decide : 8 ≤ 28) (Nat.le_add_right_of_le hlong)
  obtain ⟨m, hm⟩ : ∃ m, msgOf out = some m := ⟨_, dif_pos hhdr⟩
  obtain ⟨hmid, hmlen, -⟩ := msgOf_fields hm
  refine ⟨m, hm, by rw [hmlen, hfull]; exact hle, ?_, fun n l hread => ?_⟩
  · have hfield : le16At out.bytes 6 = vif.txId := by
      have hlt : vif.txId < 0x10000 := by
        have hif : (vif.ifId &&& 0xf) < 2 ^ 4 := Nat.and_lt_two_pow _ (by decide)
        unfold AtbmVif.txId
        generalize vif.ifId &&& 0xf = k at hif
        interval_cases k <;> decide
      have hbytes : le16At (wsm.bytes ++ rest) 6 =
          (UInt8.ofNat wsm.id).toNat + 256 * (UInt8.ofNat (wsm.id / 256)).toNat := rfl
      rw [← hrest, hbytes, hid, UInt8.toNat_ofNat', UInt8.toNat_ofNat']
      omega
    rw [hmid, hfield]
    exact isTx_txId vif
  · have hlong8 : 8 ≤ out.len := by
      rw [← out.length_bytes]
      omega
    obtain ⟨t, ht, hl⟩ := reading_msgOf hm hread hdecodes hlong8
    have hne : 1 ≤ (msgFrame out.bytes).length := by
      have htwo := Xmit.two_le_hdrlen (frameControl frame.bytes)
      have hhdrlen := hbuilt.hdrlen
      omega
    have hmsgFrame := msgFrame_reading (Sdio.TxBh.length_hdr m n) hlong hne t
    rw [← hl] at hmsgFrame
    have hair := airFrame_eq p.keys hdata hds hdecodes ht hmsgFrame
    have henv : Ether.Sends (Xmit.xmitEnv vif env skb) := ⟨h.comes.up, rfl⟩
    have hether : 14 ≤ skb.bytes.length := by
      rw [skb.length_bytes]
      exact h.comes.long
    have htrip := Ether.roundTrip_eq henv hether hlink p.removed p.addr
    have hbytes := hbuilt.bytes
    rw [ha.same] at hbytes
    rw [Ether.roundTrip, hbytes, Option.bind_some, if_neg ha.source,
      Ether.llcTo8023_msdu hether ha.type] at htrip
    rw [Peer.hears, hair]
    exact htrip

end Atbm6441.Tx.Air
