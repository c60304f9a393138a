import Atbm6441.Tx.Xmit.Model

/-!
# What is in the queued message

A device that skips the descriptor of a message, and the two bytes in front of the frame when there
are any, finds the frame with room for the IV behind its header. `queued_decodes` : this holds of
every message that `atbm_tx` queues, and its length is that of the message with the trailer.
-/

namespace Atbm6441.Tx.Xmit

open Atbm6441.Lib Atbm6441.Ieee80211
open Atbm6441.Rx.Handlers (EncType)

/-! ### The device's side -/

/-- The bytes of room for the IV. -/
def Key.ivRoom (key : Key) : ℕ := if encrypts key.keyType then key.ivLen else 0

/-- The bytes behind the frame: the ICV, and the MIC of TKIP. -/
def Key.trailer (key : Key) : ℕ :=
  if encrypts key.keyType then key.icvLen + (if key.keyType = .tkip then 8 else 0) else 0

/-- The key for a receiver. -/
def AtbmVif.keyFor (vif : AtbmVif) (addr1 : List UInt8) : Key :=
  (vif.staInfoGet addr1).elim vif.groupKey StaInfo.key

/-- The header of a frame under a key: the Protected bit is added. -/
def protect (key : Key) (d : List UInt8) : List UInt8 :=
  if encrypts key.keyType then leBytes 2 (frameControl d ||| 0x4000) ++ d.drop 2 else d

/-- The frame in a message: behind the descriptor, and two bytes behind it with
`WSM_TX_2BYTES_SHIFT`. -/
def msgFrame (msg : List UInt8) : List UInt8 :=
  (msg.drop 28).drop (if (byteAt msg 15).testBit 7 then 2 else 0)

/-- **The message decodes to the frame.** -/
structure Decodes (key : Key) (frame msg : List UInt8) : Prop where
  header : (msgFrame msg).take (ieee80211Hdrlen (frameControl frame)) =
    protect key (frame.take (ieee80211Hdrlen (frameControl frame)))
  payload : (msgFrame msg).drop (ieee80211Hdrlen (frameControl frame) + key.ivRoom) =
    frame.drop (ieee80211Hdrlen (frameControl frame))
  length : (msgFrame msg).length = frame.length + key.ivRoom
  len : le16At msg 4 = msg.length + key.trailer

/-! ### Bytes of the buffer -/

namespace SkBuff

variable (skb : SkBuff)

theorem length_bytes : skb.bytes.length = skb.len := length_slice _ _ _

theorem bytes_push {n : ℕ} (hn : n ≤ skb.data) :
    (skb.push n).bytes = slice skb.mem (skb.data - n) n ++ skb.bytes := by
  have happend := slice_append skb.mem (skb.data - n) n skb.len
  rw [Nat.sub_add_cancel hn, Nat.add_comm] at happend
  exact happend

theorem bytes_store {l : List UInt8} (hl : l.length ≤ skb.len) :
    (skb.store 0 l).bytes = l ++ skb.bytes.drop l.length := by
  obtain ⟨n, hn⟩ := Nat.exists_eq_add_of_le hl
  have hnew := slice_append (writes skb.mem skb.data l) skb.data l.length n
  have hold := slice_append skb.mem skb.data l.length n
  rw [slice_writes, slice_writes_above l (Nat.le_refl _), ← hn] at hnew
  rw [← hn] at hold
  unfold bytes
  rw [hold, List.drop_left' (length_slice _ _ _)]
  exact hnew

end SkBuff

theorem length_wsmTx (wsm : WsmTx) : wsm.bytes.length = 28 := rfl

/-! ### The header -/

theorem hdrlen_protected (fc : ℕ) : ieee80211Hdrlen (fc ||| 0x4000) = ieee80211Hdrlen fc := by
  have hmask : ∀ m, 0x4000 &&& m = 0 → (fc ||| 0x4000) &&& m = fc &&& m := fun m hm => by
    rw [Nat.and_or_distrib_right, hm, Nat.or_zero]
  unfold ieee80211Hdrlen ieee80211IsData ieee80211HasA4 ieee80211IsDataQos ieee80211HasOrder
    ieee80211IsCtl
  rw [hmask _ rfl, hmask _ rfl, hmask _ rfl, hmask _ rfl, hmask _ rfl]

theorem two_le_hdrlen (fc : ℕ) : 2 ≤ ieee80211Hdrlen fc := by
  unfold ieee80211Hdrlen
  split_ifs <;> omega

theorem length_protect (key : Key) {d : List UInt8} (hd : 2 ≤ d.length) :
    (protect key d).length = d.length := by
  unfold protect
  split_ifs
  · rw [List.length_append, length_leBytes, List.length_drop]
    omega
  · rfl

/-! ### The steps of `atbm_tx` -/

/-- A frame whose header has been moved. -/
structure Crypted (key : Key) (skb skb' : SkBuff) : Prop where
  data : skb'.data = skb.data - key.ivRoom
  len : skb'.len = skb.len + key.ivRoom
  head : skb'.head = skb.head
  bytes : ∃ room, room.length = key.ivRoom ∧
    skb'.bytes = protect key (skb.bytes.take (ieee80211Hdrlen (frameControl skb.bytes))) ++
      (room ++ skb.bytes.drop (ieee80211Hdrlen (frameControl skb.bytes)))

theorem atbmTxHCrypt_eq (sta : Option StaInfo) (skb : SkBuff) (vif : AtbmVif) :
    atbmTxHCrypt sta skb vif =
      if ¬ encrypts (sta.elim vif.groupKey StaInfo.key).keyType then some skb
      else if skb.headroom < wsmTxExtraHeadroom + (sta.elim vif.groupKey StaInfo.key).ivLen then
        none
      else
        let fc := frameControl skb.bytes ||| 0x4000
        let moved := (skb.store 0 (leBytes 2 fc)).push (sta.elim vif.groupKey StaInfo.key).ivLen
        some (moved.store 0 (slice moved.mem
          (moved.data + (sta.elim vif.groupKey StaInfo.key).ivLen) (ieee80211Hdrlen fc))) := by
  cases sta <;> rfl

theorem moved_header (j p : List UInt8) {h : ℕ} (hh : h ≤ p.length) :
    ∃ room, room.length = j.length ∧
      p.take h ++ (j ++ p).drop h = p.take h ++ (room ++ p.drop h) := by
  have htake : (p.take h).length = h := List.length_take_of_le hh
  refine ⟨(j ++ p.take h).drop h, ?_, ?_⟩
  · rw [List.length_drop, List.length_append, htake, Nat.add_sub_cancel]
  · have hsplit : j ++ p = j ++ p.take h ++ p.drop h := by
      rw [List.append_assoc, List.take_append_drop]
    have hle : h ≤ (j ++ p.take h).length := by
      rw [List.length_append, htake]
      exact Nat.le_add_left _ _
    rw [hsplit, List.drop_append_of_le_length hle]

theorem take_drop_replaced (a : List UInt8) (f : List UInt8) {h : ℕ} (ha : a.length = 2)
    (hh : 2 ≤ h) : (a ++ f.drop 2).take h = a ++ (f.take h).drop 2 ∧
      (a ++ f.drop 2).drop h = f.drop h := by
  obtain ⟨n, rfl⟩ := Nat.exists_eq_add_of_le hh
  constructor
  · rw [← ha, List.take_length_add_append, ha, List.drop_take, Nat.add_sub_cancel_left]
  · rw [← ha, List.drop_length_add_append, ha, List.drop_drop]

variable {sta : Option StaInfo} {skb : SkBuff} {vif : AtbmVif} {key : Key}

/-- **The header moves over the room for the IV.** -/
theorem atbmTxHCrypt_spec (hkey : sta.elim vif.groupKey StaInfo.key = key)
    (hroom : wsmTxExtraHeadroom + key.ivRoom ≤ skb.headroom)
    (hframe : ieee80211Hdrlen (frameControl skb.bytes) ≤ skb.len) :
    ∃ skb', atbmTxHCrypt sta skb vif = some skb' ∧ Crypted key skb skb' := by
  rw [atbmTxHCrypt_eq, hkey]
  unfold Key.ivRoom at hroom
  have htwo := two_le_hdrlen (frameControl skb.bytes)
  by_cases henc : encrypts key.keyType = true
  · rw [if_pos henc] at hroom
    rw [if_neg (not_not.mpr henc), if_neg (by omega)]
    have hiv : key.ivRoom = key.ivLen := if_pos henc
    have hdata : key.ivLen ≤ skb.data := by
      unfold SkBuff.headroom at hroom
      omega
    refine ⟨_, rfl, by rw [hiv]; rfl, by rw [hiv]; rfl, rfl, ?_⟩
    have hlen : (leBytes 2 (frameControl skb.bytes ||| 0x4000)).length = 2 := length_leBytes _ _
    generalize hfirst : skb.store 0 (leBytes 2 (frameControl skb.bytes ||| 0x4000)) = first
    have hbytes : first.bytes =
        leBytes 2 (frameControl skb.bytes ||| 0x4000) ++ skb.bytes.drop 2 := by
      rw [← hfirst, skb.bytes_store (by omega), hlen]
    have hfields : first.data = skb.data ∧ first.len = skb.len := by
      rw [← hfirst]
      exact ⟨rfl, rfl⟩
    have hheader : slice (first.push key.ivLen).mem ((first.push key.ivLen).data + key.ivLen)
        (ieee80211Hdrlen (frameControl skb.bytes)) =
          first.bytes.take (ieee80211Hdrlen (frameControl skb.bytes)) := by
      have hback : (first.push key.ivLen).data + key.ivLen = first.data := by
        show first.data - key.ivLen + key.ivLen = first.data
        omega
      have hle : ieee80211Hdrlen (frameControl skb.bytes) ≤ first.len := by omega
      rw [hback]
      exact (slice_take first.mem first.data hle).symm
    have htake : (first.bytes.take (ieee80211Hdrlen (frameControl skb.bytes))).length =
        ieee80211Hdrlen (frameControl skb.bytes) :=
      List.length_take_of_le (by rw [first.length_bytes]; omega)
    obtain ⟨hfront, hback⟩ := take_drop_replaced (leBytes 2 (frameControl skb.bytes ||| 0x4000))
      skb.bytes hlen htwo
    obtain ⟨room, hroomlen, hmoved⟩ := moved_header (slice first.mem (first.data - key.ivLen)
      key.ivLen) first.bytes (h := ieee80211Hdrlen (frameControl skb.bytes))
      (by rw [first.length_bytes]; omega)
    refine ⟨room, by rw [hroomlen, length_slice, hiv], ?_⟩
    rw [hdrlen_protected, hheader, SkBuff.bytes_store, htake, first.bytes_push (by omega), hmoved,
      hbytes, hfront, hback, protect, if_pos henc, frameControl_take htwo]
    show _ ≤ first.len + key.ivLen
    omega
  · rw [if_pos henc]
    have hiv : key.ivRoom = 0 := if_neg henc
    refine ⟨skb, rfl, by rw [hiv, Nat.sub_zero], by rw [hiv, Nat.add_zero], rfl, [], hiv.symm, ?_⟩
    rw [protect, if_neg henc, List.nil_append, List.take_append_drop]

/-- A buffer with bytes in front of a frame, up to an address that is a multiple of four. -/
structure Aligned (skb skb' : SkBuff) (flags : ℕ) : Prop where
  data : skb'.data = skb.data - skb.data % 4
  len : skb'.len = skb.len + skb.data % 4
  bytes : ∃ pad, pad.length = (if flags = 0 then 0 else 2) ∧ skb'.bytes = pad ++ skb.bytes
  flags_eq : flags = 0 ∨ flags = 0x80

theorem atbmTxHAlign_spec (skb : SkBuff) (heven : skb.data % 2 = 0)
    (hroom : skb.data % 4 ≤ skb.headroom) :
    ∃ skb' flags, atbmTxHAlign skb = some (skb', flags) ∧ Aligned skb skb' flags := by
  unfold atbmTxHAlign
  dsimp only
  by_cases h0 : skb.data % 4 = 0
  · refine ⟨skb, 0, if_pos h0, ?_, ?_, ⟨[], rfl, rfl⟩, Or.inl rfl⟩
    · rw [h0, Nat.sub_zero]
    · rw [h0, Nat.add_zero]
  · rw [if_neg h0, if_neg (by omega), if_neg (by omega)]
    have htwo : skb.data % 4 = 2 := by omega
    have hle : skb.data % 4 ≤ skb.data := Nat.mod_le _ _
    refine ⟨_, _, rfl, rfl, rfl, ⟨_, ?_, skb.bytes_push hle⟩, Or.inr rfl⟩
    rw [length_slice, htwo]
    rfl

/-- **The length in the descriptor** is that of the message with the trailer. -/
theorem atbmTxHWsm_len (skb : SkBuff) (hkey : sta.elim vif.groupKey StaInfo.key = key) :
    (atbmTxHWsm sta skb vif).2.len = skb.len + 28 + key.trailer := by
  have hlen : (atbmTxHWsm sta skb vif).2.len = skb.len + 28 +
      (if key.keyType = .tkip then
        ((if ¬ encrypts key.keyType then 0 else key.icvLen) + 8) % 256
      else if ¬ encrypts key.keyType then 0 else key.icvLen) := by
    rw [← hkey]
    cases sta <;> rfl
  rw [hlen, Key.trailer]
  by_cases htkip : key.keyType = .tkip
  · have henc : encrypts key.keyType = true := by rw [htkip]; rfl
    have hicv : key.icvLen = 4 := by
      have hlens := key.lens_eq henc
      rw [htkip] at hlens
      exact congrArg Prod.snd hlens
    rw [if_pos htkip, if_pos henc, if_neg (not_not.mpr henc), hicv, if_pos htkip]
  · rw [if_neg htkip, if_neg htkip]
    by_cases henc : encrypts key.keyType = true
    · rw [if_pos henc, if_neg (not_not.mpr henc), Nat.add_zero key.icvLen]
    · rw [if_neg henc, if_pos henc]

theorem atbmTxHRatePolicy_spec (sta : Option StaInfo) (wsm : WsmTx) :
    (atbmTxHRatePolicy sta wsm).len = wsm.len ∧
      ((atbmTxHRatePolicy sta wsm).flags = wsm.flags ∨
        (atbmTxHRatePolicy sta wsm).flags = wsm.flags ||| 1 <<< 4) := by
  unfold atbmTxHRatePolicy
  cases sta with
  | none => exact ⟨rfl, Or.inl rfl⟩
  | some sta =>
    dsimp only
    split_ifs
    all_goals first
      | exact ⟨rfl, Or.inl rfl⟩
      | exact ⟨rfl, Or.inr rfl⟩

theorem decodes_of {c a : SkBuff} {flags : ℕ} (wsm : WsmTx) (hc : Crypted key skb c)
    (ha : Aligned c a flags) (hframe : ieee80211Hdrlen (frameControl skb.bytes) ≤ skb.len)
    (hroom : 28 ≤ a.data) (hlen : wsm.len = a.len + 28 + key.trailer) (hfits : wsm.len < 65536)
    (hflags : wsm.flags = flags ∨ wsm.flags = flags ||| 1 <<< 4) :
    Decodes key skb.bytes ((a.push 28).store 0 wsm.bytes).bytes := by
  obtain ⟨room, hroomlen, hcbytes⟩ := hc.bytes
  obtain ⟨pad, hpad, habytes⟩ := ha.bytes
  have hmsg : ((a.push 28).store 0 wsm.bytes).bytes = wsm.bytes ++ (pad ++ c.bytes) := by
    have hwsm := length_wsmTx wsm
    have hle : wsm.bytes.length ≤ (a.push 28).len := by
      show wsm.bytes.length ≤ a.len + 28
      omega
    rw [SkBuff.bytes_store _ hle, a.bytes_push hroom, hwsm,
      List.drop_left' (length_slice _ _ _), habytes]
  have hflag : byteAt (wsm.bytes ++ (pad ++ c.bytes)) 15 = (UInt8.ofNat wsm.flags).toNat := rfl
  have hshift : (byteAt (wsm.bytes ++ (pad ++ c.bytes)) 15).testBit 7 = decide (flags ≠ 0) := by
    rw [hflag]
    rcases ha.flags_eq with rfl | rfl <;> rcases hflags with h | h <;> rw [h] <;> decide
  have hframeAt : msgFrame (wsm.bytes ++ (pad ++ c.bytes)) = c.bytes := by
    have hskip : (if (byteAt (wsm.bytes ++ (pad ++ c.bytes)) 15).testBit 7 then 2 else 0) =
        pad.length := by
      rw [hshift, hpad]
      by_cases h0 : flags = 0 <;> simp [h0]
    rw [msgFrame, hskip, List.drop_left' (length_wsmTx wsm), List.drop_left]
  have htwo := two_le_hdrlen (frameControl skb.bytes)
  have htake : (skb.bytes.take (ieee80211Hdrlen (frameControl skb.bytes))).length =
      ieee80211Hdrlen (frameControl skb.bytes) :=
    List.length_take_of_le (by rw [skb.length_bytes]; exact hframe)
  have hheader := length_protect key (d := skb.bytes.take _) (htake.symm ▸ htwo)
  rw [htake] at hheader
  rw [hmsg]
  constructor
  · rw [hframeAt, hcbytes, List.take_left' hheader]
  · rw [hframeAt, hcbytes, ← hroomlen, ← List.append_assoc,
      List.drop_left' (by rw [List.length_append, hheader])]
  · rw [hframeAt, c.length_bytes, hc.len, skb.length_bytes]
  · have hfield : le16At (wsm.bytes ++ (pad ++ c.bytes)) 4 =
        (UInt8.ofNat wsm.len).toNat + 256 * (UInt8.ofNat (wsm.len / 256)).toNat := rfl
    rw [hfield, UInt8.toNat_ofNat', UInt8.toNat_ofNat', List.length_append, length_wsmTx,
      ← habytes, a.length_bytes]
    omega

/-! ### The message -/

/-- **With enough headroom, a frame that comes to the helpers gets through**, and the message
decodes to it. -/
theorem atbmTx_spec (vif : AtbmVif) (env : Env) (skb : SkBuff)
    (hkey : vif.keyFor skb.addr1 = key)
    (hframe : ieee80211Hdrlen (frameControl skb.bytes) ≤ skb.len)
    (hroom : wsmTxExtraHeadroom + key.ivRoom ≤ skb.headroom) (heven : skb.data % 2 = 0)
    (hfits : 28 + (skb.data - key.ivRoom) % 4 + key.ivRoom + skb.len + key.trailer < 65536) :
    ∃ out, Decodes key skb.bytes out.bytes ∧ atbmTx vif env skb =
      if vif.enabled ∧ skb.queueMapping < 4 ∧ addressed vif skb.addr1 then
        if env.padto then .queued out else .padFailed out
      else .dropped skb := by
  have hextra : wsmTxExtraHeadroom = 32 := rfl
  have headroom : skb.headroom = skb.data - skb.head := rfl
  have hiv : key.ivRoom % 2 = 0 := by
    unfold Key.ivRoom
    by_cases henc : encrypts key.keyType = true
    · have hlens := congrArg Prod.fst (key.lens_eq henc)
      have hall : ∀ t, (cipherLens t).1 % 2 = 0 := fun t => by cases t <;> rfl
      rw [if_pos henc, show key.ivLen = _ from hlens, hall]
    · rw [if_neg henc]
  have hsta : (vif.staInfoGet skb.addr1).elim vif.groupKey StaInfo.key = key := hkey
  obtain ⟨c, hcrypt, hc⟩ := atbmTxHCrypt_spec hsta hroom hframe
  have hcdata := hc.data
  have hcroom : c.headroom = c.data - skb.head := by rw [SkBuff.headroom, hc.head]
  obtain ⟨a, flags, halign, ha⟩ := atbmTxHAlign_spec c (by omega) (by omega)
  have hadata := ha.data
  have hcmod : c.data % 4 = (skb.data - key.ivRoom) % 4 := by rw [hcdata]
  have hpolicy := atbmTxHRatePolicy_spec (vif.staInfoGet skb.addr1)
    { (atbmTxHWsm (vif.staInfoGet skb.addr1) a vif).2 with
      flags := (atbmTxHWsm (vif.staInfoGet skb.addr1) a vif).2.flags ||| flags }
  generalize hwsm : atbmTxHRatePolicy (vif.staInfoGet skb.addr1)
    { (atbmTxHWsm (vif.staInfoGet skb.addr1) a vif).2 with
      flags := (atbmTxHWsm (vif.staInfoGet skb.addr1) a vif).2.flags ||| flags } = wsm at hpolicy
  obtain ⟨hlen, hflags⟩ := hpolicy
  rw [show WsmTx.len _ = _ from atbmTxHWsm_len a hsta] at hlen
  have hzero : (atbmTxHWsm (vif.staInfoGet skb.addr1) a vif).2.flags ||| flags = flags :=
    Nat.zero_or flags
  rw [hzero] at hflags
  have halen := ha.len
  have hclen := hc.len
  refine ⟨_, decodes_of { wsm with htTxParameters := wsm.htTxParameters &&& 0xfffffeff } hc ha
    hframe (by omega) hlen (by rw [hlen]; omega) hflags, ?_⟩
  unfold atbmTx
  by_cases henabled : vif.enabled = true
  · by_cases hqueue : skb.queueMapping < 4
    · by_cases haddr : addressed vif skb.addr1 = true
      · rw [if_neg (not_not.mpr henabled), if_neg (by omega), if_neg (not_not.mpr haddr),
          if_pos ⟨henabled, hqueue, haddr⟩]
        dsimp only
        rw [hcrypt]
        dsimp only
        rw [halign]
        dsimp only
        rw [hwsm]
        by_cases hpad : env.padto = true
        · rw [if_pos hpad, if_neg (not_not.mpr hpad)]
          rfl
        · rw [if_neg hpad, if_pos hpad]
          rfl
      · rw [if_neg (not_not.mpr henabled), if_neg (by omega), if_pos haddr,
          if_neg (fun h => haddr h.2.2)]
    · rw [if_neg (not_not.mpr henabled), if_pos (by omega), if_neg (fun h => hqueue h.2.1)]
  · rw [if_pos henabled, if_neg (fun h => henabled h.1)]

/-- **Every queued message decodes to its frame**, and the frame is queued unless the interface is
not enabled, the queue is none of its, or `skb_padto` fails. -/
theorem queued_decodes (vif : AtbmVif) (env : Env) (skb : SkBuff)
    (haddr : (vif.staInfoGet skb.addr1).isSome = true ∨
      vif.ether.type = .ap ∧ Ether.isMulticast skb.addr1 = true)
    (hframe : ieee80211Hdrlen (frameControl skb.bytes) ≤ skb.len)
    (hroom : wsmTxExtraHeadroom + (vif.keyFor skb.addr1).ivRoom ≤ skb.headroom)
    (heven : skb.data % 2 = 0)
    (hfits : 28 + (skb.data - (vif.keyFor skb.addr1).ivRoom) % 4 + (vif.keyFor skb.addr1).ivRoom +
      skb.len + (vif.keyFor skb.addr1).trailer < 65536) :
    (∀ out, atbmTx vif env skb = .queued out →
      Decodes (vif.keyFor skb.addr1) skb.bytes out.bytes) ∧
    ((∃ out, atbmTx vif env skb = .queued out) ↔
      vif.enabled ∧ skb.queueMapping < 4 ∧ env.padto) := by
  obtain ⟨out, hdecodes, htx⟩ := atbmTx_spec vif env skb rfl hframe hroom heven hfits
  have hpass : addressed vif skb.addr1 = true := by
    unfold addressed
    rcases haddr with hsome | ⟨hap, hmulti⟩
    · rw [hsome, Bool.true_or]
    · rw [hap]
      dsimp only
      rw [hmulti, Bool.or_true]
  rw [htx]
  by_cases hchecks : vif.enabled = true ∧ skb.queueMapping < 4 ∧ addressed vif skb.addr1 = true
  · rw [if_pos hchecks]
    by_cases hpad : env.padto = true
    · rw [if_pos hpad]
      refine ⟨fun out' hout => ?_, fun _ => ⟨hchecks.1, hchecks.2.1, hpad⟩, fun _ => ⟨out, rfl⟩⟩
      rw [← TxEnd.queued.inj hout]
      exact hdecodes
    · rw [if_neg hpad]
      refine ⟨nofun, fun h => ?_, fun h => absurd h.2.2 hpad⟩
      obtain ⟨out', hout⟩ := h
      cases hout
  · rw [if_neg hchecks]
    refine ⟨nofun, fun h => ?_, fun h => absurd ⟨h.1, h.2.1, hpass⟩ hchecks⟩
    obtain ⟨out', hout⟩ := h
    cases hout

/-- A key for CCMP. -/
def ccmpKey : Key := atbmStaKeyConfig ⟨.unset, 0, 0, nofun⟩ .ccmp

/-- The address of the AP. -/
def apAddr : List UInt8 := [2, 0, 0, 0, 0, 5]

theorem length_apAddr : apAddr.length = 6 := rfl

/-- An interface that is associated with an AP under CCMP. -/
def ccmpVif : AtbmVif where
  ether := ⟨.station, ⟨apAddr, length_apAddr⟩, ⟨apAddr, length_apAddr⟩⟩
  staInfoGet := fun a => if a = apAddr then some ⟨true, 1, ccmpKey, 7, false⟩ else none
  groupKey := ccmpKey
  enabled := true
  ifId := 0

/-- A QoS data frame to it with three bytes of payload, at address 102 of a memory. -/
def qosSkb : SkBuff where
  mem := writes (fun _ => 0) 102 ([0x88, 0x01, 0, 0] ++ apAddr ++ apAddr ++ apAddr ++
    [0, 0, 0, 0] ++ [7, 8, 9])
  head := 10
  data := 102
  len := 29
  shared := false
  cloned := false
  queueMapping := 0
  priority := 0
  pushes := []

theorem queued_decodes_ccmp : ∃ out, atbmTx ccmpVif ⟨false, true, none, fun _ => 0, true⟩ qosSkb =
    .queued out ∧ Decodes (ccmpVif.keyFor qosSkb.addr1) qosSkb.bytes out.bytes := by
  have h := queued_decodes ccmpVif ⟨false, true, none, fun _ => 0, true⟩ qosSkb
    (Or.inl (by decide +kernel)) (by decide +kernel) (by decide +kernel) (by decide +kernel)
    (by decide +kernel)
  obtain ⟨out, hout⟩ := h.2.mpr ⟨rfl, by decide, rfl⟩
  exact ⟨out, hout, h.1 out hout⟩

end Atbm6441.Tx.Xmit
