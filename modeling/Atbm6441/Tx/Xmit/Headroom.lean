import Atbm6441.Tx.Xmit.Decode

/-!
# The headroom of a frame

`atbm_subif_start_xmit` makes room for all the headers only when the buffer has none for the first
of them or is a clone. `start_path` : where the 802.11 frame is then, and whether `atbm_tx` accepts
it. `pushes_fit_iff` : every push is within the headroom, unless a frame without a cipher comes to
the descriptor in a buffer with less than 28 bytes left.
-/

namespace Atbm6441.Tx.Xmit

open Atbm6441.Lib Atbm6441.Ieee80211
open Atbm6441.Ether (encapsData ethertype skipHeaderBytes hdrBytes)

/-! ### Pushes -/

/-- Every push is within the headroom there was. -/
def Fit (pushes : List (ℕ × ℕ)) : Prop := ∀ p ∈ pushes, p.1 ≤ p.2

theorem fit_append {l : List (ℕ × ℕ)} {n m : ℕ} : Fit (l ++ [(n, m)]) ↔ Fit l ∧ n ≤ m := by
  unfold Fit
  rw [List.forall_mem_append, List.forall_mem_singleton]

/-- The data of a buffer has moved down by some bytes, with pushes that fit. -/
structure Moved (skb skb' : SkBuff) (n : ℕ) : Prop where
  data : skb'.data = skb.data - n
  head : skb'.head = skb.head
  fit : Fit skb'.pushes ↔ Fit skb.pushes

namespace Moved

variable {skb skb' skb'' : SkBuff} {m n : ℕ}

theorem refl (skb : SkBuff) : Moved skb skb 0 := ⟨rfl, rfl, Iff.rfl⟩

theorem headroom (h : Moved skb skb' n) : skb'.headroom = skb.headroom - n := by
  unfold SkBuff.headroom
  rw [h.data, h.head, Nat.sub_right_comm]

theorem trans (h : Moved skb skb' m) (h' : Moved skb' skb'' n) : Moved skb skb'' (m + n) where
  data := by rw [h'.data, h.data, Nat.sub_sub]
  head := h'.head.trans h.head
  fit := h'.fit.trans h.fit

theorem push {n : ℕ} (hn : n ≤ skb.headroom) : Moved skb (skb.push n) n :=
  ⟨rfl, rfl, fit_append.trans (and_iff_left hn)⟩

theorem store (h : Moved skb skb' n) (off : ℕ) (l : List UInt8) :
    Moved skb (skb'.store off l) n := ⟨h.data, h.head, h.fit⟩

end Moved

/-! ### `atbm_tx` -/

/-- **What `atbm_tx` queues**, if `skb_padto` succeeds: a frame to `addr1` at the address `addr`,
with `room` bytes in front of it. -/
def Accepts (vif : AtbmVif) (addr1 : List UInt8) (queueMapping room addr : ℕ) : Prop :=
  vif.enabled ∧ queueMapping < 4 ∧ addressed vif addr1 ∧
    (encrypts (vif.keyFor addr1).keyType →
      wsmTxExtraHeadroom + (vif.keyFor addr1).ivLen ≤ room) ∧
    (addr - (vif.keyFor addr1).ivRoom) % 2 = 0 ∧
    (addr - (vif.keyFor addr1).ivRoom) % 4 ≤ room - (vif.keyFor addr1).ivRoom

/-- What is left for the descriptor. -/
def descriptorRoom (vif : AtbmVif) (addr1 : List UInt8) (room addr : ℕ) : ℕ :=
  room - (vif.keyFor addr1).ivRoom - (addr - (vif.keyFor addr1).ivRoom) % 4

variable {sta : Option StaInfo} {vif : AtbmVif} {env : Env} {skb : SkBuff} {key : Key}

/-- The cipher drops a frame without room for all that follows. -/
theorem atbmTxHCrypt_path (skb : SkBuff) (hkey : sta.elim vif.groupKey StaInfo.key = key) :
    (atbmTxHCrypt sta skb vif = none ∧ encrypts key.keyType = true ∧
      skb.headroom < wsmTxExtraHeadroom + key.ivLen) ∨
    ∃ skb', atbmTxHCrypt sta skb vif = some skb' ∧
      (encrypts key.keyType = true → wsmTxExtraHeadroom + key.ivLen ≤ skb.headroom) ∧
      Moved skb skb' key.ivRoom := by
  rw [atbmTxHCrypt_eq, hkey]
  unfold Key.ivRoom
  by_cases henc : encrypts key.keyType = true
  · rw [if_neg (not_not.mpr henc), if_pos henc]
    by_cases hroom : skb.headroom < wsmTxExtraHeadroom + key.ivLen
    · rw [if_pos hroom]
      exact Or.inl ⟨rfl, henc, hroom⟩
    · rw [if_neg hroom]
      have hpush : key.ivLen ≤
          (skb.store 0 (leBytes 2 (frameControl skb.bytes ||| 0x4000))).headroom := by
        show key.ivLen ≤ skb.headroom
        omega
      refine Or.inr ⟨_, rfl, fun _ => by omega, Moved.store ?_ 0 _⟩
      have hstore := (Moved.refl skb).store 0 (leBytes 2 (frameControl skb.bytes ||| 0x4000))
      have hmoved := hstore.trans (Moved.push hpush)
      rwa [Nat.zero_add] at hmoved
  · rw [if_pos henc, if_neg henc]
    exact Or.inr ⟨skb, rfl, fun h => absurd h henc, Moved.refl skb⟩

/-- The alignment drops a frame without room for it, or at an odd address. -/
theorem atbmTxHAlign_path (skb : SkBuff) :
    (atbmTxHAlign skb = none ∧ ¬ (skb.data % 2 = 0 ∧ skb.data % 4 ≤ skb.headroom)) ∨
    ∃ skb' flags, atbmTxHAlign skb = some (skb', flags) ∧ skb.data % 2 = 0 ∧
      skb.data % 4 ≤ skb.headroom ∧ Moved skb skb' (skb.data % 4) := by
  unfold atbmTxHAlign
  dsimp only
  by_cases h0 : skb.data % 4 = 0
  · rw [if_pos h0, h0]
    exact Or.inr ⟨skb, 0, rfl, by omega, Nat.zero_le _, Moved.refl skb⟩
  rw [if_neg h0]
  by_cases hodd : skb.data % 4 % 2 = 1
  · rw [if_pos hodd]
    exact Or.inl ⟨rfl, fun h => by omega⟩
  rw [if_neg hodd]
  by_cases hroom : skb.headroom < skb.data % 4
  · rw [if_pos hroom]
    exact Or.inl ⟨rfl, fun h => by omega⟩
  · rw [if_neg hroom]
    exact Or.inr ⟨_, _, rfl, by omega, by omega, Moved.push (by omega)⟩

/-- **The way through `atbm_tx`**: an accepted frame gets its descriptor, whose push is not checked;
any other is dropped. -/
theorem atbmTx_path (vif : AtbmVif) (env : Env) (skb : SkBuff) :
    (Accepts vif skb.addr1 skb.queueMapping skb.headroom skb.data ∧
      ∃ skb', (atbmTx vif env skb = if env.padto then .queued skb' else .padFailed skb') ∧
        (Fit skb'.pushes ↔
          Fit skb.pushes ∧ 28 ≤ descriptorRoom vif skb.addr1 skb.headroom skb.data)) ∨
    (¬ Accepts vif skb.addr1 skb.queueMapping skb.headroom skb.data ∧
      ∃ skb', atbmTx vif env skb = .dropped skb' ∧ (Fit skb'.pushes ↔ Fit skb.pushes)) := by
  unfold atbmTx
  by_cases henabled : vif.enabled = true
  swap
  · rw [if_pos henabled]
    exact Or.inr ⟨fun h => henabled h.1, skb, rfl, Iff.rfl⟩
  by_cases hqueue : skb.queueMapping < 4
  swap
  · rw [if_neg (not_not.mpr henabled), if_pos (by omega)]
    exact Or.inr ⟨fun h => hqueue h.2.1, skb, rfl, Iff.rfl⟩
  by_cases haddr : addressed vif skb.addr1 = true
  swap
  · rw [if_neg (not_not.mpr henabled), if_neg (by omega), if_pos haddr]
    exact Or.inr ⟨fun h => haddr h.2.2.1, skb, rfl, Iff.rfl⟩
  rw [if_neg (not_not.mpr henabled), if_neg (by omega), if_neg (not_not.mpr haddr)]
  have hkey : (vif.staInfoGet skb.addr1).elim vif.groupKey StaInfo.key = vif.keyFor skb.addr1 := rfl
  dsimp only
  obtain ⟨hnone, henc, hshort⟩ | ⟨c, hcrypt, hroom, hc⟩ := atbmTxHCrypt_path skb hkey
  · rw [hnone]
    refine Or.inr ⟨fun h => ?_, skb, rfl, Iff.rfl⟩
    have := h.2.2.2.1 henc
    omega
  rw [hcrypt]
  dsimp only
  have hcroom := hc.headroom
  have hcdata := hc.data
  obtain ⟨hnone, hbad⟩ | ⟨a, flags, halign, heven, hle, ha⟩ := atbmTxHAlign_path c
  · rw [hnone]
    refine Or.inr ⟨fun h => hbad ?_, c, rfl, hc.fit⟩
    rw [hcdata, hcroom]
    exact h.2.2.2.2
  rw [halign]
  dsimp only
  rw [hcdata, hcroom] at hle
  rw [hcdata] at heven
  have hroom' : a.headroom = descriptorRoom vif skb.addr1 skb.headroom skb.data := by
    rw [ha.headroom, hcroom, hcdata]
    rfl
  have hfit : ∀ l, Fit ((atbmTxHWsm (vif.staInfoGet skb.addr1) a vif).1.store 0 l).pushes ↔
      Fit skb.pushes ∧ 28 ≤ descriptorRoom vif skb.addr1 skb.headroom skb.data := fun l => by
    rw [← hroom']
    exact fit_append.trans (and_congr_left fun _ => ha.fit.trans hc.fit)
  have haccepts : Accepts vif skb.addr1 skb.queueMapping skb.headroom skb.data :=
    ⟨henabled, hqueue, haddr, hroom, heven, hle⟩
  by_cases hpad : env.padto = true
  · exact Or.inl ⟨haccepts, _, (if_neg (not_not.mpr hpad)).trans (if_pos hpad).symm, hfit _⟩
  · exact Or.inl ⟨haccepts, _, (if_pos hpad).trans (if_neg hpad).symm, hfit _⟩

/-! ### The headers -/

/-- The header that the function fills in: the addresses have six bytes, and there is a QoS control
field if `hdrlen` says so. -/
structure XmitHdr.Wf (hdr : XmitHdr) : Prop where
  addr1 : hdr.addr1.length = 6
  addr2 : hdr.addr2.length = 6
  addr3 : hdr.addr3.length = 6
  hdrlen : hdr.hdrlen = if ieee80211IsDataQos hdr.fc then 26 else 24

theorem xmitHdr_wf {d : List UInt8} {hdr : XmitHdr} (h : vif.xmitHdr d = some hdr) : hdr.Wf := by
  unfold AtbmVif.xmitHdr at h
  rcases hether : vif.ether.hdr d with _ | ⟨fc, a1, a2, a3⟩
  · rw [hether] at h
    cases h
  have hlens : a1.length = 6 ∧ a2.length = 6 ∧ a3.length = 6 ∧ ieee80211IsDataQos fc = false ∧
      ieee80211IsDataQos (fc ||| 0x0080) = true := by
    unfold Ether.TxVif.hdr at hether
    split at hether <;> cases hether
    · exact ⟨vif.ether.bssid.length_bytes, Ether.length_etherAddrAt _ _,
        Ether.length_etherAddrAt _ _, rfl, rfl⟩
    · exact ⟨Ether.length_etherAddrAt _ _, vif.ether.addr.length_bytes,
        Ether.length_etherAddrAt _ _, rfl, rfl⟩
  obtain ⟨h1, h2, h3, hfc, hqos⟩ := hlens
  rw [hether] at h
  dsimp only at h
  split_ifs at h <;> cases h
  · exact ⟨h1, h2, h3, (if_pos hqos).symm⟩
  · exact ⟨h1, h2, h3, by dsimp only; rw [hfc]; rfl⟩

/-- The bytes of all the headers. -/
def headersLen (hdr : XmitHdr) (et : ℕ) : ℕ := hdr.hdrlen + (encapsData et).length

theorem length_hdrBytes {hdr : XmitHdr} (hwf : hdr.Wf) :
    (hdrBytes hdr.fc hdr.addr1 hdr.addr2 hdr.addr3).length = 24 := by
  simp [hdrBytes, Ether.le16, hwf.addr1, hwf.addr2, hwf.addr3]

theorem addr1_pushHeader {hdr : XmitHdr} (hwf : hdr.Wf) (skb : SkBuff) :
    (skb.pushBytes (hdrBytes hdr.fc hdr.addr1 hdr.addr2 hdr.addr3)).addr1 = hdr.addr1 := by
  have hlen := length_hdrBytes hwf
  have hbytes : hdrBytes hdr.fc hdr.addr1 hdr.addr2 hdr.addr3 =
      (Ether.le16 hdr.fc ++ [0, 0]) ++ (hdr.addr1 ++ (hdr.addr2 ++ hdr.addr3 ++ [0, 0])) := by
    simp only [hdrBytes, List.append_assoc]
  have hslice := slice_writes_sub skb.mem
    (skb.data - (hdrBytes hdr.fc hdr.addr1 hdr.addr2 hdr.addr3).length)
    (l := hdrBytes hdr.fc hdr.addr1 hdr.addr2 hdr.addr3) (p := 4) (m := 6) (by omega)
  have hfront : (Ether.le16 hdr.fc ++ [0, 0]).length = 4 := rfl
  refine Eq.trans hslice ?_
  rw [hbytes, List.drop_left' hfront, List.take_left' hwf.addr1]

theorem addr1_store (skb : SkBuff) {off : ℕ} (hoff : 10 ≤ off) (l : List UInt8) :
    (skb.store off l).addr1 = skb.addr1 := by
  have hbelow : skb.data + 4 + 6 ≤ skb.data + off := by omega
  exact slice_writes_below l hbelow

theorem Moved.pushBytes {l : List UInt8} (hl : l.length ≤ skb.headroom) :
    Moved skb (skb.pushBytes l) l.length := (Moved.push hl).store 0 l

/-- What is done to a buffer before `atbm_tx` gets it. -/
structure Framed (hdr : XmitHdr) (skb skb' : SkBuff) (n : ℕ) : Prop extends Moved skb skb' n where
  addr1 : skb'.addr1 = hdr.addr1
  queueMapping : skb'.queueMapping = skb.queueMapping

/-- **The headers**: their pushes fit when there is room for all of them. -/
theorem pushHeaders_path {hdr : XmitHdr} (hwf : hdr.Wf) (et : ℕ)
    (hroom : headersLen hdr et ≤ skb.headroom) :
    Framed hdr skb (pushHeaders hdr et skb) (headersLen hdr et) := by
  unfold headersLen at hroom ⊢
  have hencaps : ∃ inner,
      inner = (if encapsData et = [] then skb else skb.pushBytes (encapsData et)) ∧
      Moved skb inner (encapsData et).length ∧ inner.queueMapping = skb.queueMapping := by
    refine ⟨_, rfl, ?_⟩
    by_cases hnil : encapsData et = []
    · rw [if_pos hnil, hnil]
      exact ⟨Moved.refl skb, rfl⟩
    · rw [if_neg hnil]
      exact ⟨Moved.pushBytes (by omega), rfl⟩
  obtain ⟨inner, hinner, hmoved, hqueue⟩ := hencaps
  have hleft := hmoved.headroom
  have hlen := length_hdrBytes hwf
  unfold pushHeaders
  dsimp only
  rw [← hinner]
  by_cases hqos : ieee80211IsDataQos hdr.fc = true
  · have hhdrlen : hdr.hdrlen = 2 + 24 := hwf.hdrlen.trans (if_pos hqos)
    rw [if_pos hqos]
    have hctl : Moved inner (inner.push 2) 2 := Moved.push (by omega)
    have hheader : Moved (inner.push 2) _ 24 :=
      hlen ▸ Moved.pushBytes (l := hdrBytes hdr.fc hdr.addr1 hdr.addr2 hdr.addr3)
        (by rw [hctl.headroom]; omega)
    have hall := (hmoved.trans (hctl.trans hheader)).store 24 [0, 0]
    rw [← hhdrlen, Nat.add_comm] at hall
    refine ⟨hall, ?_, hqueue⟩
    rw [addr1_store _ (by omega), addr1_pushHeader hwf]
  · have hhdrlen : hdr.hdrlen = 24 := hwf.hdrlen.trans (if_neg hqos)
    rw [if_neg hqos]
    have hheader : Moved inner _ 24 :=
      hlen ▸ Moved.pushBytes (l := hdrBytes hdr.fc hdr.addr1 hdr.addr2 hdr.addr3) (by omega)
    have hall := hmoved.trans hheader
    rw [← hhdrlen, Nat.add_comm] at hall
    exact ⟨hall, addr1_pushHeader hwf _, hqueue⟩

theorem framed_setQosHdr {hdr : XmitHdr} {skb' : SkBuff} {n : ℕ} (h : Framed hdr skb skb' n) :
    Framed hdr skb (atbmSetQosHdr skb') n := by
  unfold atbmSetQosHdr
  dsimp only
  split_ifs
  · have hoff : 10 ≤ ieee80211GetQosCtl (frameControl skb'.bytes) := by
      unfold ieee80211GetQosCtl
      split_ifs <;> omega
    exact ⟨h.toMoved.store _ _, (addr1_store _ hoff _).trans h.addr1, h.queueMapping⟩
  · exact h

/-! ### Making room -/

/-- The buffer is reallocated. -/
def resized (hdr : XmitHdr) (et : ℕ) (skb : SkBuff) : Bool :=
  decide (skb.headroom < headersLen hdr et) || skb.cloned

/-- How much headroom it gets more. -/
def growth (hdr : XmitHdr) (et : ℕ) (skb : SkBuff) : ℕ :=
  if resized hdr et skb then headersLen hdr et + 136 - skb.headroom else 0

/-- Where the data of the buffer are then. -/
def dataAfter (hdr : XmitHdr) (et : ℕ) (skb : SkBuff) (env : Env) : Option ℕ :=
  if resized hdr et skb then env.expandHead.map (· + growth hdr et skb + skb.headroom)
  else some skb.data

theorem pskbExpandHead_spec (skb : SkBuff) (n : ℕ) {head : ℕ} (h : env.expandHead = some head) :
    ∃ skb', pskbExpandHead skb n env = some skb' ∧ skb'.data = head + n + skb.headroom ∧
      skb'.headroom = n + skb.headroom ∧ skb'.pushes = skb.pushes ∧
      skb'.queueMapping = skb.queueMapping := by
  refine ⟨_, congrArg (Option.map _) h, rfl, ?_, rfl, rfl⟩
  show head + n + skb.headroom - head = _
  omega

/-- **Room for the headers**, unless the reallocation fails. -/
theorem makeRoom_path (hdr : XmitHdr) (et : ℕ) (skb : SkBuff) (env : Env) :
    (resized hdr et skb = true ∧ env.expandHead = none ∧ makeRoom hdr et skb env = none) ∨
    ∃ skb', makeRoom hdr et skb env = some skb' ∧ dataAfter hdr et skb env = some skb'.data ∧
      skb'.headroom = growth hdr et skb + skb.headroom ∧ skb'.pushes = skb.pushes ∧
      skb'.queueMapping = skb.queueMapping := by
  have hneed : headNeed hdr et skb = headersLen hdr et - skb.headroom := by
    unfold headNeed headersLen
    omega
  have hextra : ieee80211EncryptHeadroom + extraTxHeadroom = 136 := rfl
  have hresized : (0 < headNeed hdr et skb ∨ skb.cloned = true) ↔ resized hdr et skb = true := by
    unfold resized
    rw [hneed, Bool.or_eq_true, decide_eq_true_eq]
    exact or_congr_left (by omega)
  unfold makeRoom dataAfter growth
  dsimp only
  by_cases hres : resized hdr et skb = true
  · have hgrow : (max 0 (headNeed hdr et skb + ieee80211EncryptHeadroom + extraTxHeadroom)).toNat =
        headersLen hdr et + 136 - skb.headroom := by
      rw [hneed]
      omega
    have htry : ¬ (skb.cloned = false ∧ headersLen hdr et + 136 - skb.headroom = 0) := by
      rintro ⟨hclone, hzero⟩
      rw [resized, hclone, Bool.or_false, decide_eq_true_eq] at hres
      omega
    rw [if_pos (hresized.mpr hres), hgrow, ieee80211SkbResize, if_neg htry, if_pos hres,
      if_pos hres]
    rcases hexpand : env.expandHead with _ | head
    · refine Or.inl ⟨hres, rfl, ?_⟩
      rw [pskbExpandHead, hexpand]
      rfl
    · obtain ⟨skb', hsome, hdata, hrest⟩ :=
        pskbExpandHead_spec skb (headersLen hdr et + 136 - skb.headroom) hexpand
      exact Or.inr ⟨skb', hsome, by rw [hdata]; rfl, hrest⟩
  · rw [if_neg (fun h => hres (hresized.mp h)), if_neg hres, if_neg hres]
    exact Or.inr ⟨skb, rfl, rfl, (Nat.zero_add _).symm, rfl, rfl⟩

/-! ### The whole way -/

/-- The buffer the function works on: its own copy of one that is shared. -/
def SkBuff.own (skb : SkBuff) : SkBuff :=
  if skb.shared then { skb with shared := false, cloned := true } else skb

/-- It without the Ethernet header. -/
def SkBuff.payload (skb : SkBuff) : SkBuff := skb.own.pull (skipHeaderBytes (ethertype skb.bytes))

/-- A frame that `atbm_subif_start_xmit` does not drop, with its header. -/
structure Comes (vif : AtbmVif) (env : Env) (skb : SkBuff) (hdr : XmitHdr) : Prop where
  up : env.isPreRmmod = false
  long : 14 ≤ skb.len
  header : vif.xmitHdr skb.bytes = some hdr
  own : skb.shared = true → env.clone = true

/-- The headroom in front of the 802.11 frame. -/
def frameRoom (hdr : XmitHdr) (skb : SkBuff) : ℕ :=
  growth hdr (ethertype skb.bytes) skb.payload + skb.payload.headroom -
    headersLen hdr (ethertype skb.bytes)

/-- Its address, if the reallocation succeeds. -/
def frameAddr (hdr : XmitHdr) (skb : SkBuff) (env : Env) : Option ℕ :=
  (dataAfter hdr (ethertype skb.bytes) skb.payload env).map
    (· - headersLen hdr (ethertype skb.bytes))

/-- How the part after the clone ends. -/
inductive OwnEnd (vif : AtbmVif) (env : Env) (hdr : XmitHdr) (b : Buffer) (skb : SkBuff) :
    NetdevTx × SkBuff × List Event → Prop
  /-- the reallocation fails -/
  | busy (h : frameAddr hdr skb env = none) : OwnEnd vif env hdr b skb (.busy, skb.payload, [])
  /-- the frame comes to `skb_padto` -/
  | padded (addr : ℕ) (skb' : SkBuff) (h : frameAddr hdr skb env = some addr)
      (haccepts : Accepts vif hdr.addr1 skb.queueMapping (frameRoom hdr skb) addr)
      (hfit : Fit skb'.pushes ↔
        Fit skb.pushes ∧ 28 ≤ descriptorRoom vif hdr.addr1 (frameRoom hdr skb) addr) :
      OwnEnd vif env hdr b skb
        (.ok, skb', if env.padto then [.queue b] else [.free b, .free b])
  /-- `atbm_tx` drops it -/
  | dropped (addr : ℕ) (skb' : SkBuff) (h : frameAddr hdr skb env = some addr)
      (haccepts : ¬ Accepts vif hdr.addr1 skb.queueMapping (frameRoom hdr skb) addr)
      (hfit : Fit skb'.pushes ↔ Fit skb.pushes) : OwnEnd vif env hdr b skb (.ok, skb', [.free b])

theorem own_fields (skb : SkBuff) : skb.own.bytes = skb.bytes ∧ skb.own.pushes = skb.pushes ∧
    skb.own.queueMapping = skb.queueMapping := by
  unfold SkBuff.own
  split_ifs <;> exact ⟨rfl, rfl, rfl⟩

theorem xmitOwn_path {hdr : XmitHdr} (hwf : hdr.Wf) (vif : AtbmVif) (env : Env) (b : Buffer)
    (skb : SkBuff) : OwnEnd vif env hdr b skb (xmitOwn vif env hdr b skb.own) := by
  obtain ⟨hbytes, hpushes, hqueue⟩ := own_fields skb
  unfold xmitOwn
  dsimp only
  rw [hbytes]
  have hpayload : skb.own.pull (skipHeaderBytes (ethertype skb.bytes)) = skb.payload := rfl
  rw [hpayload]
  have haddr : frameAddr hdr skb env = (dataAfter hdr (ethertype skb.bytes) skb.payload env).map
    (· - headersLen hdr (ethertype skb.bytes)) := rfl
  obtain ⟨hres, hfail, hnone⟩ | ⟨grown, hsome, hdata, hroom, hgpushes, hgqueue⟩ :=
    makeRoom_path hdr (ethertype skb.bytes) skb.payload env
  · rw [hnone]
    refine .busy ?_
    rw [haddr, dataAfter, if_pos hres, hfail]
    rfl
  rw [hsome]
  dsimp only
  rw [hdata] at haddr
  have hle : headersLen hdr (ethertype skb.bytes) ≤ grown.headroom := by
    rw [hroom, growth]
    by_cases hres : resized hdr (ethertype skb.bytes) skb.payload = true
    · rw [if_pos hres]
      omega
    · rw [if_neg hres]
      rw [resized, Bool.or_eq_true, decide_eq_true_eq] at hres
      omega
  have hframed := framed_setQosHdr (pushHeaders_path hwf (ethertype skb.bytes) hle)
  generalize atbmSetQosHdr (pushHeaders hdr (ethertype skb.bytes) grown) = frame at hframed
  have hfroom : frame.headroom = frameRoom hdr skb := by
    rw [hframed.headroom, hroom]
    rfl
  have hfqueue : frame.queueMapping = skb.queueMapping :=
    hframed.queueMapping.trans (hgqueue.trans hqueue)
  have hffit : Fit frame.pushes ↔ Fit skb.pushes := by
    rw [hframed.fit, hgpushes]
    exact Iff.of_eq (congrArg Fit hpushes)
  have hpath := atbmTx_path vif env frame
  rw [hframed.addr1, hfroom, hfqueue, hframed.data, hffit] at hpath
  obtain ⟨haccepts, skb', htx, hfit⟩ | ⟨haccepts, skb', htx, hfit⟩ := hpath
  · have hend := OwnEnd.padded (b := b) _ skb' haddr haccepts hfit
    rw [htx]
    by_cases hpad : env.padto = true
    · rw [if_pos hpad] at hend ⊢
      exact hend
    · rw [if_neg hpad] at hend ⊢
      exact hend
  · rw [htx]
    exact .dropped _ skb' haddr haccepts hfit

/-- How a call ends. -/
inductive CallEnd (vif : AtbmVif) (env : Env) (skb : SkBuff) : XmitEnd → Prop
  /-- the buffer is dropped at once -/
  | early (h : ∀ hdr, ¬ Comes vif env skb hdr) :
      CallEnd vif env skb ⟨.ok, skb, skb, [.free .caller]⟩
  | shared (hdr : XmitHdr) (h : Comes vif env skb hdr) (hshared : skb.shared = true)
      (ret : NetdevTx) (own : SkBuff) (log : List Event)
      (hown : OwnEnd vif env hdr .clone skb (ret, own, log)) :
      CallEnd vif env skb ⟨ret, skb, own, .cloned :: .free .caller :: log⟩
  | own (hdr : XmitHdr) (h : Comes vif env skb hdr) (hshared : skb.shared = false)
      (ret : NetdevTx) (own : SkBuff) (log : List Event)
      (hown : OwnEnd vif env hdr .caller skb (ret, own, log)) :
      CallEnd vif env skb ⟨ret, own, own, log⟩

theorem Comes.unique {hdr hdr' : XmitHdr} (h : Comes vif env skb hdr)
    (h' : Comes vif env skb hdr') : hdr' = hdr :=
  Option.some.inj (h'.header.symm.trans h.header)

theorem Comes.forall_iff {hdr : XmitHdr} {P : XmitHdr → Prop} (h : Comes vif env skb hdr) :
    (∀ hdr', Comes vif env skb hdr' → P hdr') ↔ P hdr :=
  ⟨fun hall => hall hdr h, fun hP _ h' => h.unique h' ▸ hP⟩

/-- **The ways through `atbm_subif_start_xmit`.** -/
theorem start_path (vif : AtbmVif) (env : Env) (skb : SkBuff) :
    CallEnd vif env skb (atbmSubifStartXmit vif env skb) := by
  unfold atbmSubifStartXmit
  by_cases hup : env.isPreRmmod = true
  · rw [if_pos hup]
    exact .early fun hdr h => by rw [h.up] at hup; cases hup
  rw [if_neg hup]
  by_cases hlong : skb.len < 14
  · rw [if_pos hlong]
    exact .early fun hdr h => absurd h.long (by omega)
  rw [if_neg hlong]
  rcases hheader : vif.xmitHdr skb.bytes with _ | hdr
  · exact .early fun hdr h => by rw [h.header] at hheader; cases hheader
  dsimp only
  have hup' : env.isPreRmmod = false := Bool.eq_false_iff.mpr hup
  have hwf := xmitHdr_wf hheader
  by_cases hshared : skb.shared = true
  · rw [if_pos hshared]
    have hown : skb.own = { skb with shared := false, cloned := true } := if_pos hshared
    by_cases hclone : env.clone = true
    · rw [if_neg (not_not.mpr hclone), ← hown]
      exact .shared hdr ⟨hup', by omega, hheader, fun _ => hclone⟩ hshared _ _ _
        (xmitOwn_path hwf vif env .clone skb)
    · rw [if_pos hclone]
      exact .early fun hdr h => hclone (h.own hshared)
  · rw [if_neg hshared]
    have hown : skb.own = skb := if_neg hshared
    have hpath := xmitOwn_path hwf vif env .caller skb
    rw [hown] at hpath
    exact .own hdr ⟨hup', by omega, hheader, fun h => absurd h hshared⟩
      (Bool.eq_false_iff.mpr hshared) _ _ _ hpath

/-! ### Frames without room for the descriptor -/

/-- **A cramped frame**: it is not encrypted, its buffer is not reallocated, and `atbm_tx` accepts
it with less than the 28 bytes of the descriptor left in front of it and its alignment. -/
def Cramped (vif : AtbmVif) (hdr : XmitHdr) (skb : SkBuff) : Prop :=
  resized hdr (ethertype skb.bytes) skb.payload = false ∧
    encrypts (vif.keyFor hdr.addr1).keyType = false ∧
    Accepts vif hdr.addr1 skb.queueMapping
      (skb.payload.headroom - headersLen hdr (ethertype skb.bytes))
      (skb.payload.data - headersLen hdr (ethertype skb.bytes)) ∧
    skb.payload.headroom - headersLen hdr (ethertype skb.bytes) <
      28 + (skb.payload.data - headersLen hdr (ethertype skb.bytes)) % 4

variable {hdr : XmitHdr} {addr : ℕ}

theorem descriptorRoom_le {addr1 : List UInt8} {queueMapping room addr : ℕ}
    (haccepts : Accepts vif addr1 queueMapping room addr)
    (h : encrypts (vif.keyFor addr1).keyType = true ∨ 32 ≤ room) :
    28 ≤ descriptorRoom vif addr1 room addr := by
  obtain ⟨-, -, -, hcipher, heven, -⟩ := haccepts
  have hextra : wsmTxExtraHeadroom = 32 := rfl
  unfold descriptorRoom
  by_cases henc : encrypts (vif.keyFor addr1).keyType = true
  · have hiv : (vif.keyFor addr1).ivRoom = (vif.keyFor addr1).ivLen := if_pos henc
    have := hcipher henc
    omega
  · have hiv : (vif.keyFor addr1).ivRoom = 0 := if_neg henc
    have := h.resolve_left henc
    omega

/-- A frame that is accepted is cramped exactly when there is no room for the descriptor. -/
theorem cramped_iff (haddr : frameAddr hdr skb env = some addr) : Cramped vif hdr skb ↔
    Accepts vif hdr.addr1 skb.queueMapping (frameRoom hdr skb) addr ∧
      descriptorRoom vif hdr.addr1 (frameRoom hdr skb) addr < 28 := by
  unfold frameAddr dataAfter at haddr
  by_cases hres : resized hdr (ethertype skb.bytes) skb.payload = true
  · have hroom : 32 ≤ frameRoom hdr skb := by
      rw [frameRoom, growth, if_pos hres]
      omega
    refine iff_of_false (fun h => ?_) (fun h => ?_)
    · cases hres.symm.trans h.1
    · have := descriptorRoom_le h.1 (Or.inr hroom)
      omega
  rw [if_neg hres] at haddr
  obtain rfl : skb.payload.data - headersLen hdr (ethertype skb.bytes) = addr :=
    Option.some.inj haddr
  have hroom : frameRoom hdr skb =
      skb.payload.headroom - headersLen hdr (ethertype skb.bytes) := by
    rw [frameRoom, growth, if_neg hres, Nat.zero_add]
  unfold Cramped
  rw [hroom]
  by_cases henc : encrypts (vif.keyFor hdr.addr1).keyType = true
  · refine iff_of_false (fun h => ?_) (fun h => ?_)
    · cases henc.symm.trans h.2.1
    · have := descriptorRoom_le h.1 (Or.inl henc)
      omega
  · have hiv : (vif.keyFor hdr.addr1).ivRoom = 0 := if_neg henc
    have hres' := Bool.eq_false_iff.mpr hres
    have henc' := Bool.eq_false_iff.mpr henc
    rw [descriptorRoom, hiv, Nat.sub_zero, Nat.sub_zero]
    constructor
    · rintro ⟨-, -, haccepts, hless⟩
      exact ⟨haccepts, by omega⟩
    · rintro ⟨haccepts, hless⟩
      exact ⟨hres', henc', haccepts, by omega⟩

theorem OwnEnd.fit_iff {b : Buffer} {r : NetdevTx × SkBuff × List Event}
    (h : OwnEnd vif env hdr b skb r) (hnew : skb.pushes = []) :
    Fit r.2.1.pushes ↔ ¬ Cramped vif hdr skb := by
  have hfit : Fit skb.pushes := by
    rw [hnew]
    exact List.forall_mem_nil _
  cases h with
  | busy haddr =>
    refine iff_of_true ?_ fun hcramped => ?_
    · show Fit skb.own.pushes
      rw [(own_fields skb).2.1]
      exact hfit
    · rw [frameAddr, dataAfter, hcramped.1] at haddr
      cases haddr
  | padded addr skb' haddr haccepts hpushes =>
    show Fit skb'.pushes ↔ _
    rw [hpushes, cramped_iff haddr, and_iff_right hfit, and_iff_right haccepts, Nat.not_lt]
  | dropped addr skb' haddr haccepts hpushes =>
    refine iff_of_true (hpushes.mpr hfit) fun hcramped => ?_
    exact haccepts ((cramped_iff haddr).mp hcramped).1

/-- **Every push is within the headroom** exactly when no cramped frame comes to the descriptor. -/
theorem pushes_fit_iff (vif : AtbmVif) (env : Env) (skb : SkBuff) (hnew : skb.pushes = []) :
    Fit (atbmSubifStartXmit vif env skb).skb.pushes ↔
      ∀ hdr, Comes vif env skb hdr → ¬ Cramped vif hdr skb := by
  have hpath := start_path vif env skb
  generalize atbmSubifStartXmit vif env skb = r at hpath ⊢
  cases hpath with
  | early h =>
    refine iff_of_true ?_ fun hdr hcomes => absurd hcomes (h hdr)
    show Fit skb.pushes
    rw [hnew]
    exact List.forall_mem_nil _
  | shared hdr h hshared ret own log hown =>
    rw [h.forall_iff]
    exact hown.fit_iff hnew
  | own hdr h hshared ret own log hown =>
    rw [h.forall_iff]
    exact hown.fit_iff hnew

/-- An interface that is associated with an AP without a cipher. -/
def openVif : AtbmVif :=
  { ccmpVif with
    staInfoGet := fun a => if a = apAddr then some ⟨true, 1, apKeyConfig ccmpKey .none, 7, false⟩
      else none }

/-- An IP packet of one byte to be sent, with `n` bytes of headroom. -/
def ipSkb (n : ℕ) : SkBuff :=
  { qosSkb with
    mem := writes (fun _ => 0) (100 + n) (apAddr ++ apAddr ++ [0x08, 0x00, 0x45])
    head := 100
    data := 100 + n
    len := 15 }

theorem pushes_fit_ample : Fit (atbmSubifStartXmit openVif ⟨false, true, none, fun _ => 0, true⟩
    (ipSkb 64)).skb.pushes := by
  refine (pushes_fit_iff _ _ _ rfl).mpr fun hdr h hcramped => ?_
  obtain ⟨-, -, -, hless⟩ := hcramped
  obtain rfl : _ = hdr := Option.some.inj h.header
  exact absurd hless (by decide +kernel)

/-- **The descriptor is pushed beyond the buffer**: 12 bytes are left for it. -/
theorem descriptor_underrun :
    (atbmSubifStartXmit openVif ⟨false, true, none, fun _ => 0, true⟩ (ipSkb 32)).skb.pushes =
        [(6, 44), (2, 38), (24, 36), (28, 12)] ∧
      ¬ Fit (atbmSubifStartXmit openVif ⟨false, true, none, fun _ => 0, true⟩
        (ipSkb 32)).skb.pushes := by
  have hpushes : (atbmSubifStartXmit openVif ⟨false, true, none, fun _ => 0, true⟩
      (ipSkb 32)).skb.pushes = [(6, 44), (2, 38), (24, 36), (28, 12)] := by decide +kernel
  refine ⟨hpushes, fun h => ?_⟩
  rw [hpushes] at h
  exact absurd (h (28, 12) (by decide)) (by decide)

end Atbm6441.Tx.Xmit
