import Atbm6441.Rx.Handlers.Access

/-!
# Rejected frames and the packet number counters

`ieee80211_rx_h_decrypt` lets `ccmp_tkip_replaycnt` read and store the packet number of a frame
before the handler of the cipher looks at its length. `harmless_iff` : a frame that is rejected
leaves the counters alone, and no packet number is read outside the frame, exactly if a frame under
a TKIP or CCMP key has room for the 8 bytes behind its header and either passes the length check of
its cipher or does not move its counter.
-/

namespace Atbm6441.Rx.Handlers

open Atbm6441.Ieee80211 Atbm6441.Ether Atbm6441.Rx.Replay Atbm6441.Lib

variable {env : RxEnv} {vif : Vif} {sta : Option StaInfo} {skb : RxSkb}

/-! ### The key of a frame -/

/-- The key that `ieee80211_rx_h_decrypt` selects. -/
def keyOf (env : RxEnv) (vif : Vif) (sta : Option StaInfo) (skb : RxSkb) : Option EncType :=
  if skb.raMatch ∧ env.linearize ∧ skb.decrypted ∧ ¬ skb.ivStripped then
    match sta with
    | none => none
    | some sta => if sta.enc then some (selectedKey vif sta skb.data) else none
  else none

/-- **The handler of the decryption** rejects a frame that cannot be linearized, hands a frame with
a key to the handler of the cipher, and lets any other frame pass. -/
theorem rxHDecrypt_eq (env : RxEnv) (vif : Vif) (sta : Option StaInfo) (skb : RxSkb) :
    rxHDecrypt env ⟨skb, vif, sta, none, []⟩ =
      match keyOf env vif sta skb with
      | some key => some (cryptoDecrypt key ⟨skb, vif, sta, some key, []⟩)
      | none =>
        some (if skb.raMatch ∧ ¬ env.linearize then .dropUnusable else .cont,
          ⟨skb, vif, sta, none, []⟩) := by
  unfold keyOf
  by_cases hra : skb.raMatch = true
  swap
  · simp [rxHDecrypt, hra]
  by_cases hlin : env.linearize = true
  swap
  · simp [rxHDecrypt, hra, hlin]
  rcases sta with _ | sta
  · simp [rxHDecrypt, hra, hlin]
  by_cases hdec : skb.decrypted = true
  · by_cases henc : sta.enc = true
    · rw [rxHDecrypt_protected henc hdec]
      by_cases hiv : skb.ivStripped = true <;> simp [hra, hlin, hdec, henc, hiv]
    · simp [rxHDecrypt, hra, hlin, hdec, henc]
  · rw [rxHDecrypt_clear (by simpa using hdec)]
    simp [hra, hlin, hdec]

/-! ### Reading the packet number -/

/-- The offsets behind the 802.11 header that `ccmp_tkip_hdr2pn` reads. -/
def hdr2pnReads (isCcmp : Bool) : List ℕ :=
  [7, 6, 5, 4, if isCcmp then 1 else 0, if isCcmp then 0 else 2]

/-- The offsets in the frame that `ccmp_tkip_replaycnt` reads for the packet number. -/
def replaycntReads (vif : AtbmVif) (d : List UInt8) (isCcmp : Bool) : List ℕ :=
  if vif.type ≠ .station then []
  else (hdr2pnReads isCcmp).map (ieee80211Hdrlen (frameControl d) + ·)

/-- Those that `ieee80211_rx_h_decrypt` lets it read. -/
def pnReads (env : RxEnv) (vif : Vif) (sta : Option StaInfo) (skb : RxSkb) : List ℕ :=
  match keyOf env vif sta skb with
  | some .tkip => replaycntReads vif.replay skb.data false
  | some .aes => replaycntReads vif.replay skb.data true
  | _ => []

theorem framePn_eq_reads {v : AtbmVif} (hv : v.type = .station) (d : List UInt8) (isCcmp : Bool) :
    framePn d isCcmp = (replaycntReads v d isCcmp).map fun i => d.getD i 0 := by
  have hget : ∀ i, (d.drop (ieee80211Hdrlen (frameControl d))).getD i 0 =
      d.getD (ieee80211Hdrlen (frameControl d) + i) 0 := by
    intro i
    rw [List.getD_eq_getElem?_getD, List.getElem?_drop, ← List.getD_eq_getElem?_getD]
  unfold replaycntReads
  rw [if_neg (not_not.mpr hv)]
  cases isCcmp <;> simp only [framePn, ccmpTkipHdr2pn, hget, hdr2pnReads] <;> rfl

/-! ### Storing it -/

/-- The packet number of the frame moves its counter. -/
def Stores (vif : AtbmVif) (d : List UInt8) (isCcmp : Bool) : Prop :=
  (vif.counter (streamOf d)).pnInit ≠ 0 ∨
    be (vif.counter (streamOf d)).pn < be (framePn d isCcmp) ∧
      ¬ Jump (framePn d isCcmp) (vif.counter (streamOf d)).pn

theorem replaycnt_counter {v : AtbmVif} (hv : v.type = .station) {d : List UInt8}
    (hlen : (v.counter (streamOf d)).pn.length = 6) (isCcmp : Bool) :
    (Stores v d isCcmp → (ccmpTkipReplaycnt v d isCcmp).1 = 0 ∧
      (ccmpTkipReplaycnt v d isCcmp).2.counter (streamOf d) ≠ v.counter (streamOf d)) ∧
    (¬ Stores v d isCcmp → (ccmpTkipReplaycnt v d isCcmp).2 = v) := by
  rw [replaycnt_station hv hlen]
  have hstore : (v.store (streamOf d) (framePn d isCcmp)).counter (streamOf d) =
      ⟨framePn d isCcmp, 0⟩ := Function.update_self _ _ _
  by_cases hinit : (v.counter (streamOf d)).pnInit = 0
  swap
  · refine ⟨fun _ => ?_, fun hno => absurd (Or.inl hinit) hno⟩
    rw [if_neg hinit]
    refine ⟨rfl, fun heq => hinit ?_⟩
    rw [← heq, hstore]
  rw [if_pos hinit]
  by_cases hle : be (framePn d isCcmp) ≤ be (v.counter (streamOf d)).pn
  · rw [if_pos hle]
    refine ⟨?_, fun _ => rfl⟩
    rintro (hne | ⟨hlt, -⟩)
    · exact absurd hinit hne
    · omega
  rw [if_neg hle]
  by_cases hjump : Jump (framePn d isCcmp) (v.counter (streamOf d)).pn
  · rw [if_pos hjump]
    refine ⟨?_, fun _ => rfl⟩
    rintro (hne | ⟨-, hno⟩)
    · exact absurd hinit hne
    · exact absurd hjump hno
  · rw [if_neg hjump]
    refine ⟨fun _ => ⟨rfl, fun heq => hle ?_⟩, fun hno => absurd (Or.inr ⟨by omega, hjump⟩) hno⟩
    have hsame : (⟨framePn d isCcmp, 0⟩ : PnCounter) = v.counter (streamOf d) :=
      hstore.symm.trans heq
    exact Nat.le_of_eq (congrArg (fun c => be c.pn) hsame)

/-! ### The length checks -/

/-- The frame passes the length check of its cipher. -/
def LongEnough (key : EncType) (d : List UInt8) : Prop :=
  match key with
  | .tkip => ieee80211IsData (frameControl d) = true →
    ieee80211Hdrlen (frameControl d) + 12 ≤ d.length
  | .aes => (ieee80211IsData (frameControl d) = true ∨ ieee80211IsRobustMgmtFrame d = true) →
    ieee80211Hdrlen (frameControl d) + 16 ≤ d.length
  | _ => True

theorem hdrlen_le (fc : ℕ) : ieee80211Hdrlen fc ≤ 36 := by
  unfold ieee80211Hdrlen
  split_ifs <;> omega

theorem cryptoTkip_fst (rx : RxData) (hlen : rx.skb.data.length < 0x100000000)
    (h8 : ieee80211Hdrlen (frameControl rx.skb.data) ≤ rx.skb.data.length) :
    (cryptoTkipDecrypt rx).1 = .dropUnusable ↔ ¬ LongEnough .tkip rx.skb.data := by
  have hhdr := hdrlen_le (frameControl rx.skb.data)
  unfold cryptoTkipDecrypt LongEnough
  dsimp only
  by_cases hdata : ieee80211IsData (frameControl rx.skb.data) = true
  · rw [if_neg (not_not.mpr hdata)]
    split_ifs with hshort
    · refine iff_of_true rfl fun h => ?_
      have := h hdata
      omega
    · refine iff_of_false nofun (not_not.mpr fun _ => ?_)
      omega
  · rw [if_pos hdata]
    exact iff_of_false nofun (not_not.mpr fun h => absurd h hdata)

theorem cryptoCcmp_fst (rx : RxData) :
    (cryptoCcmpDecrypt rx).1 = .dropUnusable ↔ ¬ LongEnough .aes rx.skb.data := by
  unfold cryptoCcmpDecrypt LongEnough
  dsimp only
  by_cases hneither : ¬ ieee80211IsData (frameControl rx.skb.data) = true ∧
      ¬ ieee80211IsRobustMgmtFrame rx.skb.data = true
  · rw [if_pos hneither]
    refine iff_of_false nofun (not_not.mpr ?_)
    rintro (h | h)
    · exact absurd h hneither.1
    · exact absurd h hneither.2
  · rw [if_neg hneither]
    have hcase : ieee80211IsData (frameControl rx.skb.data) = true ∨
        ieee80211IsRobustMgmtFrame rx.skb.data = true := by
      by_contra hno
      exact hneither (not_or.mp hno)
    split_ifs with hshort
    · refine iff_of_true rfl fun h => ?_
      have := h hcase
      omega
    · refine iff_of_false nofun (not_not.mpr fun _ => ?_)
      omega

theorem withReplaycnt_counter (rx : RxData) (hv : rx.vif.type = .station)
    (hpn : (rx.vif.replay.counter (streamOf rx.skb.data)).pn.length = 6) {isCcmp : Bool}
    {decrypt : RxData → RxResult × RxData} (hkeep : ∀ rx, (decrypt rx).2.vif = rx.vif)
    {long : Prop} (hfst : ∀ vif, (decrypt { rx with vif := vif }).1 = .dropUnusable ↔ ¬ long) :
    ((withReplaycnt rx isCcmp decrypt).1 = .dropUnusable →
      (withReplaycnt rx isCcmp decrypt).2.vif.replay.counter = rx.vif.replay.counter) ↔
    long ∨ ¬ Stores rx.vif.replay rx.skb.data isCcmp := by
  obtain ⟨hstores, hnot⟩ := replaycnt_counter hv hpn isCcmp
  unfold withReplaycnt
  dsimp only
  by_cases hst : Stores rx.vif.replay rx.skb.data isCcmp
  · obtain ⟨hzero, hmoved⟩ := hstores hst
    rw [if_neg (not_not.mpr hzero), hkeep]
    constructor
    · intro h
      left
      by_contra hshort
      exact hmoved (congrFun (h ((hfst _).mpr hshort)) _)
    · rintro (hlong | hno) hshort
      · exact absurd hlong ((hfst _).mp hshort)
      · exact absurd hst hno
  · refine iff_of_true (fun _ => ?_) (Or.inr hst)
    rw [hnot hst]
    split_ifs
    · rfl
    · rw [hkeep]

theorem cryptoTkip_vif (rx : RxData) : (cryptoTkipDecrypt rx).2.vif = rx.vif := by
  unfold cryptoTkipDecrypt
  dsimp only
  split_ifs <;> rfl

theorem cryptoCcmp_vif (rx : RxData) : (cryptoCcmpDecrypt rx).2.vif = rx.vif := by
  unfold cryptoCcmpDecrypt
  dsimp only
  split_ifs <;> rfl

theorem cryptoDecrypt_vif {key : EncType} (htkip : key ≠ .tkip) (haes : key ≠ .aes) (rx : RxData) :
    (cryptoDecrypt key rx).2.vif = rx.vif := by
  cases key with
  | tkip => exact absurd rfl htkip
  | aes => exact absurd rfl haes
  | wep =>
    unfold cryptoDecrypt cryptoWepDecrypt
    dsimp only
    split_ifs <;> rfl
  | aesCmac =>
    unfold cryptoDecrypt cryptoAesCmacDecrypt
    dsimp only
    split_ifs <;> rfl
  | unset | type | wapi => rfl

/-! ### Frames that do no harm -/

/-- **A frame does no harm**: if it is rejected the counters and their flags stay as they are, and
its packet number is read only if there is room for the 8 bytes behind its header. -/
structure Harmless (env : RxEnv) (vif : Vif) (sta : Option StaInfo) (skb : RxSkb) : Prop where
  counters : ∀ rx, rxHDecrypt env ⟨skb, vif, sta, none, []⟩ = some (.dropUnusable, rx) →
    rx.vif.replay.counter = vif.replay.counter
  reads : pnReads env vif sta skb ≠ [] →
    ieee80211Hdrlen (frameControl skb.data) + 8 ≤ skb.data.length

theorem harmless_of_key {key : EncType} (hkey : keyOf env vif sta skb = some key) :
    Harmless env vif sta skb ↔
      ((cryptoDecrypt key ⟨skb, vif, sta, some key, []⟩).1 = .dropUnusable →
        (cryptoDecrypt key ⟨skb, vif, sta, some key, []⟩).2.vif.replay.counter =
          vif.replay.counter) ∧
      (pnReads env vif sta skb ≠ [] →
        ieee80211Hdrlen (frameControl skb.data) + 8 ≤ skb.data.length) := by
  have heq := rxHDecrypt_eq env vif sta skb
  rw [hkey] at heq
  constructor
  · rintro ⟨hc, hr⟩
    refine ⟨fun h1 => hc _ ?_, hr⟩
    rw [heq]
    exact congrArg some (Prod.ext h1 rfl)
  · rintro ⟨hc, hr⟩
    refine ⟨fun rx hrx => ?_, hr⟩
    have hp := Option.some.inj (heq.symm.trans hrx)
    have hc := hc (congrArg Prod.fst hp)
    rwa [hp] at hc

/-- **A protected frame that comes to a station does no harm** exactly if, under a TKIP or CCMP key,
it has room for the packet number, and is long enough for its cipher or does not move its
counter. -/
theorem harmless_iff (env : RxEnv) (vif : Vif) (sta : Option StaInfo) (skb : RxSkb)
    (hv : vif.type = .station) (hpn : ∀ s, (vif.replay.counter s).pn.length = 6)
    (hlen : skb.data.length < 0x100000000) :
    Harmless env vif sta skb ↔
      ∀ key, keyOf env vif sta skb = some key → key = .tkip ∨ key = .aes →
        ieee80211Hdrlen (frameControl skb.data) + 8 ≤ skb.data.length ∧
          (LongEnough key skb.data ∨ ¬ Stores vif.replay skb.data (key = .aes)) := by
  have hreads : ∀ isCcmp, replaycntReads vif.replay skb.data isCcmp ≠ [] := by
    intro isCcmp
    have hv' : vif.replay.type = .station := hv
    unfold replaycntReads
    rw [if_neg (not_not.mpr hv')]
    exact nofun
  rcases hkey : keyOf env vif sta skb with _ | key
  · refine iff_of_true ⟨fun rx hrx => ?_, fun hr => ?_⟩ nofun
    · rw [rxHDecrypt_eq, hkey] at hrx
      exact congrArg (fun p => p.2.vif.replay.counter) (Option.some.inj hrx).symm
    · rw [pnReads, hkey] at hr
      exact absurd rfl hr
  rw [harmless_of_key hkey]
  by_cases hcipher : key = .tkip ∨ key = .aes
  swap
  · obtain ⟨htkip, haes⟩ := not_or.mp hcipher
    refine iff_of_true ⟨fun _ => by rw [cryptoDecrypt_vif htkip haes], fun hr => ?_⟩ ?_
    · unfold pnReads at hr
      rw [hkey] at hr
      cases key <;> first | exact absurd rfl hr | exact absurd rfl htkip | exact absurd rfl haes
    · rintro k hk hk'
      exact absurd (Option.some.inj hk ▸ hk') hcipher
  by_cases h8 : ieee80211Hdrlen (frameControl skb.data) + 8 ≤ skb.data.length
  swap
  · refine iff_of_false (fun h => h8 (h.2 ?_)) fun h => h8 (h key rfl hcipher).1
    unfold pnReads
    rw [hkey]
    rcases hcipher with rfl | rfl
    · exact hreads false
    · exact hreads true
  have hcounter : ((cryptoDecrypt key ⟨skb, vif, sta, some key, []⟩).1 = .dropUnusable →
      (cryptoDecrypt key ⟨skb, vif, sta, some key, []⟩).2.vif.replay.counter =
        vif.replay.counter) ↔
      LongEnough key skb.data ∨ ¬ Stores vif.replay skb.data (key = .aes) := by
    rcases hcipher with rfl | rfl
    · exact withReplaycnt_counter ⟨skb, vif, sta, some .tkip, []⟩ hv (hpn _) cryptoTkip_vif
        fun v => cryptoTkip_fst ⟨skb, v, sta, some .tkip, []⟩ hlen
          (Nat.le_of_add_right_le h8)
    · exact withReplaycnt_counter ⟨skb, vif, sta, some .aes, []⟩ hv (hpn _) cryptoCcmp_vif
        fun v => cryptoCcmp_fst ⟨skb, v, sta, some .aes, []⟩
  rw [hcounter, and_iff_left fun _ => h8]
  constructor
  · rintro h k hk -
    exact ⟨h8, Option.some.inj hk ▸ h⟩
  · intro h
    exact (h key rfl hcipher).2

/-! ### A frame that is too short for CCMP -/

/-- The address of the interface. -/
def stationAddr : List UInt8 := [2, 0, 0, 0, 0, 1]

theorem length_stationAddr : stationAddr.length = 6 := rfl

/-- An interface in station mode, none of whose counters has been set. -/
def freshStation : Vif where
  replay := ⟨.station, fun _ => ⟨List.replicate 6 0, 1⟩⟩
  addr := ⟨stationAddr, length_stationAddr⟩
  groupKeyType := .aes
  apEnc := true

/-- A protected data frame to it with the packet number 5 and `n` bytes behind the CCMP header. -/
def ccmpFrame (n : ℕ) : List UInt8 :=
  [0x08, 0x42, 0, 0, 2, 0, 0, 0, 0, 1, 2, 0, 0, 0, 0, 2, 2, 0, 0, 0, 0, 3, 0x10, 0] ++
    [5, 0, 0, 0x20, 0, 0, 0, 0] ++ List.replicate n 0

/-- Its buffer when the handlers get it. -/
def ccmpSkb (n : ℕ) : RxSkb := ⟨ccmpFrame n, true, false, false, true, false⟩

theorem harmless_iff_sixteen :
    Harmless ⟨true, fun _ => true⟩ freshStation (some newSta) (ccmpSkb 16) := by
  refine (harmless_iff _ freshStation _ (ccmpSkb 16) rfl (fun _ => rfl) (by decide)).mpr ?_
  rintro key hkey -
  obtain rfl : EncType.aes = key := Option.some.inj hkey
  exact ⟨by decide, Or.inl fun _ => by decide⟩

/-- **A frame without a MIC is rejected, and its packet number is stored.** -/
theorem rejected_stores :
    ¬ Harmless ⟨true, fun _ => true⟩ freshStation (some newSta) (ccmpSkb 0) := by
  intro h
  have hcounter := congrFun (h.counters _ rfl) .ptkNoqos
  have hinit : (0 : UInt8) = 1 := congrArg PnCounter.pnInit hcounter
  cases hinit

end Atbm6441.Rx.Handlers
