import Atbm6441.Rx.Handlers.Model

/-!
# Who gets a payload delivered

From a station that encrypts, the stack should see only payloads of frames that had their Protected
bit set, and only once the station is authorised. The plain path of `ieee80211_rx_h_data` asks
`ieee80211_frame_allowed`; the A-MSDU path does not, so that an A-MSDU which the splitter accepts is
delivered without an authorisation, and in AP mode in clear text (`secured_iff`).
-/

namespace Atbm6441.Rx.Handlers

open Atbm6441.Ieee80211 Atbm6441.Ether Atbm6441.Rx.Replay

/-! ### What is left of the header -/

theorem getD_cut {d : List UInt8} {i k n : ℕ} (hi : i < k) (hk : k ≤ n) :
    (d.take k ++ d.drop n).getD i 0 = d.getD i 0 := by
  simp only [List.getD_eq_getElem?_getD]
  by_cases hd : i < d.length
  · rw [List.getElem?_append_left (by rw [List.length_take]; omega), List.getElem?_take_of_lt hi]
  · have hlen : (d.take k ++ d.drop n).length ≤ i := by
      rw [List.length_append, List.length_take, List.length_drop]
      omega
    rw [List.getElem?_eq_none hlen, List.getElem?_eq_none (by omega)]

theorem byteAt_moveHeader {d : List UInt8} {hdrlen n m i : ℕ} (hi : i < hdrlen)
    (hlen : hdrlen + n + m ≤ d.length) :
    byteAt (moveHeader (d.take (d.length - m)) hdrlen n) i = byteAt d i := by
  unfold byteAt moveHeader
  congr 1
  rw [List.getD_eq_getElem?_getD, List.getElem?_take_of_lt (by rw [List.length_take]; omega),
    ← List.getD_eq_getElem?_getD, getD_cut hi (by omega), List.getD_eq_getElem?_getD,
    List.getElem?_take_of_lt (by omega), ← List.getD_eq_getElem?_getD]

theorem length_moveHeader (d : List UInt8) (hdrlen n : ℕ) :
    (moveHeader d hdrlen n).length = d.length - n := by
  unfold moveHeader
  rw [List.length_take, List.length_append, List.length_take, List.length_drop]
  omega

theorem frameControl_moveHeader {d : List UInt8} {hdrlen n : ℕ} (hhdr : 2 ≤ hdrlen)
    (hn : n + 2 ≤ d.length) : frameControl (moveHeader d hdrlen n) = frameControl d := by
  have hfront : 2 ≤ (d.take hdrlen).length := by
    rw [List.length_take]
    omega
  unfold moveHeader
  rw [frameControl_take (by omega), ← frameControl_take hfront, List.take_left,
    frameControl_take hhdr]

theorem hdrlen_data {fc : ℕ} (h : ieee80211IsData fc = true) : 24 ≤ ieee80211Hdrlen fc := by
  unfold ieee80211Hdrlen
  rw [if_pos h]
  split_ifs <;> omega

theorem and_ff7f {a b : ℕ} (ha : a < 256) (hb : b < 256) :
    (a &&& 0x7f) + 256 * b = (a + 256 * b) &&& 0xff7f := by
  refine Nat.eq_of_testBit_eq fun i => ?_
  have hand : a &&& 0x7f < 2 ^ 8 := Nat.lt_of_le_of_lt Nat.and_le_left ha
  rw [Nat.testBit_and, Nat.add_comm, show 256 = 2 ^ 8 from rfl,
    Nat.testBit_two_pow_mul_add _ hand, Nat.add_comm a, Nat.testBit_two_pow_mul_add _ ha,
    show 0xff7f = 2 ^ 8 * 0xff + 0x7f from rfl, Nat.testBit_two_pow_mul_add _ (by decide)]
  by_cases hi : i < 8
  · rw [if_pos hi, if_pos hi, if_pos hi, Nat.testBit_and]
  · rw [if_neg hi, if_neg hi, if_neg hi, ← Nat.testBit_and]
    congr 1
    exact (Nat.and_two_pow_sub_one_of_lt_two_pow (n := 8) hb).symm

theorem frameControl_removeQosControl (d : List UInt8) :
    frameControl (removeQosControl d) =
      if ieee80211IsDataQos (frameControl d) then frameControl d &&& 0xff7f
      else frameControl d := by
  unfold removeQosControl
  dsimp only
  split_ifs with hqos
  · have hlen := hdrlen_data (isData_of_qos hqos)
    have hbyte : ∀ i < 22, byteAt (d.take (ieee80211Hdrlen (frameControl d) - 2) ++
        d.drop (ieee80211Hdrlen (frameControl d))) i = byteAt d i := by
      intro i hi
      unfold byteAt
      rw [getD_cut (by omega) (by omega)]
    have hd : d ≠ [] := by
      rintro rfl
      cases hqos
    generalize hc : d.take (ieee80211Hdrlen (frameControl d) - 2) ++
      d.drop (ieee80211Hdrlen (frameControl d)) = c at hbyte
    have hpos : 0 < c.length := by
      have := List.length_pos_iff.mpr hd
      rw [← hc, List.length_append, List.length_take]
      omega
    have ha : byteAt d 0 < 256 := UInt8.toNat_lt _
    have hb : byteAt d 1 < 256 := UInt8.toNat_lt _
    have h0 : byteAt (c.set 0 (UInt8.ofNat (byteAt c 0 &&& 0x7f))) 0 = byteAt d 0 &&& 0x7f := by
      rw [byteAt, List.getD_eq_getElem?_getD, List.getElem?_set_self hpos, hbyte 0 (by omega)]
      exact Nat.mod_eq_of_lt (Nat.lt_of_le_of_lt Nat.and_le_left ha)
    have h1 : byteAt (c.set 0 (UInt8.ofNat (byteAt c 0 &&& 0x7f))) 1 = byteAt d 1 := by
      rw [byteAt, List.getD_eq_getElem?_getD, List.getElem?_set_ne (by omega),
        ← List.getD_eq_getElem?_getD]
      exact hbyte 1 (by omega)
    rw [frameControl, le16At, h0, h1]
    exact and_ff7f ha hb
  · rfl

/-- The bits of a mask without the QoS bit. -/
theorem and_removeQosControl (d : List UInt8) {m : ℕ} (hm : 0xff7f &&& m = m) :
    frameControl (removeQosControl d) &&& m = frameControl d &&& m := by
  rw [frameControl_removeQosControl]
  split_ifs
  · rw [Nat.and_assoc, hm]
  · rfl

theorem isMulticast_removeQosControl {d : List UInt8} (h : ieee80211IsData (frameControl d)) :
    isMulticastEtherAddr (removeQosControl d) = isMulticastEtherAddr d := by
  have hlen := hdrlen_data h
  unfold removeQosControl
  dsimp only
  split_ifs
  · unfold isMulticastEtherAddr byteAt
    rw [List.getD_eq_getElem?_getD, List.getElem?_set_ne (by omega), ← List.getD_eq_getElem?_getD,
      getD_cut (by omega) (by omega)]
  · rfl

/-! ### The splitter -/

/-- The subframes that the splitter accepts, with `n` of them behind it. -/
inductive Splits (alloc : ℕ → Bool) : ℕ → List UInt8 → Prop
  | last {n : ℕ} {d : List UInt8} (dest : etherAddrAt d 0 = rfc1042Header)
      (fits : subframeLen d ≤ d.length) (rest : d.length ≤ subframeLen d + padding d) :
      Splits alloc n d
  | more {n : ℕ} {d : List UInt8} (dest : etherAddrAt d 0 = rfc1042Header)
      (rest : subframeLen d + padding d < d.length) (copied : alloc n = true)
      (next : Splits alloc (n + 1) (d.drop (subframeLen d + padding d))) : Splits alloc n d

theorem amsduTo8023sLoop_ne_nil (alloc : ℕ → Bool) (n : ℕ) (d : List UInt8) :
    amsduTo8023sLoop alloc n d ≠ some [] := by
  rw [amsduTo8023sLoop]
  split_ifs <;> simp

/-- **The splitter does not purge its list** exactly when it accepts every subframe. -/
theorem amsduTo8023sLoop_iff (alloc : ℕ → Bool) (n : ℕ) (d : List UInt8) :
    (∃ l, amsduTo8023sLoop alloc n d = some l) ↔ Splits alloc n d := by
  rw [amsduTo8023sLoop]
  by_cases hfits : d.length < subframeLen d
  · rw [if_pos hfits]
    constructor
    · rintro ⟨l, hl⟩
      cases hl
    · rintro (⟨_, h, _⟩ | ⟨_, h, _, _⟩) <;> omega
  rw [if_neg hfits]
  by_cases hdest : etherAddrAt d 0 = rfc1042Header
  swap
  · rw [if_pos hdest]
    constructor
    · rintro ⟨l, hl⟩
      cases hl
    · rintro (⟨h, _, _⟩ | ⟨h, _, _, _⟩) <;> exact absurd h hdest
  rw [if_neg (not_not.mpr hdest)]
  by_cases hrest : d.length ≤ subframeLen d + padding d
  · rw [if_pos hrest]
    exact ⟨fun _ => .last hdest (by omega) hrest, fun _ => ⟨_, rfl⟩⟩
  rw [if_neg hrest]
  by_cases hcopy : alloc n = true
  · have ih := amsduTo8023sLoop_iff alloc (n + 1) (d.drop (subframeLen d + padding d))
    rw [if_neg (not_not.mpr hcopy)]
    constructor
    · rintro ⟨l, hl⟩
      obtain ⟨l', hl', -⟩ := Option.map_eq_some_iff.mp hl
      exact .more hdest (by omega) hcopy (ih.mp ⟨l', hl'⟩)
    · rintro (⟨_, _, h⟩ | ⟨_, _, _, h⟩)
      · omega
      · obtain ⟨l', hl'⟩ := ih.mpr h
        exact ⟨_, by rw [hl', Option.map_some]⟩
  · rw [if_pos hcopy]
    constructor
    · rintro ⟨l, hl⟩
      cases hl
    · rintro (⟨_, _, h⟩ | ⟨_, _, h, _⟩)
      · omega
      · exact absurd h hcopy
termination_by d.length
decreasing_by
  simp only [List.length_drop]
  unfold subframeLen at *
  omega

/-! ### What goes to the stack -/

/-- The Ethernet frames that are given to the stack. -/
def stackFrames (log : List Disposal) : List (List UInt8) :=
  log.filterMap fun
    | .netifRx _ frame => some frame
    | .kfree _ => none

/-- What the stack gets of a frame that is handled. -/
def delivered (env : RxEnv) (vif : Vif) (sta : Option StaInfo) (skb : RxSkb) :
    List (List UInt8) :=
  match handlersResult (ieee80211RxHandlers env vif sta skb) with
  | none => []
  | some rx => stackFrames rx.log

/-- Something has gone to the stack when the handlers end. -/
def Delivers (h : Handled) : Prop := ∃ res rx, h = some (res, rx) ∧ stackFrames rx.log ≠ []

theorem not_delivers {rx : RxData} {res : RxResult} (hlog : rx.log = []) :
    ¬ Delivers (some (res, rx)) := by
  rintro ⟨res', rx', h, hne⟩
  cases h
  rw [hlog] at hne
  exact hne rfl

theorem not_delivers_none : ¬ Delivers none := by
  rintro ⟨res, rx, h, -⟩
  cases h

theorem delivered_ne_nil {env : RxEnv} {vif : Vif} {sta : Option StaInfo} {skb : RxSkb} :
    delivered env vif sta skb ≠ [] ↔ Delivers (ieee80211RxHandlers env vif sta skb) := by
  unfold delivered
  rcases h : ieee80211RxHandlers env vif sta skb with _ | ⟨res, rx⟩
  · simp [handlersResult, not_delivers_none]
  · have hfrees : stackFrames (rx.log ++ [.kfree .skb]) = stackFrames rx.log := by
      simp [stackFrames]
    cases res <;> simp [handlersResult, Delivers, hfrees]

theorem delivers_callRxh {h : Handled} {next : RxData → Handled}
    (hnone : ∀ res rx, h = some (res, rx) → res ≠ .cont → stackFrames rx.log = []) :
    Delivers (callRxh h next) ↔ ∃ rx, h = some (.cont, rx) ∧ Delivers (next rx) := by
  rcases h with _ | ⟨res, rx⟩
  · simp [callRxh, not_delivers_none]
  · by_cases hres : res = .cont
    · subst hres
      simp [callRxh]
    · have hlog := hnone res rx rfl hres
      have hcall : callRxh (some (res, rx)) next = some (res, rx) := by
        cases res
        · exact absurd rfl hres
        all_goals rfl
      rw [hcall]
      constructor
      · rintro ⟨res', rx', h, hne⟩
        cases h
        exact absurd hlog hne
      · rintro ⟨rx', h, -⟩
        cases h
        exact absurd rfl hres

/-- What no handler before `ieee80211_rx_h_data` changes. -/
structure Kept (rx rx' : RxData) : Prop where
  log : rx'.log = rx.log
  sta : rx'.sta = rx.sta
  key : rx'.key = rx.key
  amsdu : rx'.skb.amsdu = rx.skb.amsdu
  decrypted : rx'.skb.decrypted = rx.skb.decrypted

theorem Kept.refl (rx : RxData) : Kept rx rx := ⟨rfl, rfl, rfl, rfl, rfl⟩

theorem Kept.setData (rx : RxData) (d : List UInt8) : Kept rx (rx.setData d) :=
  ⟨rfl, rfl, rfl, rfl, rfl⟩

theorem kept_cryptoWepDecrypt (rx : RxData) : Kept rx (cryptoWepDecrypt rx).2 := by
  unfold cryptoWepDecrypt
  dsimp only
  split_ifs <;> first | exact .refl rx | exact .setData rx _

theorem kept_cryptoTkipDecrypt (rx : RxData) : Kept rx (cryptoTkipDecrypt rx).2 := by
  unfold cryptoTkipDecrypt
  dsimp only
  split_ifs <;> first | exact .refl rx | exact .setData rx _

theorem kept_cryptoCcmpDecrypt (rx : RxData) : Kept rx (cryptoCcmpDecrypt rx).2 := by
  unfold cryptoCcmpDecrypt
  dsimp only
  split_ifs <;> first | exact .refl rx | exact .setData rx _

theorem kept_cryptoAesCmacDecrypt (rx : RxData) : Kept rx (cryptoAesCmacDecrypt rx).2 := by
  unfold cryptoAesCmacDecrypt
  dsimp only
  split_ifs <;> first | exact .refl rx | exact .setData rx _

theorem kept_withReplaycnt {decrypt : RxData → RxResult × RxData}
    (hdecrypt : ∀ rx, Kept rx (decrypt rx).2) (rx : RxData) (isCcmp : Bool) :
    Kept rx (withReplaycnt rx isCcmp decrypt).2 := by
  unfold withReplaycnt
  dsimp only
  split_ifs
  · exact ⟨rfl, rfl, rfl, rfl, rfl⟩
  · have h := hdecrypt { rx with
      vif := { rx.vif with replay := (ccmpTkipReplaycnt rx.vif.replay rx.skb.data isCcmp).2 } }
    exact ⟨h.log, h.sta, h.key, h.amsdu, h.decrypted⟩

/-! ### The handlers behind the decryption -/

/-- The chain from `ieee80211_rx_h_sta_process` on. -/
def afterDecrypt (env : RxEnv) (rx : RxData) : Handled :=
  callRxh (rxHStaProcess rx) fun rx =>
  callRxh (rxHMichaelMicVerify rx) fun rx =>
  callRxh (rxHRemoveQosControl rx) (rxHData env)

theorem rxHandlers_eq (env : RxEnv) (vif : Vif) (sta : Option StaInfo) (skb : RxSkb) :
    ieee80211RxHandlers env vif sta skb =
      callRxh (rxHDecrypt env ⟨skb, vif, sta, none, []⟩) (afterDecrypt env) := rfl

section

variable {env : RxEnv} {vif : Vif} {sta : StaInfo} {skb : RxSkb} {rx : RxData}

theorem rxHStaProcess_eq (hsta : rx.sta = some sta) :
    rxHStaProcess rx =
      if rx.skb.raMatch ∧ (ieee80211IsNullfunc (frameControl rx.skb.data) ∨
          ieee80211IsQosNullfunc (frameControl rx.skb.data)) then
        some (.queued, { rx with log := rx.log ++ [.kfree .skb] })
      else some (.cont, rx) := by
  unfold rxHStaProcess
  rw [hsta]
  by_cases hra : rx.skb.raMatch = true <;> simp [hra]

/-- Frames without data end at `ieee80211_rx_h_sta_process` or at `ieee80211_rx_h_data`. -/
theorem delivers_afterDecrypt (hlog : rx.log = []) (hsta : rx.sta = some sta)
    (hnull : ¬ (rx.skb.raMatch ∧ (ieee80211IsNullfunc (frameControl rx.skb.data) ∨
      ieee80211IsQosNullfunc (frameControl rx.skb.data)))) :
    Delivers (afterDecrypt env rx) ↔
      ∃ rx', rxHMichaelMicVerify rx = some (.cont, rx') ∧
        Delivers (rxHData env (rx'.setData (removeQosControl rx'.skb.data))) := by
  have hmic : ∀ res rx', rxHMichaelMicVerify rx = some (res, rx') → res ≠ .cont →
      stackFrames rx'.log = [] := by
    intro res rx' h _
    unfold rxHMichaelMicVerify at h
    dsimp only at h
    split_ifs at h <;> cases h <;> simp [hlog, stackFrames, RxData.setData]
  unfold afterDecrypt
  rw [rxHStaProcess_eq hsta, if_neg hnull]
  show Delivers (callRxh (rxHMichaelMicVerify rx) _) ↔ _
  rw [delivers_callRxh hmic]
  rfl

theorem not_delivers_nullfunc (hlog : rx.log = []) (hsta : rx.sta = some sta)
    (hnull : rx.skb.raMatch ∧ (ieee80211IsNullfunc (frameControl rx.skb.data) ∨
      ieee80211IsQosNullfunc (frameControl rx.skb.data))) :
    ¬ Delivers (afterDecrypt env rx) := by
  unfold afterDecrypt
  rw [rxHStaProcess_eq hsta, if_pos hnull]
  rintro ⟨res, rx', h, hne⟩
  cases h
  simp [hlog, stackFrames] at hne

theorem michaelMicVerify_cont (hkey : rx.key ≠ some .tkip) :
    rxHMichaelMicVerify rx = some (.cont, rx) := by
  unfold rxHMichaelMicVerify
  dsimp only
  rw [if_pos (Or.inl hkey)]

theorem kept_michaelMicVerify {rx' : RxData} (h : rxHMichaelMicVerify rx = some (.cont, rx')) :
    Kept rx rx' := by
  unfold rxHMichaelMicVerify at h
  dsimp only at h
  split_ifs at h <;> cases h <;> first | exact .refl _ | exact .setData _ _

theorem Delivers.data (hlog : rx.log = []) (hsta : rx.sta = some sta)
    (h : Delivers (afterDecrypt env rx)) :
    ∃ rx', Kept rx rx' ∧ Delivers (rxHData env rx') := by
  by_cases hnull : rx.skb.raMatch ∧ (ieee80211IsNullfunc (frameControl rx.skb.data) ∨
      ieee80211IsQosNullfunc (frameControl rx.skb.data))
  · exact absurd h (not_delivers_nullfunc hlog hsta hnull)
  · obtain ⟨rx', hmic, hdel⟩ := (delivers_afterDecrypt hlog hsta hnull).mp h
    have hk := kept_michaelMicVerify hmic
    exact ⟨rx'.setData (removeQosControl rx'.skb.data),
      ⟨hk.log, hk.sta, hk.key, hk.amsdu, hk.decrypted⟩, hdel⟩

/-! ### The two paths of `ieee80211_rx_h_data` -/

theorem isNullfunc_of_present {fc : ℕ} (h : ieee80211IsDataPresent fc = true) :
    ieee80211IsNullfunc fc = false ∧ ieee80211IsQosNullfunc fc = false := by
  unfold ieee80211IsDataPresent at h
  rw [beq_iff_eq] at h
  have hmask : ∀ m, fc &&& 0x00fc = m → m &&& 0x004c = 0x0008 := by
    rintro m rfl
    rw [Nat.and_assoc]
    exact h
  constructor
  · refine beq_eq_false_iff_ne.mpr fun hfc => ?_
    exact absurd (hmask _ hfc) (by decide)
  · refine beq_eq_false_iff_ne.mpr fun hfc => ?_
    exact absurd (hmask _ hfc) (by decide)

/-- **The plain path** delivers only what `ieee80211_frame_allowed` allows. -/
theorem frameAllowed_of_delivers (hlog : rx.log = []) (hplain : rx.skb.amsdu = false)
    (h : Delivers (rxHData env rx)) :
    ieee80211IsData (frameControl rx.skb.data) = true ∧
      ieee80211IsDataPresent (frameControl rx.skb.data) = true ∧
      frameAllowed rx (frameControl rx.skb.data) = true := by
  unfold rxHData at h
  dsimp only at h
  by_cases hdata : ieee80211IsData (frameControl rx.skb.data) = true
  swap
  · rw [if_pos hdata] at h
    exact absurd h (not_delivers hlog)
  by_cases hpresent : ieee80211IsDataPresent (frameControl rx.skb.data) = true
  swap
  · rw [if_neg (not_not.mpr hdata), if_pos hpresent] at h
    exact absurd h (not_delivers hlog)
  rw [if_neg (not_not.mpr hdata), if_neg (not_not.mpr hpresent), hplain,
    if_neg Bool.false_ne_true] at h
  refine ⟨hdata, hpresent, ?_⟩
  by_contra hno
  rcases he : ieee80211DataTo8023 rx.skb.data rx.vif.addr rx.vif.type with _ | eth
  · rw [he] at h
    exact not_delivers hlog h
  · have hno' : ¬ frameAllowed (rx.setData eth) (frameControl rx.skb.data) = true := hno
    have hlog' : (rx.setData eth).log = [] := hlog
    simp only [he, if_pos hno'] at h
    exact not_delivers hlog' h

theorem amsduTo8023s_ne_nil (d : List UInt8) (addr : EtherAddr) (iftype : Nl80211Iftype) :
    amsduTo8023s env d addr iftype ≠ some [] := by
  unfold amsduTo8023s
  rcases ieee80211DataTo8023 d addr iftype with _ | eth
  · simp
  · dsimp only
    split_ifs
    · simp
    · exact amsduTo8023sLoop_ne_nil _ _ _

theorem amsduTo8023s_iff {d : List UInt8} {addr : EtherAddr} {iftype : Nl80211Iftype} :
    (∃ l, amsduTo8023s env d addr iftype = some l) ↔
      ∃ eth, ieee80211DataTo8023 d addr iftype = some eth ∧ Splits env.alloc 0 (eth.drop 14) := by
  unfold amsduTo8023s
  rcases ieee80211DataTo8023 d addr iftype with _ | eth
  · simp
  · simp only [Option.some.injEq, exists_eq_left', ← amsduTo8023sLoop_iff]
    by_cases hlen : eth.length < 14
    · rw [if_pos hlen, amsduTo8023sLoop, if_pos]
      rw [List.length_drop]
      unfold subframeLen
      omega
    · rw [if_neg hlen]

theorem rxHAmsdu_eq_some {l : List (Buf × List UInt8)}
    (hpresent : ieee80211IsDataPresent (frameControl rx.skb.data) = true) :
    ieee80211RxHAmsdu env rx = some (some l) ↔
      ¬ isMulticastEtherAddr rx.skb.data ∧
      (rx.skb.decrypted → ∃ key, rx.key = some key ∧ key ≠ .wep ∧ key ≠ .tkip) ∧
      ¬ (rx.vif.type = .station ∧ ¬ rx.skb.decrypted ∧ rx.vif.apEnc) ∧
      amsduTo8023s env rx.skb.data rx.vif.addr rx.vif.type = some l := by
  unfold ieee80211RxHAmsdu
  dsimp only
  rw [if_neg (not_not.mpr hpresent)]
  by_cases hmulti : isMulticastEtherAddr rx.skb.data = true
  · simp [hmulti]
  rw [if_neg hmulti]
  by_cases hdec : rx.skb.decrypted = true
  · rw [if_pos hdec]
    rcases rx.key with _ | key
    · simp [hmulti, hdec]
    · cases key <;> simp [hmulti, hdec]
  · rw [if_neg hdec]
    by_cases henc : rx.vif.type = .station ∧ ¬ rx.skb.decrypted ∧ rx.vif.apEnc
    · rw [if_pos henc]
      simp [henc]
    · rw [if_neg henc, Option.some.injEq]
      exact ⟨fun h => ⟨hmulti, fun h' => absurd h' hdec, henc, h⟩, fun h => h.2.2.2⟩

/-- **The A-MSDU path** delivers what the splitter accepts, unless the frame has gone to a group
address, was decrypted with a WEP or TKIP key, or is in clear text while the AP encrypts. -/
theorem delivers_amsdu (hlog : rx.log = []) (hamsdu : rx.skb.amsdu = true) :
    Delivers (rxHData env rx) ↔
      ieee80211IsData (frameControl rx.skb.data) ∧
      ieee80211IsDataPresent (frameControl rx.skb.data) ∧
      ¬ isMulticastEtherAddr rx.skb.data ∧
      (rx.skb.decrypted → ∃ key, rx.key = some key ∧ key ≠ .wep ∧ key ≠ .tkip) ∧
      ¬ (rx.vif.type = .station ∧ ¬ rx.skb.decrypted ∧ rx.vif.apEnc) ∧
      ∃ eth, ieee80211DataTo8023 rx.skb.data rx.vif.addr rx.vif.type = some eth ∧
        Splits env.alloc 0 (eth.drop 14) := by
  rw [← amsduTo8023s_iff]
  unfold rxHData
  dsimp only
  by_cases hdata : ieee80211IsData (frameControl rx.skb.data) = true
  swap
  · rw [if_pos hdata]
    exact iff_of_false (not_delivers hlog) fun h => hdata h.1
  by_cases hpresent : ieee80211IsDataPresent (frameControl rx.skb.data) = true
  swap
  · rw [if_neg (not_not.mpr hdata), if_pos hpresent]
    exact iff_of_false (not_delivers hlog) fun h => hpresent h.2.1
  rw [if_neg (not_not.mpr hdata), if_neg (not_not.mpr hpresent), if_pos hamsdu]
  have hacc : (∃ l, ieee80211RxHAmsdu env rx = some (some l)) ↔
      ieee80211IsData (frameControl rx.skb.data) ∧
      ieee80211IsDataPresent (frameControl rx.skb.data) ∧
      ¬ isMulticastEtherAddr rx.skb.data ∧
      (rx.skb.decrypted → ∃ key, rx.key = some key ∧ key ≠ .wep ∧ key ≠ .tkip) ∧
      ¬ (rx.vif.type = .station ∧ ¬ rx.skb.decrypted ∧ rx.vif.apEnc) ∧
      ∃ l, amsduTo8023s env rx.skb.data rx.vif.addr rx.vif.type = some l := by
    simp only [rxHAmsdu_eq_some hpresent, hdata, hpresent, true_and]
    constructor
    · rintro ⟨l, h1, h2, h3, h4⟩
      exact ⟨h1, h2, h3, l, h4⟩
    · rintro ⟨h1, h2, h3, l, h4⟩
      exact ⟨l, h1, h2, h3, h4⟩
  refine Iff.trans ?_ hacc
  rcases h : ieee80211RxHAmsdu env rx with _ | _ | l
  · simp [not_delivers_none]
  · simp [not_delivers hlog]
  · have hl : l ≠ [] := by
      rintro rfl
      exact amsduTo8023s_ne_nil _ _ _ ((rxHAmsdu_eq_some hpresent).mp h).2.2.2
    obtain ⟨f, l, rfl⟩ := List.exists_cons_of_ne_nil hl
    simp [Delivers, stackFrames, hlog]

/-! ### Decryption -/

theorem rxHDecrypt_clear (hclear : skb.decrypted = false) :
    rxHDecrypt env ⟨skb, vif, some sta, none, []⟩ =
      if skb.raMatch ∧ ¬ env.linearize then some (.dropUnusable, ⟨skb, vif, some sta, none, []⟩)
      else some (.cont, ⟨skb, vif, some sta, none, []⟩) := by
  unfold rxHDecrypt
  by_cases hra : skb.raMatch = true <;> by_cases hlin : env.linearize = true <;>
    simp [hra, hlin, hclear]

/-- The handler of the cipher. -/
def cryptoDecrypt (key : EncType) (rx : RxData) : RxResult × RxData :=
  match key with
  | .wep => cryptoWepDecrypt rx
  | .tkip => withReplaycnt rx false cryptoTkipDecrypt
  | .aes => withReplaycnt rx true cryptoCcmpDecrypt
  | .aesCmac => cryptoAesCmacDecrypt rx
  | _ => (.dropUnusable, rx)

theorem kept_cryptoDecrypt (key : EncType) (rx : RxData) : Kept rx (cryptoDecrypt key rx).2 := by
  cases key
  · exact .refl rx
  · exact .refl rx
  · exact kept_cryptoWepDecrypt rx
  · exact kept_withReplaycnt kept_cryptoTkipDecrypt rx false
  · exact kept_withReplaycnt kept_cryptoCcmpDecrypt rx true
  · exact kept_cryptoAesCmacDecrypt rx
  · exact .refl rx

/-- The key that is selected for a frame. -/
def selectedKey (vif : Vif) (sta : StaInfo) (d : List UInt8) : EncType :=
  if isMulticastEtherAddr d then vif.groupKeyType else sta.keyType

/-- A protected frame goes to the handler of its cipher, or on without a key. -/
theorem rxHDecrypt_protected (henc : sta.enc = true) (hprot : skb.decrypted = true) :
    rxHDecrypt env ⟨skb, vif, some sta, none, []⟩ =
      if ¬ skb.raMatch then some (.cont, ⟨skb, vif, some sta, none, []⟩)
      else if ¬ env.linearize then some (.dropUnusable, ⟨skb, vif, some sta, none, []⟩)
      else if skb.ivStripped then some (.cont, ⟨skb, vif, some sta, none, []⟩)
      else some (cryptoDecrypt (selectedKey vif sta skb.data)
        ⟨skb, vif, some sta, some (selectedKey vif sta skb.data), []⟩) := by
  unfold rxHDecrypt
  dsimp only
  by_cases hra : skb.raMatch = true
  swap
  · rw [if_pos hra, if_pos hra]
  by_cases hlin : env.linearize = true
  swap
  · rw [if_neg (not_not.mpr hra), if_neg (not_not.mpr hra), if_pos hlin, if_pos hlin]
  rw [if_neg (not_not.mpr hra), if_neg (not_not.mpr hra), if_neg (not_not.mpr hlin),
    if_neg (not_not.mpr hlin), henc, if_neg (by decide), if_neg (not_not.mpr hprot)]
  by_cases hiv : skb.ivStripped = true
  · rw [if_pos hiv, if_pos hiv]
  rw [if_neg hiv, if_neg hiv]
  unfold selectedKey
  generalize (if isMulticastEtherAddr skb.data = true then vif.groupKeyType else sta.keyType) = key
  cases key <;> rfl

theorem Delivers.reaches (henc : sta.enc = true)
    (h : Delivers (ieee80211RxHandlers env vif (some sta) skb)) :
    ∃ rx, rx.log = [] ∧ rx.sta = some sta ∧ rx.skb.amsdu = skb.amsdu ∧
      rx.skb.decrypted = skb.decrypted ∧ Delivers (rxHData env rx) := by
  rw [rxHandlers_eq] at h
  have hkept : ∀ res rx, rxHDecrypt env ⟨skb, vif, some sta, none, []⟩ = some (res, rx) →
      rx.log = [] ∧ rx.sta = some sta ∧ rx.skb.amsdu = skb.amsdu ∧
        rx.skb.decrypted = skb.decrypted := by
    intro res rx hrx
    have hk := kept_cryptoDecrypt (selectedKey vif sta skb.data)
      ⟨skb, vif, some sta, some (selectedKey vif sta skb.data), []⟩
    have of_eq : ∀ p : RxResult × RxData, some p = some (res, rx) →
        (p.2.log = [] ∧ p.2.sta = some sta ∧ p.2.skb.amsdu = skb.amsdu ∧
          p.2.skb.decrypted = skb.decrypted) →
        rx.log = [] ∧ rx.sta = some sta ∧ rx.skb.amsdu = skb.amsdu ∧
          rx.skb.decrypted = skb.decrypted := by
      intro p h hp
      rw [Option.some.inj h] at hp
      exact hp
    by_cases hprot : skb.decrypted = true
    · rw [rxHDecrypt_protected henc hprot] at hrx
      split_ifs at hrx <;> refine of_eq _ hrx ?_ <;>
        first
          | exact ⟨rfl, rfl, rfl, rfl⟩
          | exact ⟨hk.log, hk.sta, hk.amsdu, hk.decrypted⟩
    · rw [rxHDecrypt_clear (by simpa using hprot)] at hrx
      split_ifs at hrx <;> exact of_eq _ hrx ⟨rfl, rfl, rfl, rfl⟩
  obtain ⟨rx, hrx, hdel⟩ := (delivers_callRxh fun res rx hrx _ => by
    rw [(hkept res rx hrx).1]; rfl).mp h
  obtain ⟨hlog, hsta, hamsdu, hdec⟩ := hkept _ _ hrx
  obtain ⟨rx', hk, hdel'⟩ := hdel.data hlog hsta
  exact ⟨rx', hk.log.trans hlog, hk.sta.trans hsta, hk.amsdu.trans hamsdu,
    hk.decrypted.trans hdec, hdel'⟩

/-! ### A-MSDU frames -/

/-- The bytes of a frame behind the handler of its cipher. -/
def openedBy (key : EncType) (d : List UInt8) : List UInt8 :=
  if key = .aes then moveHeader (d.take (d.length - 8)) (ieee80211Hdrlen (frameControl d)) 8 else d

/-- The bytes of the frame behind the decryption. -/
def opened (sta : StaInfo) (skb : RxSkb) : List UInt8 :=
  if skb.decrypted then openedBy sta.keyType skb.data else skb.data

/-- The decryption lets a protected A-MSDU pass, with a key that the A-MSDU path accepts. -/
def Opens (env : RxEnv) (vif : Vif) (sta : StaInfo) (skb : RxSkb) : Prop :=
  skb.raMatch ∧ env.linearize ∧ ¬ skb.ivStripped ∧
    (sta.keyType = .aesCmac ∨ sta.keyType = .aes ∧
      (ccmpTkipReplaycnt vif.replay skb.data true).1 = 0 ∧
      ieee80211Hdrlen (frameControl skb.data) + 16 ≤ skb.data.length)

/-- **The A-MSDU frames that are delivered**: unicast frames with data that the decryption lets
pass, or that are in clear text where the AP does not encrypt, with subframes that the splitter
accepts. -/
structure AmsduAccepted (env : RxEnv) (vif : Vif) (sta : StaInfo) (skb : RxSkb) : Prop where
  present : ieee80211IsDataPresent (frameControl skb.data) = true
  unicast : isMulticastEtherAddr skb.data = false
  opens : skb.decrypted = true → Opens env vif sta skb
  clear : skb.decrypted = false →
    (skb.raMatch = true → env.linearize = true) ∧ ¬ (vif.type = .station ∧ vif.apEnc)
  splits : ∃ eth, ieee80211DataTo8023 (removeQosControl (opened sta skb)) vif.addr vif.type =
    some eth ∧ Splits env.alloc 0 (eth.drop 14)

/-- What the A-MSDU path asks of the header stays without the QoS control field. -/
theorem removeQosControl_data {d : List UInt8} (h : ieee80211IsData (frameControl d) = true) :
    ieee80211IsData (frameControl (removeQosControl d)) = true ∧
      ieee80211IsDataPresent (frameControl (removeQosControl d)) =
        ieee80211IsDataPresent (frameControl d) ∧
      isMulticastEtherAddr (removeQosControl d) = isMulticastEtherAddr d := by
  refine ⟨?_, ?_, isMulticast_removeQosControl h⟩
  · unfold ieee80211IsData at h ⊢
    rw [and_removeQosControl d rfl]
    exact h
  · unfold ieee80211IsDataPresent
    rw [and_removeQosControl d rfl]

theorem delivers_amsdu_afterDecrypt (hlog : rx.log = []) (hsta : rx.sta = some sta)
    (hkey : rx.key ≠ some .tkip) (hamsdu : rx.skb.amsdu = true)
    (hdata : ieee80211IsData (frameControl rx.skb.data) = true) :
    Delivers (afterDecrypt env rx) ↔
      ieee80211IsDataPresent (frameControl rx.skb.data) = true ∧
      isMulticastEtherAddr rx.skb.data = false ∧
      (rx.skb.decrypted = true → ∃ key, rx.key = some key ∧ key ≠ .wep) ∧
      ¬ (rx.vif.type = .station ∧ ¬ rx.skb.decrypted ∧ rx.vif.apEnc) ∧
      ∃ eth, ieee80211DataTo8023 (removeQosControl rx.skb.data) rx.vif.addr rx.vif.type =
        some eth ∧ Splits env.alloc 0 (eth.drop 14) := by
  obtain ⟨hdata', hpresent', hmulti'⟩ := removeQosControl_data hdata
  by_cases hnull : rx.skb.raMatch ∧ (ieee80211IsNullfunc (frameControl rx.skb.data) ∨
      ieee80211IsQosNullfunc (frameControl rx.skb.data))
  · refine iff_of_false (not_delivers_nullfunc hlog hsta hnull) fun h => ?_
    obtain ⟨h1, h2⟩ := isNullfunc_of_present h.1
    rw [h1, h2] at hnull
    rcases hnull.2 with h | h <;> cases h
  · have hlog' : (rx.setData (removeQosControl rx.skb.data)).log = [] := hlog
    rw [delivers_afterDecrypt hlog hsta hnull, michaelMicVerify_cont hkey]
    simp only [Option.some.injEq, Prod.mk.injEq, true_and, exists_eq_left']
    rw [delivers_amsdu hlog' hamsdu]
    show ieee80211IsData (frameControl (removeQosControl rx.skb.data)) = true ∧
      ieee80211IsDataPresent (frameControl (removeQosControl rx.skb.data)) = true ∧
      ¬ isMulticastEtherAddr (removeQosControl rx.skb.data) = true ∧
      (rx.skb.decrypted = true → ∃ key, rx.key = some key ∧ key ≠ .wep ∧ key ≠ .tkip) ∧ _ ↔ _
    rw [hpresent', hmulti', Bool.not_eq_true]
    have hk : (∃ key, rx.key = some key ∧ key ≠ .wep ∧ key ≠ .tkip) ↔
        ∃ key, rx.key = some key ∧ key ≠ .wep := by
      refine exists_congr fun key => and_congr_right fun h => and_iff_left ?_
      rintro rfl
      exact hkey h
    rw [hk]
    exact and_iff_right hdata'

/-- A key of a cipher without A-MSDU frames. -/
theorem not_delivers_wepTkip (hlog : rx.log = []) (hsta : rx.sta = some sta)
    (hamsdu : rx.skb.amsdu = true) (hdec : rx.skb.decrypted = true)
    (hkey : rx.key = some .wep ∨ rx.key = some .tkip) : ¬ Delivers (afterDecrypt env rx) := by
  intro h
  obtain ⟨rx', hk, hdel⟩ := h.data hlog hsta
  obtain ⟨-, -, -, hk', -⟩ := (delivers_amsdu (hk.log.trans hlog) (hk.amsdu.trans hamsdu)).mp hdel
  obtain ⟨key, heq, hwep, htkip⟩ := hk' (hk.decrypted.trans hdec)
  rw [hk.key] at heq
  rcases hkey with hkey | hkey
  · exact hwep (Option.some.inj (heq.symm.trans hkey))
  · exact htkip (Option.some.inj (heq.symm.trans hkey))

theorem type_replaycnt (v : AtbmVif) (d : List UInt8) (isCcmp : Bool) :
    (ccmpTkipReplaycnt v d isCcmp).2.type = v.type := by
  unfold ccmpTkipReplaycnt
  dsimp only
  split_ifs <;> rfl

/-- The header of a frame without its CCMP header and MIC. -/
theorem moveHeader_data {d : List UInt8} (h : ieee80211IsData (frameControl d) = true)
    (hlen : ieee80211Hdrlen (frameControl d) + 16 ≤ d.length) :
    frameControl (moveHeader (d.take (d.length - 8)) (ieee80211Hdrlen (frameControl d)) 8) =
        frameControl d ∧
      isMulticastEtherAddr
          (moveHeader (d.take (d.length - 8)) (ieee80211Hdrlen (frameControl d)) 8) =
        isMulticastEtherAddr d := by
  have hbyte : ∀ i < 24, byteAt
      (moveHeader (d.take (d.length - 8)) (ieee80211Hdrlen (frameControl d)) 8) i = byteAt d i :=
    fun i hi => byteAt_moveHeader (Nat.lt_of_lt_of_le hi (hdrlen_data h)) (by omega)
  constructor
  · rw [frameControl, le16At, hbyte 0 (by omega), hbyte 1 (by omega)]
    rfl
  · rw [isMulticastEtherAddr, hbyte 4 (by omega)]
    rfl

theorem not_delivers_of_kept {p : RxResult × RxData} (hk : Kept rx p.2) (hlog : rx.log = [])
    (hsta : rx.sta = some sta) (hamsdu : rx.skb.amsdu = true) (hdec : rx.skb.decrypted = true)
    (hkey : rx.key = some .wep ∨ rx.key = some .tkip) :
    ¬ Delivers (callRxh (some p) (afterDecrypt env)) := by
  obtain ⟨res, rx'⟩ := p
  have hlog' : rx'.log = [] := hk.log.trans hlog
  by_cases hres : res = .cont
  · subst hres
    refine not_delivers_wepTkip hlog' (hk.sta.trans hsta) (hk.amsdu.trans hamsdu)
      (hk.decrypted.trans hdec) ?_
    have h : rx'.key = rx.key := hk.key
    rwa [h]
  · intro h
    obtain ⟨rx'', heq, -⟩ := (delivers_callRxh fun _ _ heq _ => by
      cases heq
      rw [hlog']
      rfl).mp h
    cases heq
    exact hres rfl

theorem cryptoDecrypt_aes (hdata : ieee80211IsData (frameControl rx.skb.data) = true) :
    ∃ rx', Kept rx rx' ∧ rx'.skb = rx.skb ∧ rx'.vif.addr = rx.vif.addr ∧
      rx'.vif.type = rx.vif.type ∧
      cryptoDecrypt .aes rx =
        if (ccmpTkipReplaycnt rx.vif.replay rx.skb.data true).1 = 0 ∧
          ieee80211Hdrlen (frameControl rx.skb.data) + 16 ≤ rx.skb.data.length then
          (.cont, rx'.setData (openedBy .aes rx.skb.data))
        else (.dropUnusable, rx') := by
  refine ⟨{ rx with
    vif := { rx.vif with replay := (ccmpTkipReplaycnt rx.vif.replay rx.skb.data true).2 } },
    ⟨rfl, rfl, rfl, rfl, rfl⟩, rfl, rfl, type_replaycnt _ _ _, ?_⟩
  show withReplaycnt rx true cryptoCcmpDecrypt = _
  unfold withReplaycnt
  dsimp only
  by_cases hr : (ccmpTkipReplaycnt rx.vif.replay rx.skb.data true).1 = 0
  swap
  · rw [if_pos hr, if_neg fun h => hr h.1]
  rw [if_neg (not_not.mpr hr)]
  unfold cryptoCcmpDecrypt
  dsimp only
  rw [if_neg fun h => h.1 hdata]
  by_cases hlen : rx.skb.data.length < ieee80211Hdrlen (frameControl rx.skb.data) + 8 + 8
  · rw [if_pos hlen, if_neg fun h => by omega]
  · rw [if_neg hlen, if_pos ⟨hr, by omega⟩]
    rfl

theorem delivers_aesCmacDecrypt (hlog : rx.log = []) (hsta : rx.sta = some sta)
    (hkey : rx.key = some .aesCmac) (hamsdu : rx.skb.amsdu = true)
    (hdec : rx.skb.decrypted = true) (hdata : ieee80211IsData (frameControl rx.skb.data) = true) :
    Delivers (callRxh (some (cryptoDecrypt .aesCmac rx)) (afterDecrypt env)) ↔
      ieee80211IsDataPresent (frameControl rx.skb.data) = true ∧
      isMulticastEtherAddr rx.skb.data = false ∧
      ∃ eth, ieee80211DataTo8023 (removeQosControl rx.skb.data) rx.vif.addr rx.vif.type = some eth ∧
        Splits env.alloc 0 (eth.drop 14) := by
  have hcont : cryptoDecrypt .aesCmac rx = (.cont, rx) := by
    show cryptoAesCmacDecrypt rx = _
    unfold cryptoAesCmacDecrypt
    dsimp only
    rw [isMgmt_of_data hdata, if_pos Bool.false_ne_true]
  rw [hcont]
  show Delivers (afterDecrypt env rx) ↔ _
  rw [delivers_amsdu_afterDecrypt hlog hsta (by rw [hkey]; decide) hamsdu hdata]
  simp [hkey, hdec]

theorem delivers_aesDecrypt (hlog : rx.log = []) (hsta : rx.sta = some sta)
    (hkey : rx.key = some .aes) (hamsdu : rx.skb.amsdu = true) (hdec : rx.skb.decrypted = true)
    (hdata : ieee80211IsData (frameControl rx.skb.data) = true) :
    Delivers (callRxh (some (cryptoDecrypt .aes rx)) (afterDecrypt env)) ↔
      ieee80211IsDataPresent (frameControl rx.skb.data) = true ∧
      isMulticastEtherAddr rx.skb.data = false ∧
      ((ccmpTkipReplaycnt rx.vif.replay rx.skb.data true).1 = 0 ∧
        ieee80211Hdrlen (frameControl rx.skb.data) + 16 ≤ rx.skb.data.length) ∧
      ∃ eth, ieee80211DataTo8023 (removeQosControl (openedBy .aes rx.skb.data)) rx.vif.addr
        rx.vif.type = some eth ∧ Splits env.alloc 0 (eth.drop 14) := by
  obtain ⟨rx', hk', hskb, haddr, htype, heq⟩ := cryptoDecrypt_aes hdata
  rw [heq]
  by_cases hpass : (ccmpTkipReplaycnt rx.vif.replay rx.skb.data true).1 = 0 ∧
      ieee80211Hdrlen (frameControl rx.skb.data) + 16 ≤ rx.skb.data.length
  swap
  · rw [if_neg hpass]
    exact iff_of_false (not_delivers (hk'.log.trans hlog)) fun h => hpass h.2.2.1
  rw [if_pos hpass]
  obtain ⟨hfc, hmulti⟩ := moveHeader_data hdata hpass.2
  have hopened : openedBy .aes rx.skb.data = moveHeader (rx.skb.data.take (rx.skb.data.length - 8))
      (ieee80211Hdrlen (frameControl rx.skb.data)) 8 := if_pos rfl
  rw [← hopened] at hfc hmulti
  show Delivers (afterDecrypt env (rx'.setData (openedBy .aes rx.skb.data))) ↔ _
  -- what `ieee80211_rx_h_sta_process` is called with
  generalize hnew : rx'.setData (openedBy .aes rx.skb.data) = new
  have hnewlog : new.log = [] := by rw [← hnew]; exact hk'.log.trans hlog
  have hnewsta : new.sta = some sta := by rw [← hnew]; exact hk'.sta.trans hsta
  have hnewkey : new.key = some .aes := by rw [← hnew]; exact hk'.key.trans hkey
  have hnewamsdu : new.skb.amsdu = true := by rw [← hnew]; exact hk'.amsdu.trans hamsdu
  have hnewdec : new.skb.decrypted = true := by rw [← hnew]; exact hk'.decrypted.trans hdec
  have hnewdata : new.skb.data = openedBy .aes rx.skb.data := by rw [← hnew]; rfl
  have hnewvif : new.vif = rx'.vif := by rw [← hnew]; rfl
  rw [delivers_amsdu_afterDecrypt hnewlog hnewsta (by rw [hnewkey]; decide) hnewamsdu
    (by rw [hnewdata, hfc, hdata])]
  simp [hnewkey, hnewdec, hnewdata, hnewvif, hfc, hmulti, haddr, htype, hpass]

theorem delivers_cryptoDecrypt {key : EncType} (hlog : rx.log = []) (hsta : rx.sta = some sta)
    (hkey : rx.key = some key) (hamsdu : rx.skb.amsdu = true) (hdec : rx.skb.decrypted = true)
    (hdata : ieee80211IsData (frameControl rx.skb.data) = true) :
    Delivers (callRxh (some (cryptoDecrypt key rx)) (afterDecrypt env)) ↔
      ieee80211IsDataPresent (frameControl rx.skb.data) = true ∧
      isMulticastEtherAddr rx.skb.data = false ∧
      (key = .aesCmac ∨ key = .aes ∧ (ccmpTkipReplaycnt rx.vif.replay rx.skb.data true).1 = 0 ∧
        ieee80211Hdrlen (frameControl rx.skb.data) + 16 ≤ rx.skb.data.length) ∧
      ∃ eth, ieee80211DataTo8023 (removeQosControl (openedBy key rx.skb.data)) rx.vif.addr
        rx.vif.type = some eth ∧ Splits env.alloc 0 (eth.drop 14) := by
  have hwrong : ∀ {k : EncType}, k ≠ .aesCmac → k ≠ .aes →
      ¬ (k = .aesCmac ∨ k = .aes ∧ (ccmpTkipReplaycnt rx.vif.replay rx.skb.data true).1 = 0 ∧
        ieee80211Hdrlen (frameControl rx.skb.data) + 16 ≤ rx.skb.data.length) := by
    rintro k h1 h2 (h | h)
    · exact h1 h
    · exact h2 h.1
  have hk := kept_cryptoDecrypt key rx
  by_cases hbad : key = .wep ∨ key = .tkip
  · refine iff_of_false (not_delivers_of_kept hk hlog hsta hamsdu hdec ?_) fun h => ?_
    · rcases hbad with rfl | rfl
      · exact Or.inl hkey
      · exact Or.inr hkey
    · refine hwrong ?_ ?_ h.2.2.1 <;> rcases hbad with rfl | rfl <;> decide
  by_cases hcmac : key = .aesCmac
  · subst hcmac
    rw [delivers_aesCmacDecrypt hlog hsta hkey hamsdu hdec hdata]
    simp [openedBy]
  by_cases haes : key = .aes
  · subst haes
    rw [delivers_aesDecrypt hlog hsta hkey hamsdu hdec hdata]
    simp
  · have hdef : cryptoDecrypt key rx = (.dropUnusable, rx) := by
      cases key
      case wep => exact absurd (Or.inl rfl) hbad
      case tkip => exact absurd (Or.inr rfl) hbad
      case aes => exact absurd rfl haes
      case aesCmac => exact absurd rfl hcmac
      all_goals rfl
    rw [hdef]
    exact iff_of_false (not_delivers hlog) fun h => hwrong hcmac haes h.2.2.1

theorem delivers_iff_amsduAccepted (henc : sta.enc = true) (hamsdu : skb.amsdu = true)
    (hdata : ieee80211IsData (frameControl skb.data) = true) :
    Delivers (ieee80211RxHandlers env vif (some sta) skb) ↔ AmsduAccepted env vif sta skb := by
  have hnone : (none : Option EncType) ≠ some .tkip := by decide
  have hafter : Delivers (afterDecrypt env ⟨skb, vif, some sta, none, []⟩) ↔
      ieee80211IsDataPresent (frameControl skb.data) = true ∧
      isMulticastEtherAddr skb.data = false ∧
      (skb.decrypted = true → ∃ key : EncType, none = some key ∧ key ≠ .wep) ∧
      ¬ (vif.type = .station ∧ ¬ skb.decrypted ∧ vif.apEnc) ∧
      ∃ eth, ieee80211DataTo8023 (removeQosControl skb.data) vif.addr vif.type = some eth ∧
        Splits env.alloc 0 (eth.drop 14) :=
    delivers_amsdu_afterDecrypt rfl rfl hnone hamsdu hdata
  rw [rxHandlers_eq]
  by_cases hdec : skb.decrypted = true
  · -- without a key the A-MSDU path has no result
    have hnokey : ¬ Delivers (afterDecrypt env ⟨skb, vif, some sta, none, []⟩) := by
      rw [hafter]
      rintro ⟨-, -, hkey, -⟩
      obtain ⟨key, h, -⟩ := hkey hdec
      cases h
    rw [rxHDecrypt_protected henc hdec]
    by_cases hra : skb.raMatch = true
    swap
    · rw [if_pos hra]
      exact iff_of_false hnokey fun h => hra (h.opens hdec).1
    by_cases hlin : env.linearize = true
    swap
    · rw [if_neg (not_not.mpr hra), if_pos hlin]
      exact iff_of_false (not_delivers rfl) fun h => hlin (h.opens hdec).2.1
    by_cases hiv : skb.ivStripped = true
    · rw [if_neg (not_not.mpr hra), if_neg (not_not.mpr hlin), if_pos hiv]
      exact iff_of_false hnokey fun h => (h.opens hdec).2.2.1 hiv
    rw [if_neg (not_not.mpr hra), if_neg (not_not.mpr hlin), if_neg hiv]
    refine Iff.trans (delivers_cryptoDecrypt rfl rfl rfl hamsdu hdec hdata) ?_
    have hopened : opened sta skb = openedBy sta.keyType skb.data := if_pos hdec
    have hkey : isMulticastEtherAddr skb.data = false →
        selectedKey vif sta skb.data = sta.keyType := fun h => by simp [selectedKey, h]
    constructor
    · rintro ⟨h1, h2, h3, h4⟩
      rw [hkey h2] at h3 h4
      exact ⟨h1, h2, fun _ => ⟨hra, hlin, hiv, h3⟩, fun h => by simp [hdec] at h,
        by rwa [hopened]⟩
    · rintro ⟨h1, h2, h3, -, h4⟩
      rw [hopened] at h4
      rw [hkey h2]
      exact ⟨h1, h2, (h3 hdec).2.2.2, h4⟩
  · have hclear : skb.decrypted = false := by simpa using hdec
    have hopened : opened sta skb = skb.data := if_neg hdec
    rw [rxHDecrypt_clear hclear]
    by_cases hlin : skb.raMatch = true ∧ ¬ env.linearize = true
    · rw [if_pos hlin]
      exact iff_of_false (not_delivers rfl) fun h => hlin.2 ((h.clear hclear).1 hlin.1)
    · have hpass : skb.raMatch = true → env.linearize = true := fun h => by
        by_contra hno
        exact hlin ⟨h, hno⟩
      rw [if_neg hlin]
      show Delivers (afterDecrypt env ⟨skb, vif, some sta, none, []⟩) ↔ _
      rw [hafter]
      constructor
      · rintro ⟨h1, h2, -, h4, h5⟩
        exact ⟨h1, h2, fun h => absurd h hdec, fun _ => ⟨hpass, fun h => h4 ⟨h.1, hdec, h.2⟩⟩,
          by rwa [hopened]⟩
      · rintro ⟨h1, h2, -, h4, h5⟩
        rw [hopened] at h5
        exact ⟨h1, h2, fun h => absurd h hdec, fun h => (h4 hclear).2 ⟨h.1, h.2.2⟩, h5⟩

/-! ### Protected and authorised -/

theorem arrive_eq_some {vif : Vif} {sta : Option StaInfo} {status : ℕ} {d : List UInt8}
    {skb : RxSkb} {sta' : Option StaInfo} (h : arrive vif sta status d = some (skb, sta')) :
    skb.data = d ∧ skb.decrypted = ieee80211HasProtected (frameControl d) := by
  unfold arrive at h
  rcases hcb : atbmRxCb status d with _ | skb0
  · rw [hcb] at h
    cases h
  rw [hcb] at h
  dsimp only at h
  split_ifs at h
  have h0 : skb0.data = d ∧ skb0.decrypted = ieee80211HasProtected (frameControl d) := by
    unfold atbmRxCb at hcb
    split_ifs at hcb
    cases hcb
    exact ⟨rfl, rfl⟩
  have h1 : (ieee80211ParseQos skb0).1.data = skb0.data ∧
      (ieee80211ParseQos skb0).1.decrypted = skb0.decrypted := by
    unfold ieee80211ParseQos
    dsimp only
    split_ifs <;> exact ⟨rfl, rfl⟩
  rcases hprep : prepareForHandlers vif { (ieee80211ParseQos skb0).1 with raMatch := true } with
    _ | skb1
  · simp [hprep] at h
  simp only [hprep] at h
  have h2 : skb1.data = (ieee80211ParseQos skb0).1.data ∧
      skb1.decrypted = (ieee80211ParseQos skb0).1.decrypted := by
    unfold prepareForHandlers at hprep
    split at hprep
    · split_ifs at hprep <;> cases hprep <;> exact ⟨rfl, rfl⟩
    · cases hprep
      exact ⟨rfl, rfl⟩
    · cases hprep
      exact ⟨rfl, rfl⟩
    · cases hprep
  have h3 : skb = skb1 := by
    rcases hcheck : ieee80211RxHCheck sta (ieee80211ParseQos skb0).2 d with ⟨sta1, _ | _⟩
    · simp [hcheck] at h
    · simp only [hcheck, Option.some.injEq, Prod.mk.injEq] at h
      exact h.1.symm
  rw [h3, h2.1, h2.2, h1.1, h1.2]
  exact h0

/-- A frame in clear text reaches `ieee80211_rx_h_data` without its QoS control field only. -/
theorem Delivers.clear (hclear : skb.decrypted = false)
    (h : Delivers (ieee80211RxHandlers env vif (some sta) skb)) :
    Delivers (rxHData env ⟨{ skb with data := removeQosControl skb.data }, vif, some sta, none,
      []⟩) := by
  have hnone : (none : Option EncType) ≠ some .tkip := by decide
  rw [rxHandlers_eq, rxHDecrypt_clear hclear] at h
  split_ifs at h
  · exact absurd h (not_delivers rfl)
  · have h : Delivers (afterDecrypt env ⟨skb, vif, some sta, none, []⟩) := h
    by_cases hnull : skb.raMatch ∧ (ieee80211IsNullfunc (frameControl skb.data) ∨
        ieee80211IsQosNullfunc (frameControl skb.data))
    · exact absurd h (not_delivers_nullfunc rfl rfl hnull)
    · obtain ⟨rx', hmic, hdel⟩ := (delivers_afterDecrypt rfl rfl hnull).mp h
      rw [michaelMicVerify_cont hnone] at hmic
      cases hmic
      exact hdel

/-- A plain data frame goes to the stack only if it was protected and its station is authorised. -/
theorem plain_secured (henc : sta.enc = true) (hplain : skb.amsdu = false)
    (hprot : skb.decrypted = ieee80211HasProtected (frameControl skb.data))
    (h : Delivers (ieee80211RxHandlers env vif (some sta) skb)) :
    skb.decrypted = true ∧ sta.authorized = true := by
  by_cases hdec : skb.decrypted = true
  · obtain ⟨rx, hlog, hsta, hamsdu, -, hdel⟩ := h.reaches henc
    obtain ⟨-, -, hallowed⟩ := frameAllowed_of_delivers hlog (hamsdu.trans hplain) hdel
    unfold frameAllowed portControl at hallowed
    rw [hsta, Option.any_some, Bool.and_eq_true] at hallowed
    exact ⟨hdec, hallowed.1⟩
  · have hclear : skb.decrypted = false := by simpa using hdec
    obtain ⟨hdata, hpresent, hallowed⟩ := frameAllowed_of_delivers rfl hplain (h.clear hclear)
    have hfc : ieee80211HasProtected (frameControl (removeQosControl skb.data)) = false := by
      rw [← hclear, hprot]
      unfold ieee80211HasProtected
      rw [and_removeQosControl skb.data rfl]
    have hdrop : dropUnencrypted ⟨{ skb with data := removeQosControl skb.data }, vif, some sta,
        none, []⟩ sta (frameControl (removeQosControl skb.data)) = false := by
      unfold dropUnencrypted
      dsimp only at hdata hpresent ⊢
      rw [hclear, hfc, (isNullfunc_of_present hpresent).1, hdata, henc]
      rfl
    unfold frameAllowed at hallowed
    rw [Option.any_some, hdrop, Bool.and_false] at hallowed
    cases hallowed

/-- **Who gets a payload delivered**: whatever a data frame of an encrypting station delivers comes
from a protected frame of an authorised station, unless it is an A-MSDU that is accepted without. -/
theorem secured_iff (henc : sta.enc = true) {vif' : Vif} {sta₀ sta' : Option StaInfo} {status : ℕ}
    {d : List UInt8} (hdata : ieee80211IsData (frameControl d) = true)
    (harrive : arrive vif' sta₀ status d = some (skb, sta')) :
    (delivered env vif (some sta) skb ≠ [] →
        ieee80211HasProtected (frameControl d) = true ∧ sta.authorized = true) ↔
      (ieee80211HasProtected (frameControl d) = true ∧ sta.authorized = true) ∨
        ¬ (skb.amsdu = true ∧ AmsduAccepted env vif sta skb) := by
  obtain ⟨rfl, hprot⟩ := arrive_eq_some harrive
  rw [delivered_ne_nil]
  by_cases hamsdu : skb.amsdu = true
  · rw [delivers_iff_amsduAccepted henc hamsdu hdata, imp_iff_or_not]
    simp [hamsdu]
  · have hplain : skb.amsdu = false := by simpa using hamsdu
    refine iff_of_true (fun h => ?_) (Or.inr fun h => hamsdu h.1)
    obtain ⟨h1, h2⟩ := plain_secured henc hplain hprot h
    exact ⟨hprot ▸ h1, h2⟩

end

/-! ### An A-MSDU in clear text -/

/-- An AP. -/
def openAp : Vif where
  replay := ⟨.ap, fun _ => ⟨List.replicate 6 0, 0⟩⟩
  addr := ⟨[2, 0, 0, 0, 0, 1], rfl⟩
  groupKeyType := .aes
  apEnc := false

/-- A station that has associated with it and encrypts, but has not been authorised. -/
def newSta : StaInfo := ⟨true, false, true, .aes, fun _ => 0xffff⟩

/-- A QoS frame of that station to the AP, in clear text. -/
def clearFrame (qc : UInt8) : List UInt8 :=
  [0x88, 0x01, 0, 0, 2, 0, 0, 0, 0, 1, 2, 0, 0, 0, 0, 2, 2, 0, 0, 0, 0, 3, 0, 0, qc, 0] ++
    -- the header of a subframe with 8 bytes, and these bytes
    [0xaa, 0xaa, 3, 0, 0, 0, 0x80, 0xf3, 0, 0, 0, 1, 0, 8] ++ [0xaa, 0xaa, 3, 0, 0, 0, 8, 0]

/-- The buffer of that frame when it is handed on. -/
def clearSkb (qc : UInt8) (amsdu : Bool) : RxSkb :=
  ⟨clearFrame qc, false, false, false, true, amsdu⟩

/-- As a plain frame it is not delivered. -/
theorem secured_iff_plain :
    delivered ⟨true, fun _ => true⟩ openAp (some newSta) (clearSkb 0 false) = [] := by
  by_contra hne
  have harrive : arrive openAp (some newSta) 0 (clearFrame 0) =
      some (clearSkb 0 false, some { newSta with
        lastSeqCtrl := Function.update newSta.lastSeqCtrl 0 0 }) := rfl
  have h := (secured_iff rfl rfl harrive).mpr (Or.inr fun h => by cases h.1) hne
  cases h.1

/-- As an A-MSDU it is delivered. -/
theorem clearAmsdu_delivered :
    (∃ sta', arrive openAp (some newSta) 0 (clearFrame 0x80) = some (clearSkb 0x80 true, sta')) ∧
      newSta.enc = true ∧ ieee80211IsData (frameControl (clearFrame 0x80)) = true ∧
      delivered ⟨true, fun _ => true⟩ openAp (some newSta) (clearSkb 0x80 true) ≠ [] ∧
      ¬ (ieee80211HasProtected (frameControl (clearFrame 0x80)) = true) ∧
      newSta.authorized = false := by
  refine ⟨⟨_, rfl⟩, rfl, rfl, ?_, by decide, rfl⟩
  rw [delivered_ne_nil, delivers_iff_amsduAccepted rfl rfl rfl]
  exact
    { present := rfl
      unicast := rfl
      opens := fun h => by cases h
      clear := fun _ => ⟨fun _ => rfl, by decide⟩
      splits := ⟨_, rfl, .last rfl (by decide) (by decide)⟩ }

end Atbm6441.Rx.Handlers
