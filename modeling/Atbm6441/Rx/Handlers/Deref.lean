import Atbm6441.Rx.Handlers.Duplicate
import Atbm6441.Rx.Handlers.Reject

/-!
# The pointers of the RX handlers

`rx->sta` and `rx->key` may be NULL: the station of a frame need not be known, and
`ieee80211_rx_h_decrypt` selects no key for a frame that is not for us, comes without a station, or
lost its IV. Each use of a pointer is listed with its value at that moment. `derefs_iff` : no NULL
pointer is used unless a protected A-MSDU comes to `ieee80211_rx_h_amsdu` without a key, which reads
the cipher of the key of every frame that counts as decrypted.
-/

namespace Atbm6441.Rx.Handlers

open Atbm6441.Ieee80211 Atbm6441.Ether

/-- A use of what `rx->key` or `rx->sta` points to, with the pointer. -/
inductive Deref
  | key (p : Option EncType)
  | sta (p : Option StaInfo)

/-- The pointer is not NULL. -/
def Deref.Safe : Deref → Prop
  | key p => p ≠ none
  | sta p => p ≠ none

/-! ### Uses -/

/-- `ieee80211_rx_h_check`. -/
def checkDerefs (sta : Option StaInfo) (seqnoIdx : ℕ) (d : List UInt8) : List Deref :=
  let fc := frameControl d
  (if sta.isSome ∧ ¬ isMulticastEtherAddr d then [.sta sta] else []) ++
    if droppedAsDuplicate sta seqnoIdx d ∨ d.length < 16 then []
    else if (ieee80211IsData fc ∨ ieee80211IsPspoll fc) ∧ sta.isSome then [.sta sta]
    else []

/-- `ieee80211_rx_reorder_ampdu`. -/
def reorderDerefs (sta : Option StaInfo) (d : List UInt8) : List Deref :=
  if ¬ ieee80211IsDataQos (frameControl d) ∨ sta.isNone then [] else [.sta sta]

/-- `ieee80211_rx_h_decrypt`; the handlers of the ciphers only test `rx->sta`. -/
def decryptDerefs (env : RxEnv) (rx : RxData) : List Deref :=
  if ¬ rx.skb.raMatch then []
  else if ¬ env.linearize then []
  else
    match rx.sta with
    | none => []
    | some sta =>
      .sta rx.sta ::
        if sta.enc = false ∨ ¬ rx.skb.decrypted ∨ rx.skb.ivStripped then []
        else if isMulticastEtherAddr rx.skb.data then [.key (some rx.vif.groupKeyType)]
        else [.sta rx.sta, .key (some sta.keyType)]

/-- `ieee80211_rx_h_michael_mic_verify`. -/
def micDerefs (rx : RxData) : List Deref :=
  if rx.key.isNone ∨ rx.sta.isNone ∨ ¬ rx.skb.decrypted then [] else [.key rx.key]

/-- `ieee80211_rx_h_amsdu`. -/
def amsduDerefs (rx : RxData) : List Deref :=
  if ¬ ieee80211IsDataPresent (frameControl rx.skb.data) then []
  else if isMulticastEtherAddr rx.skb.data then []
  else if rx.skb.decrypted then [.key rx.key]
  else []

/-- `ieee80211_frame_allowed`: `ieee80211_802_1x_port_control`, and `ieee80211_drop_unencrypted` for
a frame of a station that is authorised. -/
def allowedDerefs (rx : RxData) (fc : ℕ) : List Deref :=
  (if rx.sta.isSome then [.sta rx.sta] else []) ++
    if portControl rx ∧ ¬ rx.skb.decrypted ∧ ¬ ieee80211HasProtected fc ∧
        ¬ ieee80211IsNullfunc fc ∧ ieee80211IsData fc then [.sta rx.sta]
    else []

/-- `ieee80211_rx_h_data`. -/
def dataDerefs (rx : RxData) : List Deref :=
  let fc := frameControl rx.skb.data
  if ¬ ieee80211IsData fc then []
  else if ¬ ieee80211IsDataPresent fc then []
  else if rx.skb.amsdu then amsduDerefs rx
  else
    match ieee80211DataTo8023 rx.skb.data rx.vif.addr rx.vif.type with
    | none => []
    | some eth => allowedDerefs (rx.setData eth) fc

/-- The uses of the next handler, if this one says so. -/
def nextDerefs (h : Handled) (next : RxData → List Deref) : List Deref :=
  match h with
  | some (.cont, rx) => next rx
  | _ => []

/-- The handlers from `ieee80211_rx_h_sta_process` on; those of action and management frames only
test `rx->sta`. -/
def afterDerefs (rx : RxData) : List Deref :=
  nextDerefs (rxHStaProcess rx) fun rx =>
    micDerefs rx ++ nextDerefs (rxHMichaelMicVerify rx) fun rx =>
      nextDerefs (rxHRemoveQosControl rx) dataDerefs

/-- `ieee80211_rx_handlers`, for one frame. -/
def handlersDerefs (env : RxEnv) (vif : Vif) (sta : Option StaInfo) (skb : RxSkb) : List Deref :=
  decryptDerefs env ⟨skb, vif, sta, none, []⟩ ++
    nextDerefs (rxHDecrypt env ⟨skb, vif, sta, none, []⟩) afterDerefs

/-- All pointers that are used are valid. -/
def AllSafe (l : List Deref) : Prop := ∀ x ∈ l, x.Safe

theorem allSafe_append {l m : List Deref} : AllSafe (l ++ m) ↔ AllSafe l ∧ AllSafe m :=
  List.forall_mem_append

theorem allSafe_nil : AllSafe [] := nofun

theorem allSafe_single {x : Deref} : AllSafe [x] ↔ x.Safe := List.forall_mem_singleton

/-! ### The station -/

theorem checkDerefs_safe (sta : Option StaInfo) (i : ℕ) (d : List UInt8) :
    AllSafe (checkDerefs sta i d) := by
  rcases sta with _ | sta
  · intro x hx
    simp [checkDerefs] at hx
  · have hsafe : (Deref.sta (some sta)).Safe := Option.some_ne_none sta
    refine allSafe_append.mpr ⟨?_, ?_⟩ <;> split_ifs <;>
      first | exact allSafe_nil | exact allSafe_single.mpr hsafe

theorem reorderDerefs_safe (sta : Option StaInfo) (d : List UInt8) :
    AllSafe (reorderDerefs sta d) := by
  unfold reorderDerefs
  rcases sta with _ | sta
  · rw [Option.isNone_none, if_pos (Or.inr rfl)]
    exact allSafe_nil
  · split_ifs
    · exact allSafe_nil
    · exact allSafe_single.mpr (Option.some_ne_none sta)

theorem decryptDerefs_safe (env : RxEnv) (rx : RxData) : AllSafe (decryptDerefs env rx) := by
  unfold decryptDerefs
  rcases rx.sta with _ | sta
  · split_ifs <;> exact allSafe_nil
  have hsafe : (Deref.sta (some sta)).Safe := Option.some_ne_none sta
  have hkey : ∀ key, (Deref.key (some key)).Safe := Option.some_ne_none
  dsimp only
  split_ifs
  · exact allSafe_single.mpr hsafe
  · exact List.forall_mem_cons.mpr ⟨hsafe, allSafe_single.mpr (hkey _)⟩
  · exact List.forall_mem_cons.mpr ⟨hsafe, List.forall_mem_cons.mpr
      ⟨hsafe, allSafe_single.mpr (hkey _)⟩⟩
  all_goals exact allSafe_nil

theorem allowedDerefs_safe (rx : RxData) (fc : ℕ) : AllSafe (allowedDerefs rx fc) := by
  unfold allowedDerefs
  rcases hsta : rx.sta with _ | sta
  · have hport : ¬ portControl rx = true := by
      rw [portControl, hsta]
      exact nofun
    rw [if_neg nofun, if_neg fun h => hport h.1]
    exact allSafe_nil
  · have hsafe : (Deref.sta (some sta)).Safe := Option.some_ne_none sta
    refine allSafe_append.mpr ⟨?_, ?_⟩ <;> split_ifs <;>
      first | exact allSafe_nil | exact allSafe_single.mpr hsafe

/-! ### The key -/

theorem micDerefs_safe (rx : RxData) : AllSafe (micDerefs rx) := by
  unfold micDerefs
  rcases hkey : rx.key with _ | key
  · rw [Option.isNone_none, if_pos (Or.inl rfl)]
    exact allSafe_nil
  · split_ifs
    · exact allSafe_nil
    · exact allSafe_single.mpr (Option.some_ne_none key)

/-- What an A-MSDU is that is read as one. -/
structure ReadAsAmsdu (skb : RxSkb) : Prop where
  amsdu : skb.amsdu = true
  decrypted : skb.decrypted = true
  present : ieee80211IsDataPresent (frameControl skb.data) = true
  unicast : isMulticastEtherAddr skb.data = false

/-- `ieee80211_rx_h_data` uses a key only for a protected A-MSDU. -/
theorem dataDerefs_safe (rx : RxData) :
    AllSafe (dataDerefs rx) ↔ (ReadAsAmsdu rx.skb → rx.key ≠ none) := by
  unfold dataDerefs
  dsimp only
  by_cases hpresent : ieee80211IsDataPresent (frameControl rx.skb.data) = true
  swap
  · refine iff_of_true ?_ fun h => absurd h.present hpresent
    split_ifs <;> exact allSafe_nil
  rw [if_neg (not_not.mpr (isData_of_present hpresent)), if_neg (not_not.mpr hpresent)]
  by_cases hamsdu : rx.skb.amsdu = true
  swap
  · rw [if_neg hamsdu]
    refine iff_of_true ?_ fun h => absurd h.amsdu hamsdu
    rcases ieee80211DataTo8023 rx.skb.data rx.vif.addr rx.vif.type with _ | eth
    · exact allSafe_nil
    · exact allowedDerefs_safe _ _
  rw [if_pos hamsdu]
  unfold amsduDerefs
  rw [if_neg (not_not.mpr hpresent)]
  by_cases hmulti : isMulticastEtherAddr rx.skb.data = true
  · rw [if_pos hmulti]
    refine iff_of_true allSafe_nil fun h => ?_
    rw [h.unicast] at hmulti
    cases hmulti
  rw [if_neg hmulti]
  by_cases hdec : rx.skb.decrypted = true
  · rw [if_pos hdec, allSafe_single]
    exact ⟨fun h _ => h, fun h => h ⟨hamsdu, hdec, hpresent, by simpa using hmulti⟩⟩
  · rw [if_neg hdec]
    exact iff_of_true allSafe_nil fun h => absurd h.decrypted hdec

/-- What is read as an A-MSDU without the QoS control field. -/
theorem readAsAmsdu_removeQosControl (skb : RxSkb) :
    ReadAsAmsdu { skb with data := removeQosControl skb.data } ↔ ReadAsAmsdu skb := by
  have hpresent : ieee80211IsDataPresent (frameControl (removeQosControl skb.data)) =
      ieee80211IsDataPresent (frameControl skb.data) := by
    unfold ieee80211IsDataPresent
    rw [and_removeQosControl skb.data rfl]
  constructor
  · rintro ⟨h1, h2, h3, h4⟩
    have h3' := hpresent.symm.trans h3
    refine ⟨h1, h2, h3', ?_⟩
    rwa [← isMulticast_removeQosControl (isData_of_present h3')]
  · rintro ⟨h1, h2, h3, h4⟩
    refine ⟨h1, h2, hpresent.trans h3, ?_⟩
    show isMulticastEtherAddr (removeQosControl skb.data) = false
    rwa [isMulticast_removeQosControl (isData_of_present h3)]

theorem rxHStaProcess_cases (rx : RxData) :
    rxHStaProcess rx = some (.cont, rx) ∨
      ¬ ReadAsAmsdu rx.skb ∧
        rxHStaProcess rx = some (.queued, { rx with log := rx.log ++ [.kfree .skb] }) := by
  unfold rxHStaProcess
  dsimp only
  split_ifs with _ hnull
  · exact Or.inl rfl
  · refine Or.inr ⟨fun h => ?_, rfl⟩
    obtain ⟨h1, h2⟩ := isNullfunc_of_present h.present
    rw [h1, h2] at hnull
    rcases hnull with h | h <;> cases h
  · exact Or.inl rfl

/-- **Behind the decryption** a key is missed only by a protected A-MSDU. -/
theorem afterDerefs_safe (rx : RxData) :
    AllSafe (afterDerefs rx) ↔ (ReadAsAmsdu rx.skb → rx.key ≠ none) := by
  unfold afterDerefs
  rcases rxHStaProcess_cases rx with hsta | ⟨hnot, hsta⟩
  swap
  · rw [hsta]
    exact iff_of_true allSafe_nil fun h => absurd h hnot
  rw [hsta]
  show AllSafe (micDerefs rx ++ _) ↔ _
  rw [allSafe_append, and_iff_right (micDerefs_safe rx)]
  rcases hkey : rx.key with _ | key
  · rw [michaelMicVerify_cont (by rw [hkey]; exact nofun)]
    show AllSafe (dataDerefs (rx.setData (removeQosControl rx.skb.data))) ↔ _
    rw [dataDerefs_safe, ← hkey]
    exact imp_congr_left (readAsAmsdu_removeQosControl rx.skb)
  · refine iff_of_true ?_ fun _ => Option.some_ne_none key
    rcases hmic : rxHMichaelMicVerify rx with _ | ⟨res, rx'⟩
    · exact allSafe_nil
    cases res with
    | cont =>
      have hk := kept_michaelMicVerify hmic
      refine (dataDerefs_safe (rx'.setData (removeQosControl rx'.skb.data))).mpr fun _ => ?_
      show rx'.key ≠ none
      rw [hk.key, hkey]
      exact Option.some_ne_none key
    | queued | dropMonitor | dropUnusable => exact allSafe_nil

/-! ### Frames without a key -/

/-- **A protected A-MSDU without a key**: it is not for us, or it is linearized and its station is
not known, does not encrypt, or the frame has lost its IV. -/
structure KeylessAmsdu (env : RxEnv) (sta : Option StaInfo) (skb : RxSkb) : Prop where
  read : ReadAsAmsdu skb
  keyless : skb.raMatch = false ∨ env.linearize = true ∧
    (skb.ivStripped = true ∨ ∀ st, sta = some st → st.enc = false)

theorem keyOf_eq_none {env : RxEnv} {vif : Vif} {sta : Option StaInfo} {skb : RxSkb}
    (hdec : skb.decrypted = true) :
    keyOf env vif sta skb = none ↔ skb.raMatch = false ∨ env.linearize = false ∨
      skb.ivStripped = true ∨ ∀ st, sta = some st → st.enc = false := by
  unfold keyOf
  by_cases hra : skb.raMatch = true
  swap
  · simp [hra]
  by_cases hlin : env.linearize = true
  swap
  · simp [hlin]
  by_cases hiv : skb.ivStripped = true
  · simp [hiv]
  rcases sta with _ | sta
  · simp
  · by_cases henc : sta.enc = true <;> simp [hra, hlin, hiv, hdec, henc]

theorem handlersDerefs_safe (env : RxEnv) (vif : Vif) (sta : Option StaInfo) (skb : RxSkb) :
    AllSafe (handlersDerefs env vif sta skb) ↔ ¬ KeylessAmsdu env sta skb := by
  unfold handlersDerefs
  rw [allSafe_append, and_iff_right (decryptDerefs_safe _ _), rxHDecrypt_eq]
  rcases hkey : keyOf env vif sta skb with _ | key
  · dsimp only
    by_cases hdrop : skb.raMatch ∧ ¬ env.linearize
    · rw [if_pos hdrop]
      refine iff_of_true allSafe_nil fun h => ?_
      rcases h.keyless with h | ⟨h, -⟩
      · rw [hdrop.1] at h
        cases h
      · exact hdrop.2 h
    · rw [if_neg hdrop]
      refine (afterDerefs_safe ⟨skb, vif, sta, none, []⟩).trans ?_
      constructor
      · rintro h ⟨hread, -⟩
        exact h hread rfl
      · intro h hread _
        have hno := (keyOf_eq_none hread.decrypted).mp hkey
        by_cases hra : skb.raMatch = true
        · have hlin : env.linearize = true := by
            by_contra hlin
            exact hdrop ⟨hra, hlin⟩
          rw [hra, hlin] at hno
          refine h ⟨hread, Or.inr ⟨hlin, ?_⟩⟩
          simpa using hno
        · exact h ⟨hread, Or.inl (by simpa using hra)⟩
  · refine iff_of_true ?_ fun h => ?_
    · have hk := kept_cryptoDecrypt key ⟨skb, vif, sta, some key, []⟩
      dsimp only
      generalize cryptoDecrypt key ⟨skb, vif, sta, some key, []⟩ = p at hk ⊢
      obtain ⟨res, rx⟩ := p
      cases res with
      | cont =>
        refine (afterDerefs_safe rx).mpr fun _ => ?_
        have hsome : rx.key = some key := hk.key
        rw [hsome]
        exact Option.some_ne_none key
      | queued | dropMonitor | dropUnusable => exact allSafe_nil
    · have hno := (@keyOf_eq_none env vif sta skb h.read.decrypted).mpr <| by
        rcases h.keyless with h | ⟨-, h | h⟩
        · exact Or.inl h
        · exact Or.inr (Or.inr (Or.inl h))
        · exact Or.inr (Or.inr (Or.inr h))
      rw [hkey] at hno
      cases hno

/-- **No handler uses a NULL pointer** exactly if the frame is not a protected A-MSDU that comes
without a key; the station is as it was at the check, and as it is when the frame is handled. -/
theorem derefs_iff (env : RxEnv) (vif : Vif) (sta sta' : Option StaInfo) (seqnoIdx : ℕ)
    (skb : RxSkb) :
    AllSafe (checkDerefs sta seqnoIdx skb.data ++ reorderDerefs sta skb.data ++
      handlersDerefs env vif sta' skb) ↔ ¬ KeylessAmsdu env sta' skb := by
  rw [allSafe_append, allSafe_append, and_iff_right
    ⟨checkDerefs_safe sta seqnoIdx skb.data, reorderDerefs_safe sta skb.data⟩]
  exact handlersDerefs_safe env vif sta' skb

/-! ### Handlers without a result -/

theorem callRxh_none_iff {h : Handled} {next : RxData → Handled} {uses : RxData → List Deref}
    (hh : h ≠ none) (hnext : ∀ rx, next rx = none ↔ ¬ AllSafe (uses rx)) :
    callRxh h next = none ↔ ¬ AllSafe (nextDerefs h uses) := by
  rcases h with _ | ⟨res, rx⟩
  · exact absurd rfl hh
  cases res with
  | cont => exact hnext rx
  | queued | dropMonitor | dropUnusable => exact iff_of_false nofun (not_not.mpr allSafe_nil)

theorem rxHAmsdu_none_iff (env : RxEnv) (rx : RxData) :
    ieee80211RxHAmsdu env rx = none ↔ ¬ AllSafe (amsduDerefs rx) := by
  unfold ieee80211RxHAmsdu amsduDerefs
  dsimp only
  by_cases hpresent : ieee80211IsDataPresent (frameControl rx.skb.data) = true
  swap
  · rw [if_pos hpresent, if_pos hpresent]
    exact iff_of_false nofun (not_not.mpr allSafe_nil)
  rw [if_neg (not_not.mpr hpresent), if_neg (not_not.mpr hpresent)]
  by_cases hmulti : isMulticastEtherAddr rx.skb.data = true
  · rw [if_pos hmulti, if_pos hmulti]
    exact iff_of_false nofun (not_not.mpr allSafe_nil)
  rw [if_neg hmulti, if_neg hmulti]
  by_cases hdec : rx.skb.decrypted = true
  swap
  · rw [if_neg hdec, if_neg hdec]
    exact iff_of_false nofun (not_not.mpr allSafe_nil)
  rw [if_pos hdec, if_pos hdec, allSafe_single]
  rcases rx.key with _ | key
  · exact iff_of_true rfl fun h => h rfl
  · refine iff_of_false ?_ (not_not.mpr (Option.some_ne_none key))
    cases key <;> exact nofun

theorem rxHData_none_iff (env : RxEnv) (rx : RxData) :
    rxHData env rx = none ↔ ¬ AllSafe (dataDerefs rx) := by
  unfold rxHData dataDerefs
  dsimp only
  by_cases hdata : ieee80211IsData (frameControl rx.skb.data) = true
  swap
  · rw [if_pos hdata, if_pos hdata]
    exact iff_of_false nofun (not_not.mpr allSafe_nil)
  rw [if_neg (not_not.mpr hdata), if_neg (not_not.mpr hdata)]
  by_cases hpresent : ieee80211IsDataPresent (frameControl rx.skb.data) = true
  swap
  · rw [if_pos hpresent, if_pos hpresent]
    exact iff_of_false nofun (not_not.mpr allSafe_nil)
  rw [if_neg (not_not.mpr hpresent), if_neg (not_not.mpr hpresent)]
  by_cases hamsdu : rx.skb.amsdu = true
  · rw [if_pos hamsdu, if_pos hamsdu]
    rw [← rxHAmsdu_none_iff env rx]
    rcases ieee80211RxHAmsdu env rx with _ | _ | frames
    · exact iff_of_true rfl rfl
    · exact iff_of_false nofun nofun
    · exact iff_of_false nofun nofun
  · rw [if_neg hamsdu, if_neg hamsdu]
    rcases ieee80211DataTo8023 rx.skb.data rx.vif.addr rx.vif.type with _ | eth
    · exact iff_of_false nofun (not_not.mpr allSafe_nil)
    · refine iff_of_false ?_ (not_not.mpr (allowedDerefs_safe _ _))
      dsimp only
      split_ifs <;> exact nofun

/-- **The handlers have no result** exactly where they use a NULL pointer. -/
theorem rxHandlers_none_iff (env : RxEnv) (vif : Vif) (sta : Option StaInfo) (skb : RxSkb) :
    ieee80211RxHandlers env vif sta skb = none ↔ ¬ AllSafe (handlersDerefs env vif sta skb) := by
  rw [rxHandlers_eq, handlersDerefs, allSafe_append, and_iff_right (decryptDerefs_safe _ _)]
  refine callRxh_none_iff ?_ fun rx => ?_
  · rw [rxHDecrypt_eq]
    rcases keyOf env vif sta skb with _ | key <;> exact nofun
  refine callRxh_none_iff ?_ fun rx => ?_
  · rcases rxHStaProcess_cases rx with h | ⟨-, h⟩ <;> rw [h] <;> exact nofun
  rw [allSafe_append, and_iff_right (micDerefs_safe rx)]
  refine callRxh_none_iff ?_ fun rx => ?_
  · unfold rxHMichaelMicVerify
    dsimp only
    split_ifs <;> exact nofun
  exact callRxh_none_iff nofun (rxHData_none_iff env)

/-! ### A station that does not encrypt -/

/-- A station that has associated with an AP and does not encrypt. -/
def openSta : StaInfo := ⟨true, true, false, .unset, fun _ => 0xffff⟩

/-- A QoS frame of that station to the AP with its Protected bit set. -/
def protectedFrame (qc : UInt8) : List UInt8 :=
  [0x88, 0x41, 0, 0, 2, 0, 0, 0, 0, 1, 2, 0, 0, 0, 0, 2, 2, 0, 0, 0, 0, 3, 0, 0, qc, 0]

/-- Its buffer when the handlers get it. -/
def protectedSkb (qc : UInt8) (amsdu : Bool) : RxSkb :=
  ⟨protectedFrame qc, true, false, false, true, amsdu⟩

/-- **An A-MSDU with the Protected bit** from a station that does not encrypt. -/
theorem amsdu_without_key :
    (∃ sta, arrive openAp (some openSta) 0 (protectedFrame 0x80) =
      some (protectedSkb 0x80 true, some sta)) ∧
    ¬ AllSafe (handlersDerefs ⟨true, fun _ => true⟩ openAp (some openSta)
      (protectedSkb 0x80 true)) := by
  refine ⟨⟨_, rfl⟩, fun h => ?_⟩
  exact h (.key none) (List.mem_append_right _ List.mem_cons_self) rfl

end Atbm6441.Rx.Handlers
