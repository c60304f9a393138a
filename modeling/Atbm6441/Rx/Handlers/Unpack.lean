import Atbm6441.Rx.Handlers.Reject

/-!
# From a protected frame to header and payload

A protected data frame has its IV behind the 802.11 header and its trailer at the end.
`ieee80211_rx_h_decrypt` takes off the IV, and the ICV or the CCMP MIC; and
`ieee80211_rx_h_michael_mic_verify` the Michael MIC of a TKIP frame that carries data.
`unpacks_iff` : header and payload are left of every frame of that form, and every shorter frame is
dropped without a step outside it, exactly if a WEP frame, and in station mode any frame, has 8
bytes behind its header.
-/

namespace Atbm6441.Rx.Handlers

open Atbm6441.Ieee80211 Atbm6441.Ether Atbm6441.Rx.Replay

/-! ### Lengths -/

/-- The bytes behind the header: `WEP_IV_LEN`, `TKIP_IV_LEN` and `CCMP_HDR_LEN`. -/
def ivLen : EncType → ℕ
  | .wep => 4
  | .tkip | .aes => 8
  | _ => 0

/-- The bytes at the end: the ICV, with the Michael MIC in front of it if a TKIP frame carries
data; or the CCMP MIC. -/
def trailerLen (fc : ℕ) : EncType → ℕ
  | .wep => 4
  | .tkip => if ieee80211IsDataPresent fc then 8 + 4 else 4
  | .aes => 8
  | _ => 0

/-! ### Steps in the buffer -/

/-- A step of a handler: it uses `n` bytes from `off` on of a frame with `len` bytes, or takes `b`
from the length `a`. -/
inductive Touch
  | bytes (off n len : ℕ)
  | minus (a b : ℕ)

/-- The bytes lie in the frame; the length does not wrap around. -/
def Touch.Inside : Touch → Prop
  | bytes off n len => off + n ≤ len
  | minus a b => b ≤ a

/-- `memmove(skb->data + n, skb->data, hdrlen)` and `atbm_skb_pull(skb, n)`. -/
def moveTouches (len hdrlen n : ℕ) : List Touch :=
  [.bytes 0 hdrlen len, .bytes n hdrlen len, .minus len n]

/-- `ieee80211_crypto_wep_decrypt`, of a data frame. -/
def wepTouches (len hdrlen : ℕ) : List Touch :=
  moveTouches len hdrlen 4 ++ [.minus (len - 4) 4]

/-- `ieee80211_crypto_tkip_decrypt`, of a data frame. -/
def tkipTouches (len hdrlen : ℕ) : List Touch :=
  .minus len hdrlen ::
    if (len + 0x100000000 - hdrlen) % 0x100000000 < 12 then []
    else .minus len 4 :: moveTouches (len - 4) hdrlen 8

/-- `ieee80211_crypto_ccmp_decrypt`, of a data frame; `data_len` is signed. -/
def ccmpTouches (len hdrlen : ℕ) : List Touch :=
  if len < hdrlen + 8 + 8 then [] else .minus len 8 :: moveTouches (len - 8) hdrlen 8

/-- The replay check in front of it. -/
def replayTouches (vif : AtbmVif) (d : List UInt8) (isCcmp : Bool) (decrypt : List Touch) :
    List Touch :=
  (replaycntReads vif d isCcmp).map (fun i => Touch.bytes i 1 d.length) ++
    if (ccmpTkipReplaycnt vif d isCcmp).1 ≠ 0 then [] else decrypt

/-- `ieee80211_rx_h_decrypt`, of a data frame with the key. -/
def cipherTouches (vif : Vif) (d : List UInt8) (key : EncType) : List Touch :=
  let hdrlen := ieee80211Hdrlen (frameControl d)
  match key with
  | .wep => wepTouches d.length hdrlen
  | .tkip => replayTouches vif.replay d false (tkipTouches d.length hdrlen)
  | .aes => replayTouches vif.replay d true (ccmpTouches d.length hdrlen)
  | _ => []

/-- `ieee80211_rx_h_michael_mic_verify`. -/
def michaelTouches (rx : RxData) : List Touch :=
  let d := rx.skb.data
  if rx.key = some .tkip ∧ ieee80211IsDataPresent (frameControl d) ∧ ¬ rx.skb.mmicError ∧
      ieee80211Hdrlen (frameControl d) + 8 ≤ d.length then [.minus d.length 8]
  else []

/-! ### Both handlers -/

/-- The decryption, and the Michael MIC. -/
def openFrame (env : RxEnv) (vif : Vif) (sta : Option StaInfo) (skb : RxSkb) : Handled :=
  callRxh (rxHDecrypt env ⟨skb, vif, sta, none, []⟩) rxHMichaelMicVerify

/-- The steps of the Michael MIC behind the decryption. -/
def thenMichael : RxResult × RxData → List Touch
  | (.cont, rx) => michaelTouches rx
  | _ => []

/-- The steps of both, for a data frame with the key. -/
def openTouches (vif : Vif) (sta : Option StaInfo) (skb : RxSkb) (key : EncType) : List Touch :=
  .bytes 0 (ieee80211Hdrlen (frameControl skb.data)) skb.data.length ::
    cipherTouches vif skb.data key ++
    thenMichael (cryptoDecrypt key ⟨skb, vif, sta, some key, []⟩)

/-- The packet number is accepted, and no failure of the Michael MIC is reported. -/
structure Accepted (vif : Vif) (skb : RxSkb) (key : EncType) : Prop where
  replay : key ≠ .wep → (ccmpTkipReplaycnt vif.replay skb.data (key = .aes)).1 = 0
  mic : key = .tkip → ieee80211IsDataPresent (frameControl skb.data) = true → skb.mmicError = false

/-- **A frame is unpacked**: what the handlers leave of header, IV, payload and trailer is the
header and the payload; a frame too short for them is dropped, and no step goes outside it. -/
structure Unpacks (env : RxEnv) (vif : Vif) (sta : Option StaInfo) (skb : RxSkb) (key : EncType) :
    Prop where
  long : ∀ hdr iv payload trailer, skb.data = hdr ++ (iv ++ (payload ++ trailer)) →
    hdr.length = ieee80211Hdrlen (frameControl skb.data) → iv.length = ivLen key →
    trailer.length = trailerLen (frameControl skb.data) key → Accepted vif skb key →
    ∃ rx, openFrame env vif sta skb = some (.cont, rx) ∧ rx.skb.data = hdr ++ payload
  short : skb.data.length < ieee80211Hdrlen (frameControl skb.data) + ivLen key +
      trailerLen (frameControl skb.data) key →
    (∃ rx, openFrame env vif sta skb = some (.dropUnusable, rx)) ∧
      ∀ x ∈ openTouches vif sta skb key, x.Inside

/-! ### Moving the header -/

/-- The frame without its last `n` bytes and the 8 bytes behind its header. -/
def stripped (d : List UInt8) (n : ℕ) : List UInt8 :=
  moveHeader (d.take (d.length - n)) (ieee80211Hdrlen (frameControl d)) 8

theorem moveHeader_append (hdr iv rest : List UInt8) :
    moveHeader (hdr ++ (iv ++ rest)) hdr.length iv.length = hdr ++ rest := by
  have hdrop : (hdr ++ (iv ++ rest)).drop (hdr.length + iv.length) = rest := by
    rw [← List.append_assoc, ← List.length_append, List.drop_left]
  unfold moveHeader
  rw [List.take_left, hdrop, List.take_of_length_le]
  simp only [List.length_append]
  omega

theorem take_length_sub {l m : List UInt8} {n : ℕ} (hm : m.length = n) :
    (l ++ m).take ((l ++ m).length - n) = l := by
  have hlen : (l ++ m).length - n = l.length := by
    rw [List.length_append]
    omega
  rw [hlen, List.take_left]

theorem stripped_append {hdr iv body trailer : List UInt8} {n : ℕ}
    (hhdr : hdr.length =
      ieee80211Hdrlen (frameControl (hdr ++ (iv ++ (body ++ trailer)))))
    (hiv : iv.length = 8) (hn : trailer.length = n) :
    stripped (hdr ++ (iv ++ (body ++ trailer))) n = hdr ++ body := by
  have hassoc : hdr ++ (iv ++ (body ++ trailer)) = (hdr ++ (iv ++ body)) ++ trailer := by
    simp only [List.append_assoc]
  unfold stripped
  rw [← hhdr, hassoc, take_length_sub hn, ← hiv, moveHeader_append]

theorem length_stripped {d : List UInt8} {n : ℕ}
    (h : ieee80211Hdrlen (frameControl d) + 8 + n ≤ d.length) :
    (stripped d n).length = d.length - n - 8 := by
  rw [stripped, length_moveHeader, List.length_take]
  omega

theorem frameControl_stripped {d : List UInt8} {n : ℕ}
    (hdata : ieee80211IsData (frameControl d) = true)
    (h : ieee80211Hdrlen (frameControl d) + 8 + n ≤ d.length) :
    frameControl (stripped d n) = frameControl d := by
  have h24 := hdrlen_data hdata
  have htake : (d.take (d.length - n)).length = d.length - n := List.length_take_of_le (by omega)
  rw [stripped, frameControl_moveHeader (by omega) (by omega), frameControl_take (by omega)]

/-! ### Steps inside the frame -/

/-- All steps stay inside the frame. -/
def AllInside (l : List Touch) : Prop := ∀ x ∈ l, x.Inside

theorem moveTouches_inside {len hdrlen n : ℕ} (h : hdrlen + n ≤ len) :
    AllInside (moveTouches len hdrlen n) := by
  unfold AllInside moveTouches
  simp only [List.mem_cons, List.not_mem_nil, or_false, forall_eq_or_imp, forall_eq, Touch.Inside]
  omega

theorem tkipTouches_inside {len hdrlen : ℕ} (hhdr : hdrlen ≤ len) (hlen : len < 0x100000000) :
    AllInside (tkipTouches len hdrlen) := by
  unfold tkipTouches
  refine List.forall_mem_cons.mpr ⟨hhdr, ?_⟩
  split_ifs with hshort
  · exact nofun
  · have h12 : hdrlen + 12 ≤ len := by omega
    refine List.forall_mem_cons.mpr ⟨?_, moveTouches_inside (by omega)⟩
    show 4 ≤ len
    omega

theorem ccmpTouches_inside (len hdrlen : ℕ) : AllInside (ccmpTouches len hdrlen) := by
  unfold ccmpTouches
  split_ifs with hshort
  · exact nofun
  · refine List.forall_mem_cons.mpr ⟨?_, moveTouches_inside (by omega)⟩
    show 8 ≤ len
    omega

theorem michaelTouches_inside (rx : RxData) : AllInside (michaelTouches rx) := by
  unfold michaelTouches
  dsimp only
  split_ifs with h
  · refine List.forall_mem_singleton.mpr ?_
    show 8 ≤ rx.skb.data.length
    omega
  · exact nofun

theorem mem_replaycntReads {v : AtbmVif} {d : List UInt8} {isCcmp : Bool} {i : ℕ}
    (h : i ∈ replaycntReads v d isCcmp) :
    v.type = .station ∧ i < ieee80211Hdrlen (frameControl d) + 8 := by
  unfold replaycntReads at h
  split_ifs at h with hv
  · cases h
  · obtain ⟨j, hj, rfl⟩ := List.mem_map.mp h
    refine ⟨not_not.mp hv, ?_⟩
    have hj8 : j < 8 := by
      cases isCcmp <;> simp [hdr2pnReads] at hj <;> omega
    omega

theorem last_mem_replaycntReads {v : AtbmVif} (hv : v.type = .station) (d : List UInt8)
    (isCcmp : Bool) : ieee80211Hdrlen (frameControl d) + 7 ∈ replaycntReads v d isCcmp := by
  unfold replaycntReads
  rw [if_neg (not_not.mpr hv)]
  exact List.mem_map.mpr ⟨7, List.mem_cons_self, rfl⟩

theorem replayTouches_inside_iff {v : AtbmVif} {d : List UInt8} {isCcmp : Bool}
    {decrypt : List Touch} (hd : AllInside decrypt) :
    AllInside (replayTouches v d isCcmp decrypt) ↔
      (v.type = .station → ieee80211Hdrlen (frameControl d) + 8 ≤ d.length) := by
  unfold replayTouches
  constructor
  · intro h hv
    exact h _ (List.mem_append_left _
      (List.mem_map.mpr ⟨_, last_mem_replaycntReads hv d isCcmp, rfl⟩))
  · intro h
    refine List.forall_mem_append.mpr ⟨fun x hx => ?_, ?_⟩
    · obtain ⟨i, hi, rfl⟩ := List.mem_map.mp hx
      obtain ⟨hv, hlt⟩ := mem_replaycntReads hi
      have := h hv
      show i + 1 ≤ d.length
      omega
    · split_ifs
      · exact nofun
      · exact hd

/-! ### The handlers on a data frame -/

section

variable {env : RxEnv} {vif : Vif} {sta : Option StaInfo} {skb : RxSkb} {key : EncType}

theorem keyOf_eq_some (h : keyOf env vif sta skb = some key) :
    skb.decrypted = true ∧ skb.ivStripped = false ∧ ∃ st, sta = some st := by
  unfold keyOf at h
  split_ifs at h with hc
  rcases sta with _ | st
  · cases h
  · exact ⟨hc.2.2.1, by simpa using hc.2.2.2, st, rfl⟩

theorem openFrame_eq (hkey : keyOf env vif sta skb = some key) :
    openFrame env vif sta skb =
      callRxh (some (cryptoDecrypt key ⟨skb, vif, sta, some key, []⟩)) rxHMichaelMicVerify := by
  rw [openFrame, rxHDecrypt_eq, hkey]

theorem cryptoWep_data (rx : RxData) (hdata : ieee80211IsData (frameControl rx.skb.data) = true)
    (hdec : rx.skb.decrypted = true) (hiv : rx.skb.ivStripped = false) :
    ∃ d, d = moveHeader rx.skb.data (ieee80211Hdrlen (frameControl rx.skb.data)) 4 ∧
      cryptoWepDecrypt rx = (.cont, rx.setData (d.take (d.length - 4))) := by
  refine ⟨_, rfl, ?_⟩
  unfold cryptoWepDecrypt
  dsimp only
  rw [if_neg fun h => h.1 hdata, if_neg (not_not.mpr hdec), hiv, if_neg Bool.false_ne_true]

theorem cryptoTkip_data {rx : RxData} (hdata : ieee80211IsData (frameControl rx.skb.data) = true)
    (hhdr : ieee80211Hdrlen (frameControl rx.skb.data) ≤ rx.skb.data.length)
    (hlen : rx.skb.data.length < 0x100000000) :
    cryptoTkipDecrypt rx =
      if rx.skb.data.length < ieee80211Hdrlen (frameControl rx.skb.data) + 8 + 4 then
        (.dropUnusable, rx)
      else (.cont, rx.setData (stripped rx.skb.data 4)) := by
  have hmod : (rx.skb.data.length + 0x100000000 - ieee80211Hdrlen (frameControl rx.skb.data)) %
      0x100000000 < 12 ↔
      rx.skb.data.length < ieee80211Hdrlen (frameControl rx.skb.data) + 8 + 4 := by omega
  unfold cryptoTkipDecrypt
  dsimp only
  rw [if_neg (not_not.mpr hdata)]
  simp only [hmod]
  rfl

theorem cryptoCcmp_data {rx : RxData} (hdata : ieee80211IsData (frameControl rx.skb.data) = true) :
    cryptoCcmpDecrypt rx =
      if rx.skb.data.length < ieee80211Hdrlen (frameControl rx.skb.data) + 8 + 8 then
        (.dropUnusable, rx)
      else (.cont, rx.setData (stripped rx.skb.data 8)) := by
  unfold cryptoCcmpDecrypt
  dsimp only
  rw [if_neg fun h => h.1 hdata]
  rfl

theorem michael_tkip {rx : RxData} (hkey : rx.key = some .tkip) (hsta : ∃ st, rx.sta = some st)
    (hdec : rx.skb.decrypted = true) (hiv : rx.skb.ivStripped = false) :
    rxHMichaelMicVerify rx =
      if ieee80211IsDataPresent (frameControl rx.skb.data) = true then
        if rx.skb.mmicError = true ∨
            rx.skb.data.length < ieee80211Hdrlen (frameControl rx.skb.data) + 8 then
          some (.dropUnusable, rx)
        else some (.cont, rx.setData (rx.skb.data.take (rx.skb.data.length - 8)))
      else some (.cont, rx) := by
  obtain ⟨st, hst⟩ := hsta
  unfold rxHMichaelMicVerify
  dsimp only
  rw [if_neg (by simp [hkey, hst, hdec])]
  by_cases hpresent : ieee80211IsDataPresent (frameControl rx.skb.data) = true
  · rw [if_neg (not_not.mpr hpresent), if_pos hpresent, hiv]
    by_cases hmic : rx.skb.mmicError = true
    · rw [if_pos (Or.inr hmic), if_pos (Or.inl hmic)]
    · rw [if_neg (by simpa using hmic)]
      simp only [hmic, Bool.false_eq_true, false_or]
  · rw [if_pos hpresent, if_neg hpresent]

/-! ### WEP -/

/-- A WEP frame is never dropped. -/
theorem openFrame_wep (hkey : keyOf env vif sta skb = some .wep)
    (hdata : ieee80211IsData (frameControl skb.data) = true) :
    ∃ rx d, d = moveHeader skb.data (ieee80211Hdrlen (frameControl skb.data)) 4 ∧
      openFrame env vif sta skb = some (.cont, rx) ∧ rx.skb.data = d.take (d.length - 4) := by
  obtain ⟨hdec, hiv, -⟩ := keyOf_eq_some hkey
  obtain ⟨d, hd, hwep⟩ := cryptoWep_data ⟨skb, vif, sta, some .wep, []⟩ hdata hdec hiv
  obtain ⟨rx, hrx⟩ : ∃ rx, rx = RxData.setData ⟨skb, vif, sta, some .wep, []⟩
      (d.take (d.length - 4)) := ⟨_, rfl⟩
  have hkey' : rx.key ≠ some .tkip := by
    rw [hrx]
    exact fun h => by cases h
  refine ⟨rx, d, hd, ?_, by rw [hrx]; rfl⟩
  rw [openFrame_eq hkey]
  show callRxh (some (cryptoWepDecrypt ⟨skb, vif, sta, some .wep, []⟩)) rxHMichaelMicVerify = _
  rw [hwep, ← hrx]
  exact michaelMicVerify_cont hkey'

theorem unpacks_wep (hkey : keyOf env vif sta skb = some .wep)
    (hdata : ieee80211IsData (frameControl skb.data) = true) :
    Unpacks env vif sta skb .wep ↔
      ieee80211Hdrlen (frameControl skb.data) + 8 ≤ skb.data.length := by
  obtain ⟨rx, d, hd, hopen, hrx⟩ := openFrame_wep hkey hdata
  constructor
  · intro h
    by_contra hshort
    obtain ⟨⟨rx', hdrop⟩, -⟩ := h.short (by simp only [ivLen, trailerLen]; omega)
    cases hopen.symm.trans hdrop
  · intro h
    refine ⟨fun hdr iv payload trailer hform hhdr hivlen htr _ => ⟨rx, hopen, ?_⟩, fun hs => ?_⟩
    · have hmoved : d = hdr ++ (payload ++ trailer) := by
        rw [hd, ← hhdr, hform, show 4 = iv.length from hivlen.symm, moveHeader_append]
      have htr' : trailer.length = 4 := htr
      rw [hrx, hmoved, ← List.append_assoc, take_length_sub htr']
    · simp only [ivLen, trailerLen] at hs
      omega

/-! ### TKIP and CCMP -/

theorem withReplaycnt_reject {rx : RxData} {isCcmp : Bool} {decrypt : RxData → RxResult × RxData}
    (h : (ccmpTkipReplaycnt rx.vif.replay rx.skb.data isCcmp).1 ≠ 0) :
    (withReplaycnt rx isCcmp decrypt).1 = .dropUnusable := by
  unfold withReplaycnt
  dsimp only
  rw [if_pos h]

theorem withReplaycnt_accept {rx : RxData} {isCcmp : Bool} {decrypt : RxData → RxResult × RxData}
    (h : (ccmpTkipReplaycnt rx.vif.replay rx.skb.data isCcmp).1 = 0) :
    ∃ rx', rx'.skb = rx.skb ∧ rx'.sta = rx.sta ∧ rx'.key = rx.key ∧
      withReplaycnt rx isCcmp decrypt = decrypt rx' := by
  refine ⟨{ rx with
    vif := { rx.vif with replay := (ccmpTkipReplaycnt rx.vif.replay rx.skb.data isCcmp).2 } },
    rfl, rfl, rfl, ?_⟩
  unfold withReplaycnt
  dsimp only
  rw [if_neg (not_not.mpr h)]

theorem openFrame_drop (hkey : keyOf env vif sta skb = some key)
    (h : (cryptoDecrypt key ⟨skb, vif, sta, some key, []⟩).1 = .dropUnusable) :
    ∃ rx, openFrame env vif sta skb = some (.dropUnusable, rx) := by
  rw [openFrame_eq hkey]
  generalize cryptoDecrypt key ⟨skb, vif, sta, some key, []⟩ = p at h ⊢
  obtain ⟨res, rx⟩ := p
  obtain rfl : res = .dropUnusable := h
  exact ⟨rx, rfl⟩

theorem openFrame_cont (hkey : keyOf env vif sta skb = some key) {rx : RxData}
    (h : cryptoDecrypt key ⟨skb, vif, sta, some key, []⟩ = (.cont, rx)) :
    openFrame env vif sta skb = rxHMichaelMicVerify rx := by
  rw [openFrame_eq hkey, h]
  rfl

theorem openTouches_inside_iff
    (hhdr : ieee80211Hdrlen (frameControl skb.data) ≤ skb.data.length) :
    AllInside (openTouches vif sta skb key) ↔ AllInside (cipherTouches vif skb.data key) := by
  have hmic : AllInside (thenMichael (cryptoDecrypt key ⟨skb, vif, sta, some key, []⟩)) := by
    rcases cryptoDecrypt key ⟨skb, vif, sta, some key, []⟩ with ⟨res, rx⟩
    cases res with
    | cont => exact michaelTouches_inside rx
    | queued | dropMonitor | dropUnusable => exact nofun
  have hhead : (Touch.bytes 0 (ieee80211Hdrlen (frameControl skb.data))
      skb.data.length).Inside := by
    show 0 + _ ≤ _
    omega
  constructor
  · intro h x hx
    exact h x (List.mem_append_left _ (List.mem_cons_of_mem _ hx))
  · intro h
    exact List.forall_mem_append.mpr ⟨List.forall_mem_cons.mpr ⟨hhead, h⟩, hmic⟩

/-- The frame is dropped, or handed to the Michael MIC without its IV and its last `n` bytes. -/
theorem openFrame_replayed {isCcmp : Bool} {decrypt : RxData → RxResult × RxData} {n : ℕ}
    (hkey : keyOf env vif sta skb = some key)
    (hcipher : cryptoDecrypt key ⟨skb, vif, sta, some key, []⟩ =
      withReplaycnt ⟨skb, vif, sta, some key, []⟩ isCcmp decrypt)
    (hdecrypt : ∀ rx : RxData, rx.skb = skb → decrypt rx =
      if skb.data.length < ieee80211Hdrlen (frameControl skb.data) + 8 + n then (.dropUnusable, rx)
      else (.cont, rx.setData (stripped skb.data n))) :
    ((ccmpTkipReplaycnt vif.replay skb.data isCcmp).1 ≠ 0 ∨
        skb.data.length < ieee80211Hdrlen (frameControl skb.data) + 8 + n →
      ∃ rx, openFrame env vif sta skb = some (.dropUnusable, rx)) ∧
    ((ccmpTkipReplaycnt vif.replay skb.data isCcmp).1 = 0 →
        ieee80211Hdrlen (frameControl skb.data) + 8 + n ≤ skb.data.length →
      ∃ rx : RxData, rx.skb = { skb with data := stripped skb.data n } ∧ rx.sta = sta ∧
        rx.key = some key ∧ openFrame env vif sta skb = rxHMichaelMicVerify rx) := by
  by_cases hacc : (ccmpTkipReplaycnt vif.replay skb.data isCcmp).1 = 0
  swap
  · refine ⟨fun _ => openFrame_drop hkey ?_, fun h => absurd h hacc⟩
    rw [hcipher]
    exact withReplaycnt_reject hacc
  obtain ⟨rx, hskb, hst, hk, heq⟩ := @withReplaycnt_accept ⟨skb, vif, sta, some key, []⟩ isCcmp
    decrypt hacc
  rw [← hcipher, hdecrypt rx hskb] at heq
  constructor
  · rintro (hno | hshort)
    · exact absurd hacc hno
    · refine openFrame_drop hkey ?_
      rw [heq, if_pos hshort]
  · intro _ hlong
    rw [if_neg (Nat.not_lt.mpr hlong)] at heq
    refine ⟨rx.setData (stripped skb.data n), ?_, hst, hk, openFrame_cont hkey heq⟩
    have hset : (rx.setData (stripped skb.data n)).skb =
        { rx.skb with data := stripped skb.data n } := rfl
    rw [hset, hskb]

theorem openFrame_tkip (hkey : keyOf env vif sta skb = some .tkip)
    (hdata : ieee80211IsData (frameControl skb.data) = true) {rx : RxData}
    (hlong : ieee80211Hdrlen (frameControl skb.data) + 8 + 4 ≤ skb.data.length)
    (hskb : rx.skb = { skb with data := stripped skb.data 4 }) (hsta : rx.sta = sta)
    (hk : rx.key = some .tkip) :
    rxHMichaelMicVerify rx =
      if ieee80211IsDataPresent (frameControl skb.data) = true then
        if skb.mmicError = true ∨
            skb.data.length < ieee80211Hdrlen (frameControl skb.data) + 20 then
          some (.dropUnusable, rx)
        else some (.cont, rx.setData
          ((stripped skb.data 4).take ((stripped skb.data 4).length - 8)))
      else some (.cont, rx) := by
  obtain ⟨hdec, hiv, hst⟩ := keyOf_eq_some hkey
  have hshort : (stripped skb.data 4).length < ieee80211Hdrlen (frameControl skb.data) + 8 ↔
      skb.data.length < ieee80211Hdrlen (frameControl skb.data) + 20 := by
    rw [length_stripped hlong]
    omega
  rw [michael_tkip hk (hsta ▸ hst) (by rw [hskb]; exact hdec) (by rw [hskb]; exact hiv), hskb]
  dsimp only
  rw [frameControl_stripped hdata hlong]
  simp only [hshort]

/-- **TKIP**: in station mode the packet number is read before the length is looked at. -/
theorem unpacks_tkip (hkey : keyOf env vif sta skb = some .tkip)
    (hdata : ieee80211IsData (frameControl skb.data) = true)
    (hhdr : ieee80211Hdrlen (frameControl skb.data) ≤ skb.data.length)
    (hlen : skb.data.length < 0x100000000) :
    Unpacks env vif sta skb .tkip ↔
      (vif.type = .station → ieee80211Hdrlen (frameControl skb.data) + 8 ≤ skb.data.length) := by
  have hinside : AllInside (openTouches vif sta skb .tkip) ↔
      (vif.type = .station → ieee80211Hdrlen (frameControl skb.data) + 8 ≤ skb.data.length) :=
    (openTouches_inside_iff hhdr).trans (replayTouches_inside_iff (tkipTouches_inside hhdr hlen))
  have h24 := hdrlen_data hdata
  obtain ⟨hdrop, hcont⟩ := @openFrame_replayed _ _ _ _ _ false cryptoTkipDecrypt 4 hkey rfl
    fun rx hrx => by
      subst hrx
      exact cryptoTkip_data hdata hhdr hlen
  constructor
  · intro h hv
    by_contra hshort
    have hall := (h.short (by simp only [ivLen]; omega)).2
    exact hshort (hinside.mp hall hv)
  intro hroom
  refine ⟨fun hdr iv payload trailer hform hhdrlen hivlen htr hacc => ?_, fun hs => ⟨?_, ?_⟩⟩
  · have hiv8 : iv.length = 8 := hivlen
    have hlong : ieee80211Hdrlen (frameControl skb.data) + 8 + 4 ≤ skb.data.length := by
      rw [← hhdrlen, hform]
      simp only [List.length_append, hiv8, htr, trailerLen]
      split_ifs <;> omega
    obtain ⟨rx, hskb, hst, hk, hopen⟩ := hcont (hacc.replay (by decide)) hlong
    rw [hopen, openFrame_tkip hkey hdata hlong hskb hst hk]
    rw [hform] at hhdrlen
    by_cases hpresent : ieee80211IsDataPresent (frameControl skb.data) = true
    · have h12 : trailer.length = 12 := by rw [htr, trailerLen, if_pos hpresent]
      have h20 : ieee80211Hdrlen (frameControl skb.data) + 20 ≤ skb.data.length := by
        rw [hform, ← hhdrlen]
        simp only [List.length_append, hiv8, h12]
        omega
      have hno : ¬ (skb.mmicError = true ∨
          skb.data.length < ieee80211Hdrlen (frameControl skb.data) + 20) := by
        rintro (h | h)
        · rw [hacc.mic rfl hpresent] at h
          cases h
        · omega
      rw [if_pos hpresent, if_neg hno]
      refine ⟨_, rfl, ?_⟩
      -- the trailer is the Michael MIC and the ICV
      have hsplit : payload ++ trailer = (payload ++ trailer.take 8) ++ trailer.drop 8 := by
        rw [List.append_assoc, List.take_append_drop]
      have hmic : (trailer.take 8).length = 8 := by rw [List.length_take]; omega
      have hstrip := @stripped_append hdr iv (payload ++ trailer.take 8) (trailer.drop 8) 4
        (by rwa [← hsplit]) hiv8 (by rw [List.length_drop]; omega)
      rw [← hsplit, ← hform, ← List.append_assoc] at hstrip
      show (stripped skb.data 4).take ((stripped skb.data 4).length - 8) = hdr ++ payload
      rw [hstrip, take_length_sub hmic]
    · have h4 : trailer.length = 4 := by rw [htr, trailerLen, if_neg hpresent]
      rw [if_neg hpresent]
      refine ⟨_, rfl, ?_⟩
      rw [hskb, hform]
      exact stripped_append hhdrlen hiv8 h4
  · by_cases hacc : (ccmpTkipReplaycnt vif.replay skb.data false).1 = 0
    swap
    · exact hdrop (Or.inl hacc)
    by_cases hlong : ieee80211Hdrlen (frameControl skb.data) + 8 + 4 ≤ skb.data.length
    swap
    · exact hdrop (Or.inr (by omega))
    obtain ⟨rx, hskb, hst, hk, hopen⟩ := hcont hacc hlong
    rw [hopen, openFrame_tkip hkey hdata hlong hskb hst hk]
    simp only [ivLen, trailerLen] at hs
    by_cases hpresent : ieee80211IsDataPresent (frameControl skb.data) = true
    · rw [if_pos hpresent] at hs ⊢
      rw [if_pos (Or.inr (by omega))]
      exact ⟨rx, rfl⟩
    · rw [if_neg hpresent] at hs
      omega
  · exact hinside.mpr hroom

/-- **CCMP**, likewise. -/
theorem unpacks_aes (hkey : keyOf env vif sta skb = some .aes)
    (hdata : ieee80211IsData (frameControl skb.data) = true)
    (hhdr : ieee80211Hdrlen (frameControl skb.data) ≤ skb.data.length) :
    Unpacks env vif sta skb .aes ↔
      (vif.type = .station → ieee80211Hdrlen (frameControl skb.data) + 8 ≤ skb.data.length) := by
  have hinside : AllInside (openTouches vif sta skb .aes) ↔
      (vif.type = .station → ieee80211Hdrlen (frameControl skb.data) + 8 ≤ skb.data.length) :=
    (openTouches_inside_iff hhdr).trans (replayTouches_inside_iff (ccmpTouches_inside _ _))
  obtain ⟨hdrop, hcont⟩ := @openFrame_replayed _ _ _ _ _ true cryptoCcmpDecrypt 8 hkey rfl
    fun rx hrx => by
      subst hrx
      exact cryptoCcmp_data hdata
  constructor
  · intro h hv
    by_contra hshort
    have hall := (h.short (by simp only [ivLen]; omega)).2
    exact hshort (hinside.mp hall hv)
  intro hroom
  refine ⟨fun hdr iv payload trailer hform hhdrlen hivlen htr hacc => ?_, fun hs => ⟨?_, ?_⟩⟩
  · have hiv8 : iv.length = 8 := hivlen
    have htr8 : trailer.length = 8 := htr
    have hlong : ieee80211Hdrlen (frameControl skb.data) + 8 + 8 ≤ skb.data.length := by
      rw [← hhdrlen, hform]
      simp only [List.length_append, hiv8, htr8]
      omega
    obtain ⟨rx, hskb, hst, hk, hopen⟩ := hcont (hacc.replay (by decide)) hlong
    have hkey' : rx.key ≠ some .tkip := by
      rw [hk]
      exact fun h => by cases h
    refine ⟨rx, hopen.trans (michaelMicVerify_cont hkey'), ?_⟩
    rw [hform] at hhdrlen
    rw [hskb, hform]
    exact stripped_append hhdrlen hiv8 htr8
  · simp only [ivLen, trailerLen] at hs
    exact hdrop (Or.inr (by omega))
  · exact hinside.mpr hroom

/-- **A protected data frame is unpacked**, whatever the cipher, exactly if there are 8 bytes behind
its header where the cipher is WEP, and in station mode. -/
theorem unpacks_iff (hkey : keyOf env vif sta skb = some key)
    (hcipher : key = .wep ∨ key = .tkip ∨ key = .aes)
    (hdata : ieee80211IsData (frameControl skb.data) = true)
    (hhdr : ieee80211Hdrlen (frameControl skb.data) ≤ skb.data.length)
    (hlen : skb.data.length < 0x100000000) :
    Unpacks env vif sta skb key ↔
      (key = .wep ∨ vif.type = .station →
        ieee80211Hdrlen (frameControl skb.data) + 8 ≤ skb.data.length) := by
  rcases hcipher with rfl | rfl | rfl
  · rw [unpacks_wep hkey hdata]
    exact (imp_iff_right (Or.inl rfl)).symm
  · rw [unpacks_tkip hkey hdata hhdr hlen]
    exact imp_congr_left (or_iff_right fun h => by cases h).symm
  · rw [unpacks_aes hkey hdata hhdr]
    exact imp_congr_left (or_iff_right fun h => by cases h).symm

end

/-! ### A WEP frame without an ICV -/

/-- A station with a WEP key. -/
def wepSta : StaInfo := ⟨true, true, true, .wep, fun _ => 0xffff⟩

/-- A protected data frame from it to an AP, with `n` bytes behind the header. -/
def wepFrame (n : ℕ) : List UInt8 :=
  [0x08, 0x41, 0, 0, 2, 0, 0, 0, 0, 1, 2, 0, 0, 0, 0, 2, 2, 0, 0, 0, 0, 3, 0x10, 0] ++
    List.replicate n 0xee

/-- Its buffer when the handlers get it. -/
def wepSkb (n : ℕ) : RxSkb := ⟨wepFrame n, true, false, false, true, false⟩

theorem unpacks_iff_nine :
    Unpacks ⟨true, fun _ => true⟩ openAp (some wepSta) (wepSkb 9) .wep := by
  refine (@unpacks_iff ⟨true, fun _ => true⟩ openAp (some wepSta) (wepSkb 9) .wep rfl (Or.inl rfl)
    (by decide) (by decide) (by decide)).mpr fun _ => by decide

/-- **A WEP frame that ends behind its IV** is not dropped: 20 bytes of its header are left. -/
theorem wep_truncated :
    (∃ sta, arrive openAp (some wepSta) 0 (wepFrame 4) = some (wepSkb 4, some sta)) ∧
    (openFrame ⟨true, fun _ => true⟩ openAp (some wepSta) (wepSkb 4)).map
      (fun r => (r.1, r.2.skb.data)) = some (.cont, (wepFrame 4).take 20) ∧
    ¬ Unpacks ⟨true, fun _ => true⟩ openAp (some wepSta) (wepSkb 4) .wep := by
  refine ⟨⟨_, rfl⟩, rfl, fun h => ?_⟩
  obtain ⟨rx, hrx⟩ := (h.short (by decide)).1
  cases hrx

end Atbm6441.Rx.Handlers
