import Atbm6441.Ioctl.Mode

/-!
# The configuration query

`main.c`: the host asks the firmware for its configuration with `wsm_get_config`, and takes the MAC
address, the mode and the connection from the answer. The answer is copied to the stack of the
caller, which is not initialised; when there is none, or a short one, it keeps what is there, or
what an answer has left that came as the command timed out. `atbm_wsm_get_status` tests the result;
the three functions here do not.

* `getStatus_proper` : the status is given to the user when the query has succeeded;
* `config_proper_iff` : what is taken over depends on the answer alone, and nothing is taken over
  from a query that has failed, if and only if the query succeeds;
* `config_improper` : an address, a mode and a connection from the stack.
-/

namespace Atbm6441.Sta.GetConfig

open Atbm6441.Ioctl.Mode (apKeys keyMgmt)
open Atbm6441.Sta.Connect

/-! ### The query -/

/-- What the host reads of `struct wsm_sdio_getconfig_cnf`. -/
structure GetconfigCnf where
  macaddr : Addr
  bconnect : UInt8
  wifiMode : UInt8
  conEvent : HostConnectEvent

/-- The fields by their offsets. -/
def GetconfigCnf.ofBytes (d : List UInt8) : GetconfigCnf where
  macaddr := .ofFn fun i => d.getD (4 + i) 0
  bconnect := d.getD 10 0
  wifiMode := d.getD 17 0
  conEvent :=
    { bssid := .ofFn fun i => d.getD (65 + i) 0
      cryptoPairwise := d.getD 71 0
      cryptoGroup := d.getD 72 0
      bgnMode := d.getD 74 0
      connectFlag := d.getD 75 0 }

/-- How a query ends: no memory for the request; an error of the command, or its timeout; or an
answer. -/
inductive Reply
  | nomem
  | failed (ret : ℤ) (h : ret ≠ 0)
  | confirm (bytes : List UInt8)

/-- The answer is there, and is long enough. -/
def Reply.Full (size : ℕ) : Reply → Prop
  | .confirm bytes => size ≤ bytes.length
  | _ => False

/-- `wsm_generic_get_confirm`. -/
def wsmGenericGetConfirm {α : Type} (decode : List UInt8 → α) (size : ℕ) (bytes : List UInt8)
    (left : α) : ℤ × α :=
  if bytes.length < size then (-22, left) else (0, decode bytes)

/-- A query of `size` bytes into a buffer; `left` is what is in it without an answer. -/
def wsmGet {α : Type} (decode : List UInt8 → α) (size : ℕ) (left : α) : Reply → ℤ × α
  | .nomem => (-12, left)
  | .failed ret _ => (ret, left)
  | .confirm bytes => wsmGenericGetConfirm decode size bytes left

/-- `sizeof(struct wsm_sdio_getconfig_cnf)`, for that of `struct bss_info`. -/
def cnfSize (bssInfo : ℕ) : ℕ := 96 + bssInfo

/-- `wsm_get_config`. -/
def wsmGetConfig (bssInfo : ℕ) (left : GetconfigCnf) (reply : Reply) : ℤ × GetconfigCnf :=
  wsmGet GetconfigCnf.ofBytes (cnfSize bssInfo) left reply

/-- `wsm_get_ap_cfg`, with `key_mgmt` of what it gets. -/
def wsmGetApCfg (left : UInt8) (reply : Reply) : ℤ × UInt8 :=
  wsmGet (fun d => d.getD 108 0) 112 left reply

variable {α : Type} {decode : List UInt8 → α} {size : ℕ} {left : α} {reply : Reply}

theorem wsmGet_eq_zero_iff : (wsmGet decode size left reply).1 = 0 ↔ reply.Full size := by
  rcases reply with _ | ⟨ret, hret⟩ | bytes
  · exact iff_of_false (by decide : ¬ ((-12 : ℤ) = 0)) id
  · exact iff_of_false hret id
  · show (if bytes.length < size then ((-22 : ℤ), left) else (0, decode bytes)).1 = 0 ↔
      size ≤ bytes.length
    by_cases hlen : bytes.length < size
    · rw [if_pos hlen]
      exact iff_of_false (by decide : ¬ ((-22 : ℤ) = 0)) (by omega)
    · rw [if_neg hlen]
      exact iff_of_true rfl (by omega)

/-- **A query that fails** leaves the buffer. -/
theorem wsmGet_of_not_full (h : ¬ reply.Full size) : (wsmGet decode size left reply).2 = left := by
  rcases reply with _ | ⟨ret, hret⟩ | bytes
  · rfl
  · rfl
  · have hlen : bytes.length < size := Nat.lt_of_not_le h
    exact congrArg Prod.snd (if_pos hlen)

/-- **One that succeeds** fills it. -/
theorem wsmGet_of_full (h : reply.Full size) (left' : α) :
    wsmGet decode size left reply = wsmGet decode size left' reply := by
  rcases reply with _ | ⟨ret, hret⟩ | bytes
  · exact h.elim
  · exact h.elim
  · have hlen : ¬ bytes.length < size := Nat.not_lt.mpr h
    exact (if_neg hlen).trans (if_neg hlen).symm

/-! ### The host -/

/-- `mac_addr`, whether there is an interface 0, and the stations and interfaces. -/
structure Hw where
  macAddr : Addr
  hasVif : Bool
  sta : Connect.State

def Hw.setVif (hw : Hw) (vif : Vif) : Hw :=
  { hw with sta := { hw.sta with vif := Function.update hw.sta.vif 0 vif } }

@[simp] theorem Hw.setVif_vif (hw : Hw) (vif : Vif) : (hw.setVif vif).sta.vif 0 = vif := by
  unfold Hw.setVif
  simp only [Function.update_self]

/-- `atbm_get_mac_address`. -/
def atbmGetMacAddress (bssInfo : ℕ) (reply : Reply) (hw : Hw) (left : GetconfigCnf) : Option Hw :=
  some { hw with macAddr := (wsmGetConfig bssInfo left reply).2.macaddr }

/-- `atbm_configure_wifi_mode`, with the stack of both queries. -/
def atbmConfigureWifiMode (bssInfo : ℕ) (reply apReply : Reply) (hw : Hw)
    (left : GetconfigCnf × UInt8) : Option Hw :=
  let cnf := (wsmGetConfig bssInfo left.1 reply).2
  if hw.hasVif then
    let vif := hw.sta.vif 0
    if cnf.wifiMode ≠ 0 then
      let vif := { vif with replay := { vif.replay with type := .ap } }
      let apcfg := wsmGetApCfg left.2 apReply
      some (hw.setVif (if apcfg.1 = 0 then apKeys vif (keyMgmt apcfg.2) else vif))
    else some (hw.setVif { vif with replay := { vif.replay with type := .station } })
  else some hw

/-- `atbm_get_connectconfig`, for the place that a station gets; it needs the interface. -/
def atbmGetConnectconfig (bssInfo : ℕ) (reply : Reply) (place : Option ℕ) (hw : Hw)
    (left : GetconfigCnf) : Option Hw :=
  let cnf := (wsmGetConfig bssInfo left reply).2
  if hw.hasVif then
    let hw := hw.setVif { hw.sta.vif 0 with connectSuccess := cnf.bconnect }
    if cnf.bconnect ≠ 0 then
      (atbmStaConnectEvent 0 cnf.conEvent place hw.sta).map fun sta => { hw with sta := sta }
    else some hw
  else none

/-- `atbm_wsm_get_status`: the result, and what is copied to the user. -/
def atbmWsmGetStatus (bssInfo : ℕ) (reply : Reply) (copyOut : Bool) (left : GetconfigCnf) :
    ℤ × Option GetconfigCnf :=
  let cnf := wsmGetConfig bssInfo left reply
  if cnf.1 = 0 then if copyOut then (0, some cnf.2) else (-1, none) else (cnf.1, none)

/-- The status is that of the answer, and there is none without it. -/
theorem getStatus_proper (bssInfo : ℕ) (reply : Reply) (copyOut : Bool) :
    (reply.Full (cnfSize bssInfo) → ∀ left left',
      atbmWsmGetStatus bssInfo reply copyOut left = atbmWsmGetStatus bssInfo reply copyOut left') ∧
    (¬ reply.Full (cnfSize bssInfo) →
      ∀ left, (atbmWsmGetStatus bssInfo reply copyOut left).2 = none) := by
  unfold atbmWsmGetStatus wsmGetConfig
  refine ⟨fun hfull left left' => ?_, fun hfull left => ?_⟩
  · rw [wsmGet_of_full hfull left']
  · rw [if_neg (mt wsmGet_eq_zero_iff.mp hfull)]

/-! ### What is to hold -/

/-- **What is taken over**, from a query of which one knows whether it has succeeded and for what is
left on the stack: it does not depend on that, and the host stays as it is when the query has
failed. -/
structure Proper {γ : Type} (success : Prop) (hw : Hw) (run : γ → Option Hw) : Prop where
  independent : ∀ left left', run left = run left'
  kept : ¬ success → ∀ left, run left = some hw

variable {bssInfo : ℕ} {apReply : Reply} {place : Option ℕ} {hw : Hw} {cnf : GetconfigCnf}

/-- A buffer of zeros. -/
def zeroCnf : GetconfigCnf := ⟨.replicate 6 0, 0, 0, ⟨.replicate 6 0, 0, 0, 0, 0⟩⟩

theorem getMacAddress_proper_iff :
    Proper (reply.Full (cnfSize bssInfo)) hw (atbmGetMacAddress bssInfo reply hw) ↔
      reply.Full (cnfSize bssInfo) := by
  unfold atbmGetMacAddress wsmGetConfig
  refine ⟨fun h => ?_, fun hfull => ⟨fun left left' => ?_, fun hno => absurd hfull hno⟩⟩
  · by_contra hfull
    have hmac := h.independent zeroCnf { zeroCnf with macaddr := .replicate 6 1 }
    rw [wsmGet_of_not_full hfull, wsmGet_of_not_full hfull] at hmac
    have hbytes : zeroCnf.macaddr = .replicate 6 1 :=
      congrArg Hw.macAddr (Option.some.inj hmac)
    exact absurd hbytes (by decide)
  · rw [wsmGet_of_full hfull left']

/-- The type that the mode gives. -/
def modeType (wifiMode : UInt8) : Rx.Replay.Nl80211Iftype := if wifiMode ≠ 0 then .ap else .station

theorem configure_type (hvif : hw.hasVif = true) (left : GetconfigCnf × UInt8) :
    (atbmConfigureWifiMode bssInfo reply apReply hw left).map
        (fun hw => (hw.sta.vif 0).replay.type) =
      some (modeType (wsmGetConfig bssInfo left.1 reply).2.wifiMode) := by
  unfold atbmConfigureWifiMode modeType
  dsimp only
  rw [if_pos hvif]
  by_cases hmode : (wsmGetConfig bssInfo left.1 reply).2.wifiMode = 0
  · rw [if_neg (not_not.mpr hmode), if_neg (not_not.mpr hmode), Option.map_some, Hw.setVif_vif]
  · rw [if_pos hmode, if_pos hmode, Option.map_some, Hw.setVif_vif]
    split_ifs <;> rfl

theorem configure_proper_iff :
    Proper (reply.Full (cnfSize bssInfo)) hw (atbmConfigureWifiMode bssInfo reply apReply hw) ↔
      reply.Full (cnfSize bssInfo) ∨ hw.hasVif = false := by
  constructor
  · intro h
    by_cases hvif : hw.hasVif = false
    · exact .inr hvif
    refine .inl ?_
    by_contra hfull
    have htype := congrArg (fun o => o.map fun hw : Hw => (hw.sta.vif 0).replay.type)
      (h.independent (zeroCnf, 0) ({ zeroCnf with wifiMode := 1 }, 0))
    dsimp only at htype
    rw [configure_type (Bool.of_not_eq_false hvif),
      configure_type (Bool.of_not_eq_false hvif)] at htype
    unfold wsmGetConfig at htype
    rw [wsmGet_of_not_full hfull, wsmGet_of_not_full hfull] at htype
    exact absurd htype (by decide)
  · by_cases hvif : hw.hasVif = false
    · intro _
      have hsame : ∀ left, atbmConfigureWifiMode bssInfo reply apReply hw left = some hw :=
        fun left => if_neg (ne_true_of_eq_false hvif)
      exact ⟨fun left left' => (hsame left).trans (hsame left').symm, fun _ => hsame⟩
    intro hfull
    have hfull := hfull.resolve_right hvif
    refine ⟨fun left left' => ?_, fun hno => absurd hfull hno⟩
    have hcnf : wsmGetConfig bssInfo left.1 reply = wsmGetConfig bssInfo left'.1 reply :=
      wsmGet_of_full hfull _
    -- the answer to the second query is used when that has succeeded
    have hap : ∀ vif, (if (wsmGetApCfg left.2 apReply).1 = 0 then
        apKeys vif (keyMgmt (wsmGetApCfg left.2 apReply).2) else vif) =
        if (wsmGetApCfg left'.2 apReply).1 = 0 then
          apKeys vif (keyMgmt (wsmGetApCfg left'.2 apReply).2) else vif := by
      intro vif
      unfold wsmGetApCfg
      by_cases hap : apReply.Full 112
      · rw [wsmGet_of_full hap left'.2]
      · rw [if_neg (mt wsmGet_eq_zero_iff.mp hap), if_neg (mt wsmGet_eq_zero_iff.mp hap)]
    unfold atbmConfigureWifiMode
    dsimp only
    rw [hcnf, hap]

theorem connectEvent_connectSuccess {e : HostConnectEvent} {s t : Connect.State}
    (h : atbmStaConnectEvent 0 e place s = some t) (hs : (s.vif 0).connectSuccess = 1) :
    (t.vif 0).connectSuccess = 1 := by
  rcases place with _ | p
  · obtain rfl := Option.some.inj h
    exact hs
  · obtain ⟨x, -, rfl⟩ := Option.map_eq_some_iff.mp h
    dsimp only
    split_ifs
    · exact hs
    · dsimp only
      rw [Function.update_self]
      rfl

theorem connectconfig_proper_iff :
    Proper (reply.Full (cnfSize bssInfo)) hw (atbmGetConnectconfig bssInfo reply place hw) ↔
      reply.Full (cnfSize bssInfo) := by
  unfold atbmGetConnectconfig wsmGetConfig
  refine ⟨fun h => ?_, fun hfull => ⟨fun left left' => ?_, fun hno => absurd hfull hno⟩⟩
  · by_contra hfull
    have hkept := h.kept hfull
    by_cases hvif : hw.hasVif = true
    · have hzero := hkept zeroCnf
      have hone := hkept { zeroCnf with bconnect := 1 }
      rw [if_pos hvif, wsmGet_of_not_full hfull] at hzero hone
      -- the first leaves 0, the second 1
      have hw0 : (hw.sta.vif 0).connectSuccess = 0 := by
        rw [← Option.some.inj hzero]
        exact congrArg Vif.connectSuccess (hw.setVif_vif _)
      obtain ⟨t, ht, heq⟩ := Option.map_eq_some_iff.mp hone
      have hw1 : (t.vif 0).connectSuccess = 1 :=
        connectEvent_connectSuccess ht (congrArg Vif.connectSuccess (hw.setVif_vif _))
      rw [← heq] at hw0
      exact absurd (hw1.symm.trans hw0) (by decide)
    · have hnone := hkept zeroCnf
      rw [if_neg hvif] at hnone
      cases hnone
  · rw [wsmGet_of_full hfull left']

/-- **When the address, the mode and the connection are taken over properly**: when the query
succeeds; the mode also when there is no interface. -/
theorem config_proper_iff (bssInfo : ℕ) (reply apReply : Reply) (place : Option ℕ) (hw : Hw) :
    (Proper (reply.Full (cnfSize bssInfo)) hw (atbmGetMacAddress bssInfo reply hw) ↔
      reply.Full (cnfSize bssInfo)) ∧
    (Proper (reply.Full (cnfSize bssInfo)) hw (atbmConfigureWifiMode bssInfo reply apReply hw) ↔
      reply.Full (cnfSize bssInfo) ∨ hw.hasVif = false) ∧
    (Proper (reply.Full (cnfSize bssInfo)) hw (atbmGetConnectconfig bssInfo reply place hw) ↔
      reply.Full (cnfSize bssInfo)) :=
  ⟨getMacAddress_proper_iff, configure_proper_iff, connectconfig_proper_iff⟩

/-- A station that is not connected. -/
def hwIdle : Hw := ⟨.replicate 6 0, true, idle⟩

/-- What happens to be on the stack. -/
def stackCnf : GetconfigCnf := ⟨.replicate 6 7, 3, 1, ⟨.replicate 6 7, 0, 0, 0, 0⟩⟩

/-- The command times out. -/
def timedOut : Reply := .failed (-110) (by decide)

/-- **The query times out**, and the host has an address, is an AP, and is connected. -/
theorem config_improper :
    (atbmGetMacAddress 0 timedOut hwIdle stackCnf).map Hw.macAddr =
      some (.replicate 6 7) ∧
    (atbmConfigureWifiMode 0 timedOut .nomem hwIdle (stackCnf, 0)).map
      (fun hw => (hw.sta.vif 0).replay.type) = some .ap ∧
    (atbmGetConnectconfig 0 timedOut none hwIdle stackCnf).map
      (fun hw => (hw.sta.vif 0).connectSuccess) = some 3 ∧
    ¬ Proper (timedOut.Full (cnfSize 0)) hwIdle (atbmGetMacAddress 0 timedOut hwIdle) := by
  refine ⟨rfl, rfl, rfl, fun h => ?_⟩
  have hmac : stackCnf.macaddr = hwIdle.macAddr :=
    congrArg Hw.macAddr (Option.some.inj (h.kept id stackCnf))
  exact absurd hmac (by decide)

end Atbm6441.Sta.GetConfig
