import Atbm6441.Sta.Connect

/-!
# The mode and the AP configuration

`atbm_ioctl.c`: what a request sets on the host and what it asks of the firmware, for any outcome of
the copy from the user and of the command. `atbm_wsm_tcp_filter` asks the firmware and stores the
filter when that has succeeded; `atbm_wsm_set_wifi_mode` and `atbm_wsm_set_ap_cfg` set the interface
first, and leave it so when the command fails.

* `tcpFilter_kept` : a filter request that fails leaves the filter;
* `mode_kept_iff` : when a request for the mode or the AP configuration that fails leaves the type
  and the keys: if it is refused before, or the interface is already as it asks;
* `mode_lost` : a station becomes an AP by a command that times out.
-/

namespace Atbm6441.Ioctl.Mode

open Atbm6441.Rx.Replay (Nl80211Iftype)
open Atbm6441.Sta.Connect (Vif)
open Atbm6441.Tx.Xmit (Key KeyMgmt apKeyConfig)

/-! ### The host -/

/-- The value of `KEY_MGMT_` for each key management. -/
def keyMgmt (v : UInt8) : KeyMgmt :=
  if v = 0 then .none
  else if v = 1 then .wep
  else if v = 2 then .wepShared
  else if v = 3 then .wpa
  else if v = 4 then .wpa2
  else .other

/-- `struct wsm_join`: `ssidLength`, `keyMgmt`, and the other fields, which are for the firmware. -/
structure WsmJoin where
  ssidLength : UInt8
  keyMgmt : UInt8
  others : List UInt8

/-- `struct wsm_tcp_filter_req`. -/
abbrev TcpFilter := List UInt8

/-- The interface 0, and `tcp_filter_req`. -/
structure Host where
  vif : Option Vif
  tcpFilterReq : TcpFilter

/-- What the data of a request are: none, unreadable, or copied. -/
inductive UserData (α : Type)
  | null
  | fault
  | copied (req : α)

/-! ### The requests -/

/-- `atbm_wsm_tcp_filter`, for the outcomes of `wsm_set_tcp_filter`, `wsm_get_tcp_filter` and
`copy_to_user`. -/
def atbmWsmTcpFilter (wsmSet : TcpFilter → ℤ) (wsmGet : ℤ) (copyOut : Bool)
    (data : UserData TcpFilter) (setFlag : Bool) (hw : Host) : ℤ × Host :=
  match setFlag, data with
  | _, .null => (-1, hw)
  | true, .fault => (-1, hw)
  | true, .copied req =>
    if wsmSet req ≠ 0 then (wsmSet req, hw) else (wsmSet req, { hw with tcpFilterReq := req })
  | false, .fault | false, .copied _ =>
    if wsmGet ≠ 0 then (-1, hw)
    else if copyOut then (0, hw)
    else (-1, hw)

/-- `atbm_wsm_set_wifi_mode`, for the outcome of `wsm_set_wifimode`. -/
def atbmWsmSetWifiMode (wsmSet : UInt8 → ℤ) (isAp : UInt8) (hw : Host) : ℤ × Host :=
  if isAp ≠ 0 ∧ isAp ≠ 1 then (-1, hw)
  else match hw.vif with
    | none => (-1, hw)
    | some vif =>
      (wsmSet isAp, { hw with
        vif := some { vif with
          replay := { vif.replay with type := if isAp ≠ 0 then .ap else .station } } })

/-- An AP with keys for a key management, as the ioctl and the start configure it. -/
def apKeys (vif : Vif) (mgmt : KeyMgmt) : Vif :=
  { vif with
    apGroupKey := apKeyConfig vif.apGroupKey mgmt
    apKey := apKeyConfig vif.apKey mgmt
    groupKey := apKeyConfig vif.apGroupKey mgmt }

/-- What is sent: `ssidLength` is at most the size of `ssid`. -/
def WsmJoin.clamp (join : WsmJoin) : WsmJoin :=
  if 32 < join.ssidLength then { join with ssidLength := 32 } else join

/-- `atbm_wsm_set_ap_cfg`, for the outcome of `wsm_set_ap_cfg`. -/
def atbmWsmSetApCfg (wsmSet : WsmJoin → ℤ) (data : UserData WsmJoin) (hw : Host) : ℤ × Host :=
  match hw.vif with
  | none => (-1, hw)
  | some vif =>
    match data with
    | .null | .fault => (-1, hw)
    | .copied join =>
      let vif := apKeys vif (keyMgmt join.keyMgmt)
      (wsmSet join.clamp, { hw with
        vif := some { vif with replay := { vif.replay with type := .ap } } })

/-! ### What a request is to keep -/

/-- **A request succeeds, or leaves** what one looks at. -/
def Kept {α : Type} (look : Host → α) (hw : Host) (out : ℤ × Host) : Prop :=
  out.1 = 0 ∨ look out.2 = look hw

/-- The type of the interface, the AP keys and the group key. -/
def Host.mode (hw : Host) : Option (Nl80211Iftype × Key × Key × Key) :=
  hw.vif.map fun vif => (vif.replay.type, vif.apKey, vif.apGroupKey, vif.groupKey)

/-- **A filter request** that fails leaves the filter. -/
theorem tcpFilter_kept (wsmSet : TcpFilter → ℤ) (wsmGet : ℤ) (copyOut : Bool)
    (data : UserData TcpFilter) (setFlag : Bool) (hw : Host) :
    Kept Host.tcpFilterReq hw (atbmWsmTcpFilter wsmSet wsmGet copyOut data setFlag hw) := by
  unfold atbmWsmTcpFilter
  rcases data with _ | _ | req
  · cases setFlag <;> exact .inr rfl
  · cases setFlag
    · dsimp only
      split_ifs <;> exact .inr rfl
    · exact .inr rfl
  · cases setFlag
    · dsimp only
      split_ifs <;> exact .inr rfl
    · by_cases hret : wsmSet req = 0
      · dsimp only
        rw [if_neg (not_not.mpr hret)]
        exact .inl hret
      · dsimp only
        rw [if_pos hret]
        exact .inr rfl

/-- The interface has the type already that a request asks for. -/
def HasType (vif : Vif) (isAp : UInt8) : Prop :=
  (isAp = 0 → vif.replay.type = .station) ∧ (isAp = 1 → vif.replay.type = .ap)

/-- The interface is an AP with the keys of a key management. -/
structure IsConfigured (vif : Vif) (mgmt : KeyMgmt) : Prop where
  type : vif.replay.type = .ap
  apKey : apKeyConfig vif.apKey mgmt = vif.apKey
  apGroupKey : apKeyConfig vif.apGroupKey mgmt = vif.apGroupKey
  groupKey : vif.groupKey = vif.apGroupKey

theorem wifiMode_kept_iff (wsmSet : UInt8 → ℤ) (isAp : UInt8) (hw : Host) :
    Kept Host.mode hw (atbmWsmSetWifiMode wsmSet isAp hw) ↔
      ∀ vif, hw.vif = some vif → wsmSet isAp = 0 ∨ HasType vif isAp := by
  unfold atbmWsmSetWifiMode
  by_cases hbad : isAp ≠ 0 ∧ isAp ≠ 1
  · rw [if_pos hbad]
    exact iff_of_true (.inr rfl) fun _ _ =>
      .inr ⟨fun h => absurd h hbad.1, fun h => absurd h hbad.2⟩
  rw [if_neg hbad]
  rcases hv : hw.vif with _ | vif
  · exact iff_of_true (.inr rfl) fun _ h => absurd h.symm (Option.some_ne_none _)
  have hmode : Kept Host.mode hw (wsmSet isAp, { hw with
      vif := some { vif with
        replay := { vif.replay with type := if isAp ≠ 0 then .ap else .station } } }) ↔
      wsmSet isAp = 0 ∨ (if isAp ≠ 0 then Nl80211Iftype.ap else .station) = vif.replay.type := by
    refine or_congr Iff.rfl ?_
    simp [Host.mode, hv]
  have htype : (if isAp ≠ 0 then Nl80211Iftype.ap else .station) = vif.replay.type ↔
      HasType vif isAp := by
    by_cases hz : isAp = 0
    · rw [if_neg (not_not.mpr hz)]
      exact ⟨fun h => ⟨fun _ => h.symm, fun h1 => absurd (hz.symm.trans h1) (by decide)⟩,
        fun h => (h.1 hz).symm⟩
    · have hone : isAp = 1 := by
        by_contra hne
        exact hbad ⟨hz, hne⟩
      rw [if_pos hz]
      exact ⟨fun h => ⟨fun h0 => absurd h0 hz, fun _ => h.symm⟩, fun h => (h.2 hone).symm⟩
  constructor
  · intro h vif hvif
    obtain rfl := Option.some.inj hvif
    exact (hmode.mp h).imp id htype.mp
  · exact fun h => hmode.mpr ((h vif rfl).imp id htype.mpr)

theorem apCfg_kept_iff (wsmSet : WsmJoin → ℤ) (data : UserData WsmJoin) (hw : Host) :
    Kept Host.mode hw (atbmWsmSetApCfg wsmSet data hw) ↔
      ∀ vif join, hw.vif = some vif → data = .copied join →
        wsmSet join.clamp = 0 ∨ IsConfigured vif (keyMgmt join.keyMgmt) := by
  unfold atbmWsmSetApCfg
  rcases hv : hw.vif with _ | vif
  · exact iff_of_true (.inr rfl) fun _ _ h => absurd h.symm (Option.some_ne_none _)
  cases data with
  | null => exact iff_of_true (.inr rfl) fun _ _ _ h => by cases h
  | fault => exact iff_of_true (.inr rfl) fun _ _ _ h => by cases h
  | copied join =>
    constructor
    · intro h vif join hvif hjoin
      obtain rfl := Option.some.inj hvif
      obtain rfl := UserData.copied.inj hjoin
      refine h.imp id fun hmode => ?_
      simp only [Host.mode, hv, apKeys, Option.map_some, Option.some.injEq, Prod.mk.injEq] at hmode
      obtain ⟨htype, hkey, hgroup, hkey'⟩ := hmode
      exact ⟨htype.symm, hkey, hgroup, hkey'.symm.trans hgroup⟩
    · intro h
      refine (h vif join rfl rfl).imp id fun hconf => ?_
      simp only [Host.mode, hv, apKeys, Option.map_some, Option.some.injEq, Prod.mk.injEq]
      exact ⟨hconf.type.symm, hconf.apKey, hconf.apGroupKey,
        hconf.apGroupKey.trans hconf.groupKey.symm⟩

/-- **When a request keeps the mode**: no interface is there, or the value or the data are refused,
or the command succeeds, or the interface is as the request asks already. -/
theorem mode_kept_iff (wsmMode : UInt8 → ℤ) (isAp : UInt8) (wsmCfg : WsmJoin → ℤ)
    (data : UserData WsmJoin) (hw : Host) :
    (Kept Host.mode hw (atbmWsmSetWifiMode wsmMode isAp hw) ↔
      ∀ vif, hw.vif = some vif → wsmMode isAp = 0 ∨ HasType vif isAp) ∧
    (Kept Host.mode hw (atbmWsmSetApCfg wsmCfg data hw) ↔
      ∀ vif join, hw.vif = some vif → data = .copied join →
        wsmCfg join.clamp = 0 ∨ IsConfigured vif (keyMgmt join.keyMgmt)) :=
  ⟨wifiMode_kept_iff wsmMode isAp hw, apCfg_kept_iff wsmCfg data hw⟩

/-- A station without keys. -/
def station : Host := ⟨some (Sta.Connect.idle.vif 0), []⟩

/-- **The command times out, and the mode is set**: a station becomes an AP, and one with the keys
for WPA2. -/
theorem mode_lost :
    ¬ Kept Host.mode station (atbmWsmSetWifiMode (fun _ => -110) 1 station) ∧
      ¬ Kept Host.mode station (atbmWsmSetApCfg (fun _ => -110) (.copied ⟨4, 4, []⟩) station) := by
  refine ⟨?_, ?_⟩
  · rintro (h | h)
    · exact absurd h (by decide)
    · have htype : Nl80211Iftype.ap = .station := congrArg Prod.fst (Option.some.inj h)
      cases htype
  · rintro (h | h)
    · exact absurd h (by decide)
    · have htype : Nl80211Iftype.ap = .station := congrArg Prod.fst (Option.some.inj h)
      cases htype

end Atbm6441.Ioctl.Mode
