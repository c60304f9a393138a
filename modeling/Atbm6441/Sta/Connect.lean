import Atbm6441.Sta.Event
import Atbm6441.Tx.Xmit.Model

/-!
# Connections in station mode

`iface.c`: the firmware reports a connection and its loss with events that name the BSS, and the
host keeps the BSS as a station of the table, with the flags and the key of the connection; the
packet number counters are in the interface.

`sta_info_insert_rcu` refuses a second station for an address, and `atbm_sta_connect_event` returns
then, silently: a connection whose predecessor is still in the table keeps its state.

* `connect_spec` : what a connect event does, with and without a station in the table;
* `refreshed_iff` : in every run in which no connect event finds a station left, or one that carries
  the same already, the station of the connection carries its flags and its key, and the counters
  are fresh; and no other event does that;
* `connect_stale` : an open network whose station is taken for an encrypted one.
-/

namespace Atbm6441.Sta.Connect

open Atbm6441.Lib
open Atbm6441.Rx.Replay (AtbmVif PnCounter Stream ccmpTkipReplaycnt)
open Atbm6441.Rx.Handlers (EncType)
open Atbm6441.Tx.Xmit (Key CipherSuite atbmStaKeyConfig)

/-- What the host reads of `struct HostConnectEvent`. -/
structure HostConnectEvent where
  bssid : Addr
  cryptoPairwise : UInt8
  cryptoGroup : UInt8
  bgnMode : UInt8
  connectFlag : UInt8
deriving DecidableEq

/-- The value of `ATBM_WLAN_CIPHER_SUITE_` for each suite. -/
def cipherSuite (keyType : UInt8) : CipherSuite :=
  if keyType = 1 then .wep40
  else if keyType = 5 then .wep104
  else if keyType = 2 then .tkip
  else if keyType = 4 then .ccmp
  else if keyType = 6 then .aesCmac
  else .other

/-- A key after `atbm_kzalloc`. -/
def zeroKey : Key := ⟨.unset, 0, 0, fun h => Bool.noConfusion h⟩

/-- What a connection sets in `struct sta_info`. -/
structure Conn where
  /-- `WLAN_STA_ASSOC` -/
  assoc : Bool
  /-- `WLAN_STA_AUTHORIZED` -/
  authorized : Bool
  enc : Bool
  wmm : Bool
  /-- `sta.ht_cap.ht_supported` -/
  htSupported : Bool
  bgnMode : UInt8
  key : Key

/-- The station after `atbm_kzalloc`. -/
def Conn.zero : Conn := ⟨false, false, false, false, false, 0, zeroKey⟩

/-- The interface: the type and the counters, `ap_info`, `group_key` and `connect_success`. -/
structure Vif where
  replay : AtbmVif
  apKey : Key
  apGroupKey : Key
  apEnc : Bool
  apBssid : Addr
  groupKey : Key
  connectSuccess : UInt8

/-- The station table, what the stations carry by their places, the interfaces; and the connect
event that has been handled last, with its interface. -/
structure State where
  table : Table
  conn : ℕ → Conn
  vif : ℕ → Vif
  handled : Option (ℕ × HostConnectEvent)

/-- `memset` of a packet number, and its flag. -/
def freshPn : PnCounter := ⟨List.replicate 6 0, 1⟩

/-- The part of `atbm_sta_connect_event` that sets a new station. -/
def Conn.connect (sta : Conn) (e : HostConnectEvent) : Conn :=
  let enc := decide (e.cryptoPairwise ≠ 0)
  { assoc := true
    authorized := true
    enc := enc
    wmm := decide (e.connectFlag &&& 1 ≠ 0)
    htSupported := decide (e.bgnMode &&& 4 ≠ 0)
    bgnMode := e.bgnMode
    key := if enc then atbmStaKeyConfig sta.key (cipherSuite e.cryptoPairwise) else sta.key }

/-- The part that sets the interface. -/
def Vif.connect (vif : Vif) (e : HostConnectEvent) : Vif :=
  let enc := decide (e.cryptoPairwise ≠ 0)
  { vif with
    replay := { vif.replay with counter := fun _ => freshPn }
    apEnc := enc
    apBssid := e.bssid
    groupKey := if enc then atbmStaKeyConfig vif.groupKey (cipherSuite e.cryptoGroup) else vif.groupKey
    connectSuccess := 1 }

/-- `atbm_sta_connect_event`, for the place that `sta_info_alloc` gets (or no memory). -/
def atbmStaConnectEvent (v : ℕ) (e : HostConnectEvent) (place : Option ℕ) (s : State) :
    Option State :=
  match place with
  | none => some s
  | some p =>
    ((s.table.staInfoAlloc p v e.bssid).staInfoInsert p).map fun x =>
      let s := { s with table := x.1, conn := Function.update s.conn p .zero }
      if x.2 ≠ 0 then s
      else { s with
        conn := Function.update s.conn p ((s.conn p).connect e)
        vif := Function.update s.vif v ((s.vif v).connect e) }

/-- `atbm_sta_disconnect_event`. -/
def atbmStaDisconnectEvent (v : ℕ) (bssid : Addr) (s : State) : Option State :=
  (s.table.staInfoGet v bssid).bind fun sta =>
    match sta with
    | none => some s
    | some p => (s.table.staInfoDestroy (some p)).map fun x =>
      { s with
        table := x.1
        conn := Function.update s.conn p { s.conn p with assoc := false, authorized := false }
        vif := Function.update s.vif v { s.vif v with connectSuccess := 0 } }

inductive HostEvent
  /-- `WSM_EVENT_BSS_CONNECT` -/
  | bssConnect (e : HostConnectEvent) (place : Option ℕ)
  /-- `WSM_EVENT_BSS_LOST` -/
  | bssLost (bssid : Addr)

/-- The two cases of `atbm_event_handler`; `configure` is what an interface of another type does
with a connect event. -/
def atbmEventHandler (configure : ℕ → State → State) (v : ℕ) (s : State) : HostEvent → Option State
  | .bssConnect e place =>
    if (s.vif v).replay.type = .station then atbmStaConnectEvent v e place s
    else some (configure v s)
  | .bssLost bssid =>
    if (s.vif v).replay.type = .station then atbmStaDisconnectEvent v bssid s else some s

/-! ### Runs -/

inductive Act
  /-- an event of an interface is handled -/
  | event (v : ℕ) (ev : HostEvent)
  /-- a protected frame passes the replay check of an interface -/
  | receive (v : ℕ) (d : List UInt8) (isCcmp : Bool)

/-- The connect event that has been handled, unless there was no memory for it. -/
def HostEvent.handled (v : ℕ) : HostEvent → Option (ℕ × HostConnectEvent)
  | .bssConnect e (some _) => some (v, e)
  | _ => none

/-- The place for a new station. -/
def HostEvent.place : HostEvent → Option ℕ
  | .bssConnect _ place => place
  | .bssLost _ => none

/-- The place for a new station is none that the table has. -/
def State.step (configure : ℕ → State → State) (s : State) : Act → Option State
  | .event v ev =>
    if ∃ p ∈ s.table.staList, ev.place = some p then none
    else (atbmEventHandler configure v s ev).map fun s => { s with handled := ev.handled v }
  | .receive v d isCcmp =>
    some { s with
      vif := Function.update s.vif v
        { s.vif v with replay := (ccmpTkipReplaycnt (s.vif v).replay d isCcmp).2 }
      handled := none }

/-- The interfaces are in station mode; whatever the table holds. -/
def connSystem (configure : ℕ → State → State) : System State Act where
  init s := Reach system (fun _ _ => True) s.table ∧
    (∀ v, (s.vif v).replay.type = .station) ∧ s.handled = none
  step := State.step configure

/-! ### What a connect event is to leave -/

/-- The key type of an event. -/
def HostConnectEvent.keyType (e : HostConnectEvent) : EncType :=
  if e.cryptoPairwise = 0 then .unset
  else match cipherSuite e.cryptoPairwise with
    | .wep40 | .wep104 => .wep
    | .tkip => .tkip
    | .ccmp => .aes
    | .aesCmac => .aesCmac
    | .other => .unset

/-- A station carries the encryption flag, the mode flags and the key type of an event. -/
structure Conn.Carries (sta : Conn) (e : HostConnectEvent) : Prop where
  enc : sta.enc = true ↔ e.cryptoPairwise ≠ 0
  bgnMode : sta.bgnMode = e.bgnMode
  wmm : sta.wmm = true ↔ e.connectFlag &&& 1 ≠ 0
  htSupported : sta.htSupported = true ↔ e.bgnMode &&& 4 ≠ 0
  keyType : sta.key.keyType = e.keyType

/-- **What is to hold after a connect event**: there is a station for the BSS, every such station
carries what the event says, and no packet number has been received. -/
structure State.Refreshed (s : State) (v : ℕ) (e : HostConnectEvent) : Prop where
  has : s.table.Has v e.bssid
  carries : ∀ p ∈ s.table.staList, s.table.key p = (v, e.bssid) → (s.conn p).Carries e
  fresh : ∀ i, (s.vif v).replay.counter i = freshPn

/-- **The condition** of a connect event: no station for the BSS is left in the table, or what is
left carries already what the event says, with fresh counters. -/
def State.Renews (s : State) (v : ℕ) (e : HostConnectEvent) : Prop :=
  ¬ s.table.Has v e.bssid ∨ s.Refreshed v e

/-- Every connect event for which there is memory meets the condition. -/
def Noticed (s : State) : Act → Prop
  | .event v (.bssConnect e (some _)) => s.Renews v e
  | _ => True

variable {configure : ℕ → State → State} {s s' : State} {v : ℕ} {e : HostConnectEvent} {p : ℕ}

/-! ### A connect event -/

theorem cipherSuite_cases (k : UInt8) : (atbmStaKeyConfig zeroKey (cipherSuite k)).keyType =
    match cipherSuite k with
    | .wep40 | .wep104 => EncType.wep
    | .tkip => .tkip
    | .ccmp => .aes
    | .aesCmac => .aesCmac
    | .other => .unset := by
  cases cipherSuite k <;> rfl

theorem carries_connect (e : HostConnectEvent) : (Conn.zero.connect e).Carries e := by
  refine ⟨decide_eq_true_iff, rfl, decide_eq_true_iff, decide_eq_true_iff, ?_⟩
  unfold Conn.connect HostConnectEvent.keyType
  by_cases hc : e.cryptoPairwise = 0
  · simp [hc, Conn.zero, zeroKey]
  · simp only [hc, ne_eq, not_false_eq_true, decide_true, if_true, if_false]
    exact cipherSuite_cases e.cryptoPairwise

theorem refreshed_congr (hlist : s'.table.staList = s.table.staList)
    (hkey : ∀ q ∈ s.table.staList, s'.table.key q = s.table.key q)
    (hconn : ∀ q ∈ s.table.staList, s'.conn q = s.conn q)
    (hvif : (s'.vif v).replay.counter = (s.vif v).replay.counter) :
    s'.Refreshed v e ↔ s.Refreshed v e := by
  constructor
  · rintro ⟨⟨q, hq, hk⟩, hc, hf⟩
    rw [hlist] at hq
    refine ⟨⟨q, hq, (hkey q hq).symm.trans hk⟩, fun r hr hrk => ?_, fun i => ?_⟩
    · rw [← hconn r hr]
      exact hc r (hlist ▸ hr) ((hkey r hr).trans hrk)
    · rw [← hvif]
      exact hf i
  · rintro ⟨⟨q, hq, hk⟩, hc, hf⟩
    refine ⟨⟨q, hlist ▸ hq, (hkey q hq).trans hk⟩, fun r hr hrk => ?_, fun i => ?_⟩
    · rw [hlist] at hr
      rw [hconn r hr]
      exact hc r hr ((hkey r hr).symm.trans hrk)
    · rw [hvif]
      exact hf i

theorem refreshed_handled (o : Option (ℕ × HostConnectEvent)) :
    State.Refreshed { s with handled := o } v e ↔ s.Refreshed v e :=
  refreshed_congr (s := s) rfl (fun _ _ => rfl) (fun _ _ => rfl) rfl

/-- The invariant of all runs. -/
structure State.Inv (s : State) : Prop where
  wf : s.table.Wf
  station : ∀ v, (s.vif v).replay.type = .station

theorem type_update {x : Vif} (h : ∀ w, (s.vif w).replay.type = .station)
    (hx : x.replay.type = (s.vif v).replay.type) (w : ℕ) :
    (Function.update s.vif v x w).replay.type = .station := by
  by_cases hw : w = v
  · rw [hw, Function.update_self, hx, h]
  · rw [Function.update_of_ne hw, h]

theorem connect_of_insert {t : Table} {ret : ℤ}
    (hins : (s.table.staInfoAlloc p v e.bssid).staInfoInsert p = some (t, ret)) :
    atbmStaConnectEvent v e (some p) s =
      some (if ret ≠ 0 then { s with table := t, conn := Function.update s.conn p .zero }
        else { s with
          table := t
          conn := Function.update (Function.update s.conn p .zero) p (Conn.zero.connect e)
          vif := Function.update s.vif v ((s.vif v).connect e) }) := by
  unfold atbmStaConnectEvent
  dsimp only
  rw [hins, Option.map_some, Function.update_self]

/-- **A connect event** with memory for a station ends: it refreshes the state if no station for the
BSS is in the table, and else leaves all as it is. -/
theorem connect_spec (h : s.Inv) (hp : p ∉ s.table.staList) :
    ∃ s', atbmStaConnectEvent v e (some p) s = some s' ∧ s'.Inv ∧
      (s'.Refreshed v e ↔ s.Renews v e) := by
  obtain ⟨t', ret, hins, ht', hkey, hret⟩ := Table.insert_spec h.wf hp v e.bssid
  have hcase := connect_of_insert hins
  rcases hret with ⟨rfl, hnew, hlist, hkeyp, -⟩ | ⟨rfl, ⟨q, hq, hqk⟩, hlist, -⟩
  · rw [if_neg (not_not.mpr rfl)] at hcase
    refine ⟨_, hcase, ⟨ht', type_update h.station rfl⟩, iff_of_true ⟨?_, ?_, ?_⟩ (.inl ?_)⟩
    · exact ⟨p, by rw [hlist]; exact List.mem_cons_self, hkeyp⟩
    · intro q hq hk
      -- the other stations have other keys
      have hqp : q = p := by
        rw [hlist] at hq
        rcases List.mem_cons.mp hq with hqp | hq
        · exact hqp
        · exact absurd ((hkey q hq).symm.trans hk) (hnew q hq)
      subst hqp
      simp only [Function.update_self]
      exact carries_connect e
    · intro i
      simp only [Function.update_self]
      rfl
    · rintro ⟨q, hq, hk⟩
      exact hnew q hq hk
  · rw [if_pos (by decide)] at hcase
    refine ⟨_, hcase, ⟨ht', h.station⟩, ?_⟩
    have hconn : ∀ r ∈ s.table.staList, Function.update s.conn p .zero r = s.conn r := by
      intro r hr
      have hrp : r ≠ p := fun hrp => hp (hrp ▸ hr)
      exact Function.update_of_ne hrp _ _
    have hsame : State.Refreshed { s with table := t', conn := Function.update s.conn p .zero } v e ↔
        s.Refreshed v e := refreshed_congr hlist hkey hconn rfl
    refine hsame.trans ⟨Or.inr, fun hr => hr.resolve_left ?_⟩
    exact not_not.mpr ⟨q, hq, hqk⟩

theorem disconnect_spec (h : s.Inv) (bssid : Addr) :
    ∃ s', atbmStaDisconnectEvent v bssid s = some s' ∧ s'.Inv := by
  obtain ⟨r, hget, hr⟩ := Table.get_spec h.wf v bssid
  unfold atbmStaDisconnectEvent
  rw [hget, Option.bind_some]
  rcases r with _ | p
  · exact ⟨s, rfl, h⟩
  · obtain ⟨t', hdel, ht', -⟩ := Table.destroy_spec h.wf ((hr p).mp rfl).1
    dsimp only
    rw [hdel, Option.map_some]
    exact ⟨_, rfl, ht', type_update h.station rfl⟩

/-! ### Every run -/

theorem type_receive (vif : AtbmVif) (d : List UInt8) (isCcmp : Bool) :
    (ccmpTkipReplaycnt vif d isCcmp).2.type = vif.type := by
  unfold ccmpTkipReplaycnt
  dsimp only
  split_ifs <;> rfl

/-- **Every step** keeps the invariant, and after a connect event that meets the condition the state
is refreshed. -/
theorem step_spec (h : s.Inv) {a : Act} (hs : s.step configure a = some s') :
    s'.Inv ∧ (Noticed s a → ∀ v e, s'.handled = some (v, e) → s'.Refreshed v e) := by
  rcases a with ⟨v, ev⟩ | ⟨v, d, isCcmp⟩
  · obtain ⟨hplace, hs⟩ := Option.ite_none_left_eq_some.mp hs
    obtain ⟨u, hu, rfl⟩ := Option.map_eq_some_iff.mp hs
    rcases ev with ⟨e, place⟩ | bssid
    · have hu' : atbmStaConnectEvent v e place s = some u := by
        rw [← hu]
        exact (if_pos (h.station v)).symm
      rcases place with _ | p
      · have hsu : s = u := Option.some.inj hu'
        refine ⟨hsu ▸ ⟨h.wf, h.station⟩, fun _ w e' hw => ?_⟩
        cases hw
      · obtain ⟨u', heq, hinv, hiff⟩ := connect_spec (v := v) (e := e) h
          (fun hp => hplace ⟨p, hp, rfl⟩)
        have huu : u = u' := Option.some.inj (hu'.symm.trans heq)
        subst huu
        refine ⟨⟨hinv.wf, hinv.station⟩, fun hn w e' hw => ?_⟩
        have hwe : (v, e) = (w, e') := Option.some.inj hw
        obtain ⟨rfl, rfl⟩ := Prod.mk.inj hwe
        exact (refreshed_handled _).mpr (hiff.mpr hn)
    · have hu' : atbmStaDisconnectEvent v bssid s = some u := by
        rw [← hu]
        exact (if_pos (h.station v)).symm
      obtain ⟨u', heq, hinv⟩ := disconnect_spec (v := v) h bssid
      have huu : u = u' := Option.some.inj (hu'.symm.trans heq)
      subst huu
      refine ⟨⟨hinv.wf, hinv.station⟩, fun _ w e' hw => ?_⟩
      cases hw
  · have hsu := Option.some.inj hs
    subst hsu
    refine ⟨⟨h.wf, type_update h.station (type_receive _ d isCcmp)⟩, fun _ w e' hw => ?_⟩
    cases hw

theorem inv_of_reach {P : State → Act → Prop} (h : Reach (connSystem configure) P s) : s.Inv := by
  refine h.inv ?_ fun s a s' hinv _ hs => ?_
  · rintro s ⟨ht, hty, -⟩
    exact ⟨Table.wf_of_reach ht, hty⟩
  · have hstep : s.step configure a = some s' := hs
    exact (step_spec hinv hstep).1

/-- **After a connect event the state is refreshed**, in every run in which every connect event
meets the condition; and in any run, a connect event that does not meet it leaves the state as it
was for another connection. -/
theorem refreshed_iff (configure : ℕ → State → State) :
    (∀ s, Reach (connSystem configure) Noticed s → ∀ v e, s.handled = some (v, e) →
      s.Refreshed v e) ∧
    ∀ s, Reach (connSystem configure) (fun _ _ => True) s → ∀ v e p, p ∉ s.table.staList →
      ∃ s', (connSystem configure).step s (.event v (.bssConnect e (some p))) = some s' ∧
        (s'.Refreshed v e ↔ s.Renews v e) := by
  refine ⟨fun s h => ?_, fun s h v e p hp => ?_⟩
  · have hand : s.Inv ∧ ∀ v e, s.handled = some (v, e) → s.Refreshed v e := by
      refine h.inv (I := fun s => s.Inv ∧ ∀ v e, s.handled = some (v, e) → s.Refreshed v e) ?_
        fun s a s' hinv hn hs => ?_
      · rintro s ⟨ht, hty, hnone⟩
        refine ⟨⟨Table.wf_of_reach ht, hty⟩, fun v e hve => ?_⟩
        rw [hnone] at hve
        cases hve
      · have hstep : s.step configure a = some s' := hs
        obtain ⟨hinv', href⟩ := step_spec hinv.1 hstep
        exact ⟨hinv', href hn⟩
    exact hand.2
  · have hinv := inv_of_reach h
    obtain ⟨u, hu, -, hiff⟩ := connect_spec (v := v) (e := e) hinv hp
    refine ⟨{ u with handled := some (v, e) }, ?_, ?_⟩
    · show (if ∃ q ∈ s.table.staList, some p = some q then none else _) = _
      rw [if_neg ?_]
      · show Option.map _ (if (s.vif v).replay.type = .station then _ else _) = _
        rw [if_pos (hinv.station v), hu]
        rfl
      · rintro ⟨q, hq, hpq⟩
        exact hp (Option.some.inj hpq ▸ hq)
    · exact (refreshed_handled _).trans hiff

/-! ### A BSS that is connected twice -/

def bss : Addr := .ofFn fun i => [2, 0, 0, 0, 0, 1].getD i 0

/-- The BSS with CCMP, and as an open network. -/
def ccmpEvent : HostConnectEvent := ⟨bss, 4, 4, 7, 1⟩

def openEvent : HostConnectEvent := ⟨bss, 0, 0, 3, 0⟩

/-- No station, and interfaces in station mode. -/
def idle : State where
  table := .empty fun _ => ⟨0, .replicate 6 0, none, false, false, false⟩
  conn := fun _ => .zero
  vif := fun _ =>
    ⟨⟨.station, fun _ => ⟨[], 0⟩⟩, zeroKey, zeroKey, false, .replicate 6 0, zeroKey, 0⟩
  handled := none

/-- No action on an interface of another type. -/
def noConfigure : ℕ → State → State := fun _ s => s

theorem init_idle : (connSystem noConfigure).init idle := ⟨.init ⟨_, rfl⟩, fun _ => rfl, rfl⟩

/-- Not a connect event. -/
def Act.other : Act → Bool
  | .event _ (.bssConnect _ _) => false
  | _ => true

/-- The connection is lost in between, and a frame has been received. -/
theorem refreshed_reconnect : ∃ s, Reach (connSystem noConfigure) Noticed s ∧
    s.handled = some (0, openEvent) ∧ s.Refreshed 0 openEvent := by
  let as : List Act := [.event 0 (.bssConnect ccmpEvent (some 1)),
    .receive 0 [0x08, 0x42] true, .event 0 (.bssLost bss),
    .event 0 (.bssConnect openEvent (some 2))]
  have hout : (execIf (connSystem noConfigure) (fun s a => s.table.staList = [] ∨ a.other = true)
      idle as).map (fun s => s.handled) = some (some (0, openEvent)) := by
    decide
  obtain ⟨s, hs, heq⟩ := Option.map_eq_some_iff.mp hout
  have hr := (Reach.of_execIf (.init init_idle) hs).mono (Q := Noticed) ?_
  · exact ⟨s, hr, heq, (refreshed_iff noConfigure).1 s hr 0 openEvent heq⟩
  · rintro s a (hnil | hother)
    · rcases a with ⟨v, ⟨e, _ | p⟩ | bssid⟩ | ⟨v, d, isCcmp⟩
      · trivial
      · refine .inl ?_
        rintro ⟨q, hq, -⟩
        rw [hnil] at hq
        cases hq
      · trivial
      · trivial
    · rcases a with ⟨v, ⟨e, place⟩ | bssid⟩ | ⟨v, d, isCcmp⟩
      · cases hother
      · trivial
      · trivial

/-- **A connection keeps the state of another**: the loss of the first is missing, and the open
network is taken for an encrypted one, with the counters of before. -/
theorem connect_stale : ∃ s, Reach (connSystem noConfigure) (fun _ _ => True) s ∧
    s.handled = some (0, openEvent) ∧ ¬ s.Refreshed 0 openEvent ∧
    s.table.staList = [1] ∧ (s.conn 1).enc = true ∧ (s.conn 1).key.keyType = .aes := by
  let as : List Act := [.event 0 (.bssConnect ccmpEvent (some 1)),
    .receive 0 [0x08, 0x42] true, .event 0 (.bssConnect openEvent (some 2))]
  have hout : (exec (connSystem noConfigure) idle as).map
      (fun s => (decide (s.handled = some (0, openEvent)), s.table.staList, s.table.key 1,
        (s.conn 1).enc, (s.conn 1).key.keyType)) = some (true, [1], (0, bss), true, .aes) := by
    decide
  obtain ⟨s, hs, heq⟩ := Option.map_eq_some_iff.mp hout
  simp only [Prod.mk.injEq] at heq
  obtain ⟨hhandled, hlist, hkey, henc, htype⟩ := heq
  refine ⟨s, Reach.of_exec (.init init_idle) hs, of_decide_eq_true hhandled, fun href => ?_, hlist,
    henc, htype⟩
  have hmem : 1 ∈ s.table.staList := by
    rw [hlist]
    exact List.mem_cons_self
  exact (href.carries 1 hmem hkey).enc.mp henc rfl

end Atbm6441.Sta.Connect
