import Atbm6441.Lib.Diff
import Atbm6441.Sta.Table

/-!
# Joins and losses in AP mode

`iface.c`: the firmware reports each station that joins or leaves with an event that names no station.
The host asks for the list of stations when it handles the event, and compares it with the list of the
time before, `sta_list_old`. A read behind the array `info` is `none`, and so is what follows it.
-/

namespace Atbm6441.Sta

open Atbm6441.Lib

/-- `MAX_NUM_LINK_AP`. -/
def maxNumLinkAp : ℕ := 4

/-- `struct wsm_sta_list_req`, of which the host uses the count and the addresses. -/
structure StaListReq where
  staCnt : UInt8
  info : Vector Addr maxNumLinkAp

/-- The inner loop of `atbm_get_checked_sta`, from an index on: where it finds an address, or the end. -/
def findMac (l : StaListReq) (mac : Addr) : ℕ → ℕ → Option ℕ
  | 0, j => some j
  | n + 1, j => l.info[j]?.bind fun m => if m = mac then some j else findMac l mac n (j + 1)

/-- The outer loop: the first address of one list that it does not find in the other. -/
def firstNotIn (a b : StaListReq) : ℕ → ℕ → Option (Option Addr)
  | 0, _ => some none
  | n + 1, i => a.info[i]?.bind fun mac => (findMac b mac b.staCnt.toNat 0).bind fun j =>
      if b.staCnt = 0 ∨ j = b.staCnt.toNat then some (some mac) else firstNotIn a b n (i + 1)

/-- The comparison in `atbm_get_checked_sta`, of the fetched list with the old one if `b_add` is set,
else of the old one with the fetched one. -/
def atbmGetCheckedSta (old list : StaListReq) (bAdd : Bool) : Option (Option Addr) :=
  if bAdd then firstNotIn list old list.staCnt.toNat 0 else firstNotIn old list old.staCnt.toNat 0

inductive Event
  /-- `WSM_EVENT_STA_ADD` -/
  | staAdd
  /-- `WSM_EVENT_STA_LOSS` -/
  | staLoss
deriving DecidableEq

/-- The firmware's list, the events on their way or in the queue, and the host's state: `sta_list_old`,
the table, and `connect_success` of the interface (which the carrier follows). -/
structure State where
  fw : List Addr
  eventQueue : List Event
  staListOld : StaListReq
  table : Table
  connectSuccess : Bool

/-- `atbm_sta_add_event`, for the reply to `wsm_get_stalist` (or an error) and the place that
`sta_info_alloc` gets (or no memory). -/
def atbmStaAddEvent (vif : ℕ) (reply : Option StaListReq) (place : Option ℕ) (s : State) : Option State :=
  match reply with
  | none => some s
  | some list =>
    (atbmGetCheckedSta s.staListOld list true).bind fun found =>
      let s := { s with staListOld := list }
      match found, place with
      | some mac, some p =>
        ((s.table.staInfoAlloc p vif mac).staInfoInsert p).map fun x =>
          if x.2 ≠ 0 then { s with table := x.1 }
          else { s with
            table := x.1, connectSuccess := if list.staCnt = 1 then true else s.connectSuccess }
      | _, _ => some s

/-- `atbm_sta_loss_event`. -/
def atbmStaLossEvent (vif : ℕ) (reply : Option StaListReq) (s : State) : Option State :=
  match reply with
  | none => some s
  | some list =>
    (atbmGetCheckedSta s.staListOld list false).bind fun found =>
      let s := { s with staListOld := list }
      match found with
      | none => some s
      | some mac => (s.table.staInfoGet vif mac).bind fun sta =>
        match sta with
        | none => some s
        | some p => (s.table.staInfoDestroy (some p)).map fun x =>
          { s with
            table := x.1, connectSuccess := if list.staCnt = 0 then false else s.connectSuccess }

/-! ### Runs -/

inductive Step
  /-- a station joins at the firmware -/
  | join (addr : Addr)
  /-- it leaves -/
  | leave (addr : Addr)
  /-- `atbm_event_handler` handles the next event -/
  | handle (reply : Option StaListReq) (place : Option ℕ)

/-- The host handles the first event that it has not handled. -/
def State.handle (vif : ℕ) (s : State) (reply : Option StaListReq) (place : Option ℕ) : Option State :=
  match s.eventQueue with
  | [] => none
  | .staAdd :: q => atbmStaAddEvent vif reply place { s with eventQueue := q }
  | .staLoss :: q => atbmStaLossEvent vif reply { s with eventQueue := q }

/-- The place for a new station is none that the table has. -/
def State.step (vif : ℕ) (s : State) : Step → Option State
  | .join addr =>
    if addr ∈ s.fw then none
    else some { s with fw := s.fw ++ [addr], eventQueue := s.eventQueue ++ [.staAdd] }
  | .leave addr =>
    if addr ∈ s.fw then
      some { s with fw := s.fw.erase addr, eventQueue := s.eventQueue ++ [.staLoss] }
    else none
  | .handle reply place =>
    if ∀ p ∈ place, p ∉ s.table.staList then s.handle vif reply place else none

/-- A station of the interface is in the table. -/
def Table.Has (t : Table) (vif : ℕ) (addr : Addr) : Prop := ∃ p ∈ t.staList, t.key p = (vif, addr)

/-- The table of before, without stations of the interface, and the empty `sta_list_old`. -/
def State.start (t : Table) : State :=
  ⟨[], [], ⟨0, .replicate _ (.replicate _ 0)⟩, t, false⟩

def staSystem (vif : ℕ) : System State Step where
  init s := ∃ t, Reach system (fun _ _ => True) t ∧ (∀ addr, ¬ t.Has vif addr) ∧ s = .start t
  step := State.step vif

end Atbm6441.Sta
