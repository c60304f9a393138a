import Atbm6441.Lib.Progress
import Atbm6441.Wsm.Rx.Model

/-!
# The event queue

`wsm_event_indication` in the RX thread and `atbm_event_handler`, a work of the Linux work queue
`hw_priv->workqueue`: `queue_work` of a work that is pending changes nothing, a work is no more
pending when its function starts, and its function does not run twice at the same time. An interface
comes or changes its type, but does not go while events come.
-/

namespace Atbm6441.Wsm.Event

open Atbm6441.Lib Atbm6441.Wsm.Rx

/-- `ATBM_WIFI_MAX_VIFS`. -/
def atbmWifiMaxVifs : ℕ := 1

/-- `struct atbm_wsm_event`. -/
structure AtbmWsmEvent where
  ifId : ℕ
  eventId : ℕ
  buffer : List UInt8
deriving DecidableEq

/-- `ABwifi_hwpriv_to_vifpriv` and `__ABwifi_hwpriv_to_vifpriv`, with `vif_list[0]`: the interface,
and whether its type is specified. -/
def hwprivToVifpriv (vif : Option Bool) (ifId : ℕ) : Option Bool :=
  if atbmWifiMaxVifs ≤ ifId then none else vif

/-! ### The RX thread -/

/-- What `wsm_event_indication` finds, up to the queue. -/
inductive Indication
  | ignored
  | credits (hwXmits : ℕ)
  | noMemory
  | event (e : AtbmWsmEvent)

def wsmEventIndication (vif : Option Bool) (alloc : Bool) (interfaceLinkId : ℕ) :
    Get Indication := do
  let eventid ← Get.num 4
  if eventid ∉ hostEvents ∧ hwprivToVifpriv vif interfaceLinkId ≠ some true then return .ignored
  else if eventid = sdioInputchanEvnet then
    let hwXmits ← Get.num 4
    return .credits hwXmits
  else if alloc then
    let buffer ← Get.bytes maxSdioEventBufferLen
    return .event ⟨interfaceLinkId % 256, eventid, buffer⟩
  else return .noMemory

/-- An indication: the memory from its header on, the length there, its id, and whether there is
memory for an event. -/
structure Message where
  mem : ℕ → UInt8
  len : ℕ
  id : ℕ
  alloc : Bool

/-- `interface_link_id` in `wsm_handle_rx`. -/
def Message.interfaceLinkId (m : Message) : ℕ := (m.id >>> 6) &&& 0xf

/-- `wsm_event_indication` of a message, none after an underflow. -/
def Message.indication (m : Message) (vif : Option Bool) : Option Indication :=
  ((wsmEventIndication vif m.alloc m.interfaceLinkId).run m.mem m.len 4).val

/-- Where the RX thread is. -/
inductive RxPc
  | idle
  /-- before it takes `event_queue_lock` -/
  | push (e : AtbmWsmEvent)
  /-- before `queue_work`, as `first` is set -/
  | queueWork

/-- Where `atbm_event_handler` is. -/
inductive HandlerPc
  | idle
  /-- before it takes `event_queue_lock` -/
  | splice
  /-- in the loop over what is left of `list` -/
  | dispatch (list : List AtbmWsmEvent)

/-- `atbm_bh_is_term`. -/
def atbmBhIsTerm : Bool := false

/-! ### Both together -/

/-- `vif_list[0]`, the counter, the queue and the work; `queued` and `dispatched` record what was
put into the queue and what has come to the `switch` of the handler. -/
structure State where
  vif : Option Bool
  hwXmits : ℕ
  eventQueue : List AtbmWsmEvent
  pending : Bool
  rx : RxPc
  handler : HandlerPc
  queued : List AtbmWsmEvent
  dispatched : List AtbmWsmEvent

inductive Act
  /-- an indication comes -/
  | indicate (m : Message)
  | push
  | queueWork
  /-- the interface comes, or its type changes -/
  | interface (specified : Bool)
  /-- the work queue calls `atbm_event_handler` -/
  | start
  | splice
  | dispatch
  | finish

namespace State

/-- The handler finds the interface of an event, or does not need it. -/
def Known (s : State) (e : AtbmWsmEvent) : Prop :=
  e.eventId ∈ hostEvents ∨ hwprivToVifpriv s.vif e.ifId ≠ none

instance (s : State) (e : AtbmWsmEvent) : Decidable (s.Known e) :=
  inferInstanceAs (Decidable (_ ∨ _))

/-- The handler is at an event, or continues with the next one. -/
def dispatch (s : State) (e : AtbmWsmEvent) (list : List AtbmWsmEvent) : State :=
  if s.Known e then { s with handler := .dispatch list, dispatched := s.dispatched ++ [e] }
  else { s with handler := .dispatch list }

def step (s : State) : Act → Option State
  | .indicate m =>
    match s.rx with
    | .idle =>
      match m.indication s.vif with
      | some (.event e) => some { s with rx := .push e }
      | some (.credits hwXmits) => some { s with hwXmits := hwXmits }
      | some .ignored | some .noMemory | none => some s
    | _ => none
  | .push =>
    match s.rx with
    | .push e => some { s with
        eventQueue := s.eventQueue ++ [e]
        rx := if s.eventQueue.isEmpty then .queueWork else .idle
        queued := s.queued ++ [e] }
    | _ => none
  | .queueWork =>
    match s.rx with
    | .queueWork => some { s with rx := .idle, pending := true }
    | _ => none
  | .interface specified => some { s with vif := some specified }
  | .start =>
    match s.handler, s.pending with
    | .idle, true => some { s with handler := .splice, pending := false }
    | _, _ => none
  | .splice =>
    match s.handler with
    | .splice => some { s with
        eventQueue := []
        handler := if atbmBhIsTerm then .idle else .dispatch s.eventQueue }
    | _ => none
  | .dispatch =>
    match s.handler with
    | .dispatch (e :: list) => some (s.dispatch e list)
    | _ => none
  | .finish =>
    match s.handler with
    | .dispatch [] => some { s with handler := .idle }
    | _ => none

end State

/-- `atbm_init_common` has made the queue and the work. -/
def system : System State Act where
  init s := s.eventQueue = [] ∧ s.pending = false ∧ s.rx = .idle ∧ s.handler = .idle ∧
    s.queued = [] ∧ s.dispatched = []
  step := State.step

/-- The steps of the handler's work. -/
def Act.isHandler : Act → Bool
  | .start | .splice | .dispatch | .finish => true
  | _ => false

end Atbm6441.Wsm.Event
