import Atbm6441.Lib.Runs
import Mathlib.Logic.Function.Basic

/-!
# The life of RX aggregation sessions

A station, its RX aggregation sessions and all that touches them, with the timers, the work queue
and RCU of Linux: the RX thread (`ieee80211_rx_reorder_ampdu`), the callbacks of the session and the
reorder timers, the BA work, and the holder of `sta_mtx`, which handles ADDBA and DELBA frames or
destroys the station (`__sta_info_destroy`).

Sessions are numbered in the order of their allocation. A timer that is deleted with
`del_timer_sync` is neither armed nor does its callback run; a work that was cancelled with
`cancel_work_sync` is neither queued nor running; memory is freed by RCU when no reader holds it.
-/

namespace Atbm6441.Agg

open Atbm6441.Lib

/-- `STA_TID_NUM`. -/
def staTidNum : ℕ := 16

/-- How far a session has come: `live` while `tid_rx` points to it; then
`___ieee80211_stop_rx_ba_session` has cleared the pointer, deleted the session timer, deleted the
reorder timer, and called `call_rcu`. -/
inductive Phase
  | unborn
  | live
  | cleared
  | sessionDeleted
  | reorderDeleted
  | rcu
  | freed
deriving DecidableEq

/-- The session timer is not (or not yet) in use. -/
def Phase.sessionOff : Phase → Bool
  | .live | .cleared => false
  | .unborn | .sessionDeleted | .reorderDeleted | .rcu | .freed => true

/-- The reorder timer is not (or not yet) in use. -/
def Phase.reorderOff : Phase → Bool
  | .live | .cleared | .sessionDeleted => false
  | .unborn | .reorderDeleted | .rcu | .freed => true

/-- `___ieee80211_stop_rx_ba_session` is at work. -/
def Phase.stopping : Phase → Bool
  | .cleared | .sessionDeleted | .reorderDeleted => true
  | .unborn | .live | .rcu | .freed => false

/-- What matters here of `struct tid_ampdu_rx`; `timeout` is not zero. -/
structure TidAmpduRx where
  tid : ℕ
  timeout : Bool
  phase : Phase

/-- The session timer. -/
structure SessionTimer where
  armed : Bool
  running : Bool

/-- The callback of a reorder timer: not running, before `rcu_dereference`, or with the session that
it has found. -/
inductive Callback
  | idle
  | entered
  | loaded (n : ℕ)
deriving DecidableEq

structure ReorderTimer where
  armed : Bool
  callback : Callback

/-- The RX thread: it has looked up the station under `rcu_read_lock`, has found a session, and has
passed the session timer. -/
inductive RxPc
  | idle
  | inside
  | loaded (n : ℕ)
  | passed (n : ℕ)
deriving DecidableEq

/-- The session that the RX thread holds. -/
def RxPc.session : RxPc → Option ℕ
  | .idle | .inside => none
  | .loaded n | .passed n => some n

/-- The BA work: it has started, has seen that BA is not blocked, and is at TID `i` under `mtx`. -/
inductive WorkPc
  | idle
  | started
  | unblocked
  | scan (i : ℕ)
deriving DecidableEq

/-- The holder of `sta_mtx`. -/
inductive MgmtPc
  /-- nobody holds it -/
  | idle
  /-- an ADDBA request under `mtx` -/
  | addba (tid : ℕ) (timeout : Bool)
  /-- the new session is published -/
  | published (n : ℕ) (timeout : Bool)
  /-- a DELBA frame under `mtx` -/
  | delba (tid : ℕ)
  /-- the station is destroyed: before `cancel_work_sync` -/
  | blocked
  /-- before TID `i` -/
  | tearDown (i : ℕ)
  /-- at TID `i` under `mtx` -/
  | tearDownTid (i : ℕ)
  /-- behind `sta_info_hash_del`, `synchronize_rcu` and `__sta_info_free` -/
  | removed
  | synchronized
  | freed
deriving DecidableEq

namespace MgmtPc

/-- It holds `ampdu_mlme.mtx`. -/
def inMtx : MgmtPc → Bool
  | .addba _ _ | .published _ _ | .delba _ | .tearDownTid _ => true
  | .idle | .blocked | .tearDown _ | .removed | .synchronized | .freed => false

/-- The TID whose session it stops. -/
def target : MgmtPc → Option ℕ
  | .addba tid _ | .delba tid | .tearDownTid tid => some tid
  | .idle | .published _ _ | .blocked | .tearDown _ | .removed | .synchronized | .freed => none

/-- `cancel_work_sync` has returned. -/
def cancelled : MgmtPc → Bool
  | .tearDown _ | .tearDownTid _ | .removed | .synchronized | .freed => true
  | .idle | .addba _ _ | .published _ _ | .delba _ | .blocked => false

/-- The station can still be looked up. -/
def inHash : MgmtPc → Bool
  | .idle | .addba _ _ | .published _ _ | .delba _ | .blocked | .tearDown _ | .tearDownTid _ => true
  | .removed | .synchronized | .freed => false

/-- The TIDs that the destruction is done with. -/
def tornDown : MgmtPc → ℕ
  | .tearDown i | .tearDownTid i => i
  | .removed | .synchronized | .freed => staTidNum
  | .idle | .addba _ _ | .published _ _ | .delba _ | .blocked => 0

/-- `WLAN_STA_BLOCK_BA` is set. -/
def blockBa : MgmtPc → Bool
  | .blocked | .tearDown _ | .tearDownTid _ | .removed | .synchronized | .freed => true
  | .idle | .addba _ _ | .published _ _ | .delba _ => false

end MgmtPc

def WorkPc.inMtx : WorkPc → Bool
  | .scan _ => true
  | .idle | .started | .unblocked => false

structure State where
  /-- `ampdu_mlme.tid_rx` -/
  tidRx : ℕ → Option ℕ
  /-- `ampdu_mlme.tid_rx_timer_expired` -/
  expired : ℕ → Bool
  sess : ℕ → TidAmpduRx
  sessionTimer : ℕ → SessionTimer
  reorderTimer : ℕ → ReorderTimer
  /-- the next session to be allocated -/
  next : ℕ
  rx : RxPc
  workQueued : Bool
  work : WorkPc
  mgmt : MgmtPc
  /-- the session that the holder of `ampdu_mlme.mtx` is stopping -/
  stop : Option ℕ

/-- What a release does to the reorder timer. -/
inductive TimerOp
  | keep
  | mod
  | del
deriving DecidableEq

def TimerOp.apply (op : TimerOp) (t : ReorderTimer) : ReorderTimer :=
  match op with
  | .keep => t
  | .mod => { t with armed := true }
  | .del => { t with armed := false }

inductive Act
  | rxEnter
  | rxLoad (tid : ℕ)
  | rxSession
  | rxReorder (op : TimerOp)
  | rxLeave
  | sessionFire (n : ℕ)
  | sessionExpired (n : ℕ)
  | reorderFire (n : ℕ)
  | reorderLoad (n : ℕ)
  | reorderRelease (n : ℕ) (op : TimerOp)
  | workStart
  | workTest
  | workLock
  | workTid
  | workUnlock
  | addba (tid : Fin 16) (timeout : Bool)
  | delba (tid : Fin 16)
  | mgmtStop
  | publish (ok : Bool)
  | arm
  | delbaDone
  | destroy
  | cancelWork
  | tearDownTid
  | tearDownDone
  | remove
  | synchronize
  | freeSta
  | delSession
  | delReorder
  | callRcu
  | rcuFree (n : ℕ)

namespace State

/-- `ampdu_mlme.mtx` is free. -/
def mtxFree (s : State) : Bool := !s.mgmt.inMtx && !s.work.inMtx

def setPhase (s : State) (n : ℕ) (p : Phase) : State :=
  { s with sess := Function.update s.sess n { s.sess n with phase := p } }

def setSessionTimer (s : State) (n : ℕ) (t : SessionTimer) : State :=
  { s with sessionTimer := Function.update s.sessionTimer n t }

def setReorderTimer (s : State) (n : ℕ) (t : ReorderTimer) : State :=
  { s with reorderTimer := Function.update s.reorderTimer n t }

/-- `RCU_INIT_POINTER(tid_rx[tid], NULL)`, when the session is not `NULL`. -/
def clear (s : State) (tid : ℕ) : State :=
  match s.tidRx tid with
  | none => s
  | some n => { s.setPhase n .cleared with
      tidRx := Function.update s.tidRx tid none
      stop := some n }

/-- A new session is set up and published. -/
def allocate (s : State) (tid : ℕ) (timeout : Bool) : State :=
  { s with
    tidRx := Function.update s.tidRx tid (some s.next)
    sess := Function.update s.sess s.next ⟨tid, timeout, .live⟩
    sessionTimer := Function.update s.sessionTimer s.next ⟨false, false⟩
    reorderTimer := Function.update s.reorderTimer s.next ⟨false, .idle⟩
    next := s.next + 1 }

/-- No reader holds session `n`. -/
def unread (s : State) (n : ℕ) : Prop :=
  s.rx.session ≠ some n ∧ ∀ m < s.next, (s.reorderTimer m).callback ≠ .loaded n

/-- No reader is in its RCU section. -/
def quiet (s : State) : Prop :=
  s.rx = .idle ∧ ∀ m < s.next, ∀ n < s.next, (s.reorderTimer m).callback ≠ .loaded n

instance (s : State) (n : ℕ) : Decidable (s.unread n) := inferInstanceAs (Decidable (_ ∧ _))

instance (s : State) : Decidable s.quiet := inferInstanceAs (Decidable (_ ∧ _))

/-- The RX thread: `ieee80211_rx_reorder_ampdu`. -/
def rxStep (s : State) : Act → Option State
  | .rxEnter => if s.rx = .idle ∧ s.mgmt.inHash then some { s with rx := .inside } else none
  | .rxLoad tid =>
    if s.rx = .inside then
      match s.tidRx tid with
      | none => some s
      | some n => some { s with rx := .loaded n }
    else none
  | .rxSession =>
    match s.rx with
    | .loaded n =>
      let s' := { s with rx := .passed n }
      some (if (s.sess n).timeout then
        s'.setSessionTimer n { s.sessionTimer n with armed := true } else s')
    | _ => none
  | .rxReorder op =>
    match s.rx with
    | .passed n =>
      some ({ s with rx := .inside }.setReorderTimer n (op.apply (s.reorderTimer n)))
    | _ => none
  | .rxLeave => if s.rx = .inside then some { s with rx := .idle } else none
  | _ => none

/-- The timers and their callbacks. -/
def timerStep (s : State) : Act → Option State
  | .sessionFire n =>
    if (s.sessionTimer n).armed ∧ ¬ (s.sessionTimer n).running then
      some (s.setSessionTimer n ⟨false, true⟩)
    else none
  | .sessionExpired n =>
    if (s.sessionTimer n).running then
      some ({ s with
        expired := Function.update s.expired (s.sess n).tid true
        workQueued := true }.setSessionTimer n { s.sessionTimer n with running := false })
    else none
  | .reorderFire n =>
    if (s.reorderTimer n).armed ∧ (s.reorderTimer n).callback = .idle then
      some (s.setReorderTimer n ⟨false, .entered⟩)
    else none
  | .reorderLoad n =>
    if (s.reorderTimer n).callback = .entered then
      some (s.setReorderTimer n { s.reorderTimer n with
        callback := match s.tidRx (s.sess n).tid with
          | none => .idle
          | some m => .loaded m })
    else none
  | .reorderRelease n op =>
    match (s.reorderTimer n).callback with
    | .loaded m =>
      let s' := s.setReorderTimer m (op.apply (s.reorderTimer m))
      some (s'.setReorderTimer n { s'.reorderTimer n with callback := .idle })
    | _ => none
  | _ => none

/-- `ieee80211_ba_session_work`; nobody sets `tid_rx_stop_requested`. -/
def workStep (s : State) : Act → Option State
  | .workStart =>
    if s.workQueued ∧ s.work = .idle then some { s with workQueued := false, work := .started }
    else none
  | .workTest =>
    if s.work = .started then
      some { s with work := if s.mgmt.blockBa then .idle else .unblocked }
    else none
  | .workLock =>
    if s.work = .unblocked ∧ s.mtxFree then some { s with work := .scan 0 } else none
  | .workTid =>
    match s.work with
    | .scan i =>
      if i < staTidNum ∧ s.stop = none then
        let s' := { s with work := .scan (i + 1) }
        some (if s.expired i then
          { s' with expired := Function.update s.expired i false }.clear i else s')
      else none
    | _ => none
  | .workUnlock =>
    match s.work with
    | .scan i => if i = staTidNum ∧ s.stop = none then some { s with work := .idle } else none
    | _ => none
  | _ => none

/-- The holder of `sta_mtx`. -/
def mgmtStep (s : State) : Act → Option State
  | .addba tid timeout =>
    if s.mgmt = .idle ∧ s.mtxFree then some { s with mgmt := .addba tid timeout } else none
  | .delba tid =>
    if s.mgmt = .idle ∧ s.mtxFree then some { s with mgmt := .delba tid } else none
  | .mgmtStop =>
    match s.mgmt.target with
    | some tid => if s.stop = none then some (s.clear tid) else none
    | none => none
  | .publish ok =>
    match s.mgmt with
    | .addba tid timeout =>
      if s.stop = none ∧ s.tidRx tid = none then
        some (if ok then { s.allocate tid timeout with mgmt := .published s.next timeout }
          else { s with mgmt := .idle })
      else none
    | _ => none
  | .arm =>
    match s.mgmt with
    | .published n timeout =>
      let s' := { s with mgmt := .idle }
      some (if timeout then s'.setSessionTimer n { s.sessionTimer n with armed := true } else s')
    | _ => none
  | .delbaDone =>
    match s.mgmt with
    | .delba tid =>
      if s.stop = none ∧ s.tidRx tid = none then some { s with mgmt := .idle } else none
    | _ => none
  | .destroy => if s.mgmt = .idle then some { s with mgmt := .blocked } else none
  | .cancelWork =>
    if s.mgmt = .blocked ∧ s.work = .idle then
      some { s with workQueued := false, mgmt := .tearDown 0 }
    else none
  | .tearDownTid =>
    match s.mgmt with
    | .tearDown i =>
      if i < staTidNum ∧ s.mtxFree then some { s with mgmt := .tearDownTid i } else none
    | _ => none
  | .tearDownDone =>
    match s.mgmt with
    | .tearDownTid i =>
      if s.stop = none ∧ s.tidRx i = none then some { s with mgmt := .tearDown (i + 1) } else none
    | _ => none
  | .remove => if s.mgmt = .tearDown staTidNum then some { s with mgmt := .removed } else none
  | .synchronize =>
    if s.mgmt = .removed ∧ s.quiet then some { s with mgmt := .synchronized } else none
  | .freeSta => if s.mgmt = .synchronized then some { s with mgmt := .freed } else none
  | _ => none

/-- The rest of `___ieee80211_stop_rx_ba_session`, and `ieee80211_free_tid_rx`. -/
def stopStep (s : State) : Act → Option State
  | .delSession =>
    match s.stop with
    | some n =>
      if (s.sess n).phase = .cleared ∧ ¬ (s.sessionTimer n).running then
        some ((s.setPhase n .sessionDeleted).setSessionTimer n ⟨false, false⟩)
      else none
    | none => none
  | .delReorder =>
    match s.stop with
    | some n =>
      if (s.sess n).phase = .sessionDeleted ∧ (s.reorderTimer n).callback = .idle then
        some ((s.setPhase n .reorderDeleted).setReorderTimer n ⟨false, .idle⟩)
      else none
    | none => none
  | .callRcu =>
    match s.stop with
    | some n =>
      if (s.sess n).phase = .reorderDeleted then some { s.setPhase n .rcu with stop := none }
      else none
    | none => none
  | .rcuFree n =>
    if (s.sess n).phase = .rcu ∧ s.unread n then some (s.setPhase n .freed) else none
  | _ => none

def step (s : State) (a : Act) : Option State :=
  (s.rxStep a).or ((s.timerStep a).or ((s.workStep a).or ((s.mgmtStep a).or (s.stopStep a))))

end State

/-- A station without sessions. -/
def start : State where
  tidRx _ := none
  expired _ := false
  sess _ := ⟨0, false, .unborn⟩
  sessionTimer _ := ⟨false, false⟩
  reorderTimer _ := ⟨false, .idle⟩
  next := 0
  rx := .idle
  workQueued := false
  work := .idle
  mgmt := .idle
  stop := none

/-- Runs of a station from its creation on. -/
def system : System State Act where
  init s := s = start
  step := State.step

end Atbm6441.Agg
