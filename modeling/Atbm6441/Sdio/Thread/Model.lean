import Atbm6441.Lib.Runs
import Mathlib.Data.List.Basic
import Mathlib.Tactic.Common

/-!
# The SDIO threads on Linux

`atbm_sdio_wait_action` and `atbm_kthread_into_suspend` of a TX or RX thread, and, called from other
contexts, any number of `atbm_sdio_thread_wakeup`, `atbm_kthread_try_suspend` and
`atbm_kthread_resume`. Each write of the task state, each operation on a bit of `flags`, and each call
of `wake_up_process`, `complete` and the wait for completion is one step. The thread is not stopped.
-/

namespace Atbm6441.Sdio.Thread

open Atbm6441.Lib

/-- Where the thread is. -/
inductive Pc
  /-- the label `wake`, before the task state is written -/
  | wake
  /-- before the test-and-clear of `THREAD_WAKEUP` -/
  | test
  /-- it was set -/
  | found
  /-- outside of the wait loop -/
  | work
  /-- before the test of `THREAD_SHOULD_SUSPEND` -/
  | testSuspend
  /-- before the test of `period`, and `period_handle` -/
  | period
  /-- before `pre_sched` -/
  | hook
  /-- before the last write of the task state -/
  | setState
  /-- before `schedule_timeout` -/
  | sched
  /-- in `schedule_timeout`, asleep -/
  | asleep
  /-- after it -/
  | after
  /-- `atbm_kthread_into_suspend`, before its loop -/
  | parkSet
  /-- its loop: before the test of `THREAD_SHOULD_SUSPEND` -/
  | parkTest
  /-- before the test-and-set of `THREAD_SUSPENED` -/
  | parkMark
  /-- before `complete` -/
  | parkComplete
  /-- before `schedule` -/
  | parkSched
  /-- in `schedule`, asleep -/
  | parked
  /-- after it -/
  | parkState
  /-- after the loop, before `THREAD_SUSPENED` is cleared -/
  | parkEnd
  /-- before the last write of the task state -/
  | parkLeave
deriving DecidableEq

/-- The thread is inside the loop of `atbm_kthread_into_suspend`. -/
def Pc.InLoop : Pc → Prop
  | .parkTest | .parkMark | .parkComplete | .parkSched | .parked | .parkState => True
  | .wake | .test | .found | .work | .testSuspend | .period | .hook | .setState | .sched | .asleep
  | .after | .parkSet | .parkEnd | .parkLeave => False

instance : (pc : Pc) → Decidable pc.InLoop
  | .parkTest | .parkMark | .parkComplete | .parkSched | .parked | .parkState => .isTrue trivial
  | .wake | .test | .found | .work | .testSuspend | .period | .hook | .setState | .sched | .asleep
  | .after | .parkSet | .parkEnd | .parkLeave => .isFalse id

/-- The thread and the calls under way. -/
structure State where
  pc : Pc
  /-- the task state is `TASK_RUNNING`, and not `TASK_INTERRUPTIBLE` -/
  running : Bool
  /-- `period` is 0 -/
  timedOut : Bool
  wakeup : Bool
  shouldSuspend : Bool
  suspended : Bool
  /-- the count of the completion -/
  done : ℕ
  /-- the calls of `atbm_sdio_thread_wakeup` that are to call `wake_up_process` -/
  wakers : ℕ
  /-- the suspend requests that are to set `THREAD_SHOULD_SUSPEND`, to call `wake_up_process`, and that
  wait for the completion -/
  susSet : ℕ
  susWake : ℕ
  susWait : ℕ
  /-- the resume requests that are to test and clear `THREAD_SUSPENED`, and to call `wake_up_process` -/
  resClear : ℕ
  resWake : ℕ
  /-- of the run: a call of `atbm_sdio_thread_wakeup` has set the flag since the thread tested it -/
  raised : Bool
  /-- of the run: `wake_up_process` has been called since the thread wrote its task state -/
  woken : Bool
  /-- of the run: the thread has gone to sleep in `schedule_timeout` with `THREAD_WAKEUP` set -/
  missed : Bool
  /-- of the run: a suspend request has returned, not by a timeout, when the thread was not inside the
  parking loop -/
  stray : Bool
  /-- of the run: a resume request has returned and no suspend request has been made since -/
  resumed : Bool
deriving DecidableEq

/-- The thread is created. -/
def State.start : State :=
  ⟨.wake, true, false, false, false, false, 0, 0, 0, 0, 0, 0, 0, false, false, false, false, false⟩

inductive Act
  /-- the thread takes a step, with what a hook or the clock decides -/
  | thread (b : Bool)
  /-- the time of `schedule_timeout` has passed -/
  | timeout
  /-- `atbm_sdio_thread_wakeup` tests and sets `THREAD_WAKEUP` -/
  | wakeup
  | wakeupWake
  /-- `atbm_kthread_try_suspend` tests `THREAD_SUSPENED` -/
  | suspend
  | suspendSet
  | suspendWake
  /-- its wait ends with the completion -/
  | suspendTake
  /-- its wait ends without it -/
  | suspendTimeout
  /-- `atbm_kthread_resume` clears `THREAD_SHOULD_SUSPEND` -/
  | resume
  | resumeClear
  | resumeWake
deriving DecidableEq

/-- `set_current_state(TASK_INTERRUPTIBLE)`. -/
def State.setInterruptible (s : State) : State := { s with running := false, woken := false }

/-- `wake_up_process`. -/
def State.wakeUpProcess (s : State) : State := { s with running := true, woken := true }

def State.goto (s : State) (pc : Pc) : State := { s with pc := pc }

/-- The loops of the thread. -/
def State.thread (s : State) (b : Bool) : Option State :=
  match s.pc with
  -- `atbm_sdio_wait_action`
  | .wake => some ({ s with timedOut := false }.setInterruptible.goto .test)
  | .test => some { s with
      wakeup := false
      raised := false
      pc := if s.wakeup then .found else .testSuspend }
  | .found => some { s with running := true, pc := .work }
  | .work => some (s.goto .wake)
  | .testSuspend => some (s.goto (if s.shouldSuspend then .parkSet else .period))
  | .period => some (s.goto (if s.timedOut ∧ b then .wake else .hook))
  | .hook => some (if b then { s with running := true, pc := .wake } else s.goto .setState)
  | .setState => some (s.setInterruptible.goto .sched)
  | .sched =>
    if s.running then some { s with timedOut := b, pc := .after }
    else some { s with missed := s.missed || s.wakeup, pc := .asleep }
  | .asleep => if s.running then some { s with timedOut := b, pc := .after } else none
  | .after => some (s.setInterruptible.goto .test)
  -- `atbm_kthread_into_suspend`
  | .parkSet => some (s.setInterruptible.goto .parkTest)
  | .parkTest => some (s.goto (if s.shouldSuspend then .parkMark else .parkEnd))
  | .parkMark => some { s with
      suspended := true
      pc := if s.suspended then .parkSched else .parkComplete }
  | .parkComplete => some { s with done := s.done + 1, pc := .parkSched }
  | .parkSched => some (s.goto (if s.running then .parkState else .parked))
  | .parked => if s.running then some (s.goto .parkState) else none
  | .parkState => some (s.setInterruptible.goto .parkTest)
  | .parkEnd => some { s with suspended := false, pc := .parkLeave }
  | .parkLeave => some (s.setInterruptible.goto .wake)

/-- A suspend request returns, not by a timeout. -/
def State.suspendReturns (s : State) : State := { s with stray := s.stray || !decide s.pc.InLoop }

def State.step (s : State) : Act → Option State
  | .thread b => s.thread b
  | .timeout => if s.pc = .asleep then some s.wakeUpProcess else none
  | .wakeup =>
    if s.wakeup then some s
    else some { s with wakeup := true, raised := true, wakers := s.wakers + 1 }
  | .wakeupWake =>
    if 0 < s.wakers then some { s with wakers := s.wakers - 1 }.wakeUpProcess else none
  | .suspend =>
    if s.suspended then some { s with resumed := false }.suspendReturns
    else some { s with resumed := false, susSet := s.susSet + 1 }
  | .suspendSet =>
    if 0 < s.susSet then
      some { s with shouldSuspend := true, susSet := s.susSet - 1, susWake := s.susWake + 1 }
    else none
  | .suspendWake =>
    if 0 < s.susWake then
      some { s with susWake := s.susWake - 1, susWait := s.susWait + 1 }.wakeUpProcess
    else none
  | .suspendTake =>
    if 0 < s.susWait ∧ 0 < s.done then
      some { s with susWait := s.susWait - 1, done := s.done - 1 }.suspendReturns
    else none
  | .suspendTimeout => if 0 < s.susWait then some { s with susWait := s.susWait - 1 } else none
  | .resume => some { s with shouldSuspend := false, resClear := s.resClear + 1 }
  | .resumeClear =>
    if 0 < s.resClear then
      if s.suspended then
        some { s with suspended := false, resClear := s.resClear - 1, resWake := s.resWake + 1 }
      else some { s with resClear := s.resClear - 1, resumed := true }
    else none
  | .resumeWake =>
    if 0 < s.resWake then
      some { s with resWake := s.resWake - 1, resumed := true }.wakeUpProcess
    else none

def system : System State Act where
  init s := s = .start
  step := State.step

end Atbm6441.Sdio.Thread
