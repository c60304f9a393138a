import Atbm6441.Lib.Links
import Atbm6441.Lib.Runs
import Mathlib.Algebra.Group.Nat.Defs

/-!
# The timers of the RTOS port

`atbm_os_timer.c`: timers on the one-shot timers of the system, which `drv_vtimer_start` starts and
`drv_vtimer_stop` stops by a handle. The callback finds the timer by the handle, in the chains of
`atbm_timer_hash`. A function that follows a chain visits no more timers than have ever been put in,
and is `none` if the chain goes on.
-/

namespace Atbm6441.Os.Timer

open Atbm6441.Lib

universe u v

/-! ### The hash table -/

/-- `TIMER_HASH`. -/
def timerHash (handle : ℕ) : ℕ := handle &&& 7

/-- `atbm_timer_hash` and the `hnext` of the timers; how many timers have been put in. -/
structure Hash (T : Type u) where
  head : ℕ → Option T
  hnext : T → Option T
  adds : ℕ

namespace Hash

variable {T : Type u} [DecidableEq T] (s : Hash T)

/-- `__timer_hash_add`, of a timer with a handle. -/
def add (t : T) (handle : ℕ) : Hash T :=
  let i := timerHash handle
  ⟨Function.update s.head i (some t), Function.update s.hnext t (s.head i), s.adds + 1⟩

omit [DecidableEq T] in
/-- `__timer_hash_get`, for the handles of the timers. -/
def get (hander : T → ℕ) (handle : ℕ) : Option (Option T) :=
  find s.hnext (fun t => hander t = handle) s.adds (s.head (timerHash handle))

/-- `__timer_hash_del_bytimer`, of a timer with a handle. -/
def delBytimer (t : T) (handle : ℕ) : Option (Hash T) :=
  let i := timerHash handle
  match s.head i with
  | none => some s
  | some p =>
    if p = t then some { s with head := Function.update s.head i (s.hnext t) }
    else
      (find s.hnext (isBefore s.hnext t) s.adds (some p)).map fun o =>
        let hnext := match o with
          | some q => if s.hnext q ≠ none then Function.update s.hnext q (s.hnext t) else s.hnext
          | none => s.hnext
        { s with hnext := Function.update hnext t none }

end Hash

/-! ### The timers -/

/-- `struct atbm_timer_list`, without `hnext`. -/
structure AtbmTimerList (F : Type v) where
  function : Option F
  data : ℕ
  timerHander : ℕ
  bTimerStart : Bool

/-- The memory after `memset`. -/
def AtbmTimerList.zero {F : Type v} : AtbmTimerList F := ⟨none, 0, 0, false⟩

/-- A running timer of the system: the timer that it was started for, and its time. -/
structure Native (T : Type u) where
  owner : T
  time : ℕ

/-- `-1` as an `unsigned int`. -/
def noId : ℕ := 0xffffffff

/-- The timers and the hash table; the timers of the system that run, by handle; `set_start_timer`,
`cur_timeout_id`, and the calls of functions so far. -/
structure State (T : Type u) (F : Type v) where
  timer : T → AtbmTimerList F
  tab : Hash T
  native : ℕ → Option (Native T)
  setStartTimer : Bool
  curTimeoutId : ℕ
  calls : List (F × ℕ)

/-- `ATBM_AK_TIMEOUT_VAL` of `time_after * 1000`, in 32 bits. -/
def initMs (timeAfter : ℕ) : ℕ :=
  let v := timeAfter * 1000 % 2 ^ 32
  if v % 5 = 0 then v else (v + 5 - v % 5) % 2 ^ 32

variable {T : Type u} {F : Type v}

namespace State

variable (s : State T F)

def hander (t : T) : ℕ := (s.timer t).timerHander

/-- `timer->function(timer->data)`, if there is a function. -/
def call (t : T) : State T F :=
  match (s.timer t).function with
  | none => s
  | some f => { s with calls := s.calls ++ [(f, (s.timer t).data)] }

variable [DecidableEq T]

def write (t : T) (x : AtbmTimerList F) : State T F :=
  { s with timer := Function.update s.timer t x }

def writeTab (tab : Hash T) : State T F := { s with tab := tab }

def writeNative (handle : ℕ) (n : Option (Native T)) : State T F :=
  { s with native := Function.update s.native handle n }

/-- `__timer_out_func`. -/
def timerOutFunc (handle : ℕ) : Option (State T F) :=
  match s.tab.get s.hander handle with
  | none => none
  | some none =>
    some (if s.setStartTimer ∧ s.curTimeoutId = noId then { s with curTimeoutId := handle } else s)
  | some (some t) =>
    (s.tab.delBytimer t (s.hander t)).map fun tab => (s.writeTab tab).call t

/-- `_cancel_timer`. -/
def cancelTimer (t : T) : Option (State T F) :=
  if (s.timer t).bTimerStart then
    (s.tab.delBytimer t (s.hander t)).map fun tab =>
      ((s.write t { s.timer t with bTimerStart := false }).writeTab tab).writeNative
        (s.hander t) none
  else some s

/-- `atbm_init_timer`. -/
def atbmInitTimer (t : T) : State T F :=
  (s.write t { s.timer t with function := none, data := 0, bTimerStart := false }).writeTab
    { s.tab with hnext := Function.update s.tab.hnext t none }

/-- `ATBM_SET_TIMER_IN_START(1)`, and `drv_vtimer_start`, which returns `handle`. -/
def vtimerStart (t : T) (timeAfter handle : ℕ) : State T F :=
  (({ s with setStartTimer := true }).writeNative handle (some ⟨t, initMs timeAfter⟩)).write t
    { s.timer t with timerHander := handle }

/-- `atbm_mod_timer` up to `drv_vtimer_start`; it ends before if there is no time to wait. -/
def modStart (t : T) (timeAfter handle : ℕ) : Option (State T F) :=
  (s.cancelTimer t).map fun s =>
    if timeAfter = 0 then s.call t else s.vtimerStart t timeAfter handle

/-- `atbm_mod_timer` after it: the timer is started and put in. -/
def modAdd (t : T) : State T F :=
  (s.write t { s.timer t with bTimerStart := true }).writeTab (s.tab.add t (s.hander t))

/-- The rest of `atbm_mod_timer`, up to the function of a timer that has expired already. -/
def modExpired : Option (State T F) :=
  if s.curTimeoutId ≠ noId then s.timerOutFunc s.curTimeoutId
  else some { s with setStartTimer := false }

/-- The end of `atbm_mod_timer` after that function. -/
def modFinish : State T F := { s with curTimeoutId := noId, setStartTimer := false }

/-- `atbm_del_timer`. -/
def atbmDelTimer (t : T) : Option (State T F) :=
  (s.cancelTimer t).map fun s =>
    (s.write t .zero).writeTab { s.tab with hnext := Function.update s.tab.hnext t none }

/-- The timer of the system expires. -/
def expire (handle : ℕ) : Option (State T F) :=
  if (s.native handle).isSome then (s.writeNative handle none).timerOutFunc handle else none

end State

end Atbm6441.Os.Timer
