import Atbm6441.Lib.Runs
import Mathlib.Data.List.Basic
import Mathlib.Tactic.Common

/-!
# Wake-ups on the RTOS

The loops of `atbm_sdio_tx_thread` and `atbm_sdio_rx_thread` without `LINUX_OS`, and the schedule
functions with `atbm_sdio_thread_wakeup`, for any number of producers. `process_wait_timeout` takes
the semaphore and does not time out, and `wake_up_process` releases it. `atbm_sdio_tx_bh` takes
commands and frames by `wsm_get_tx`, which tests for a command first; the RX thread has only
frames, which `atbm_sdio_rx_bh` reads from the device until there is none.

`not_lost` : no wake-up is lost, in runs where the flag is not tested and found set after the
last test for what has been queued, and the thread does not go on waiting with the flag set.
`swallowed` and `stuck_flag` : in other runs it is.
-/

namespace Atbm6441.Sdio.Rtos

open Atbm6441.Lib

/-! ### The threads -/

/-- Where the thread is. -/
inductive Pc
  /-- `process_wait_timeout` -/
  | wait
  /-- `atomic_xchg` -/
  | xchg
  /-- the test for a command -/
  | cmdTest
  /-- the test for a frame -/
  | frameTest
  /-- `clear_bit` -/
  | clear
deriving DecidableEq

/-- The semaphore, `tx_get` or `rx_get`, `THREAD_WAKEUP`, the commands and frames queued; the
producers that are to set the first, to test and set the second, and to release the semaphore. -/
structure State where
  sem : ℕ
  get : Bool
  wakeup : Bool
  cmds : ℕ
  frames : ℕ
  toSet : ℕ
  toTest : ℕ
  toUp : ℕ
  pc : Pc
deriving DecidableEq

/-- The threads start with the semaphore at zero, the RX thread after one release. -/
def State.start (sem : ℕ) : State := ⟨sem, false, false, 0, 0, 0, 0, 0, .wait⟩

inductive Act
  /-- a producer queues a command -/
  | cmd
  /-- a producer queues a frame -/
  | frame
  /-- the schedule function is called with nothing new -/
  | call
  /-- a producer sets `tx_get` or `rx_get` -/
  | set
  /-- a producer takes the test-and-set of `THREAD_WAKEUP` -/
  | test
  /-- a producer releases the semaphore -/
  | up
  /-- the thread takes a step -/
  | thread
deriving DecidableEq

/-- The loop of the thread. -/
def State.thread (s : State) : Option State :=
  match s.pc with
  | .wait => if 0 < s.sem then some { s with sem := s.sem - 1, pc := .xchg } else none
  | .xchg => some { s with get := false, pc := if s.get then .cmdTest else .wait }
  | .cmdTest =>
    if 0 < s.cmds then some { s with cmds := s.cmds - 1 } else some { s with pc := .frameTest }
  | .frameTest =>
    if 0 < s.frames then some { s with frames := s.frames - 1, pc := .cmdTest }
    else some { s with pc := .clear }
  | .clear => some { s with wakeup := false, pc := .wait }

def State.step (s : State) : Act → Option State
  | .cmd => some { s with cmds := s.cmds + 1, toSet := s.toSet + 1 }
  | .frame => some { s with frames := s.frames + 1, toSet := s.toSet + 1 }
  | .call => some { s with toSet := s.toSet + 1 }
  | .set =>
    if 0 < s.toSet then
      some { s with get := true, toSet := s.toSet - 1, toTest := s.toTest + 1 }
    else none
  | .test =>
    if 0 < s.toTest then
      some { s with
        wakeup := true
        toTest := s.toTest - 1
        toUp := if s.wakeup then s.toUp else s.toUp + 1 }
    else none
  | .up => if 0 < s.toUp then some { s with sem := s.sem + 1, toUp := s.toUp - 1 } else none
  | .thread => s.thread

def system : System State Act where
  init s := ∃ sem ≤ 1, s = .start sem
  step := State.step

/-- **A wake-up is lost**: the thread waits with something queued, the semaphore is at zero, and
nobody is to release it, nor to find the flag clear. -/
def State.Lost (s : State) : Prop :=
  s.pc = .wait ∧ 0 < s.cmds + s.frames ∧ s.sem = 0 ∧ s.toUp = 0 ∧
    (s.wakeup = true ∨ s.toSet + s.toTest = 0)

instance (s : State) : Decidable s.Lost :=
  inferInstanceAs (Decidable (s.pc = .wait ∧ 0 < s.cmds + s.frames ∧ s.sem = 0 ∧ s.toUp = 0 ∧
    (s.wakeup = true ∨ s.toSet + s.toTest = 0)))

/-! ### The condition -/

/-- Once a producer has tested the flag: another is still to test it, or the next waits of the thread
end, with `get` set. -/
def State.WokenAfter (s : State) : Prop :=
  2 ≤ s.toSet + s.toTest ∨ s.get = true ∧ (0 < s.sem + s.toUp ∨ s.wakeup = false)

/-- What has been queued and is not tested for again before the flag is cleared. -/
def State.Untested (s : State) : Pc → Prop
  | .frameTest => 0 < s.cmds ∧ s.frames = 0
  | .clear => 0 < s.cmds + s.frames
  | .wait | .xchg | .cmdTest => False

/-- **A step keeps the wake-ups**: the flag is tested when nothing untested is queued, or the thread is
woken after that; and the thread goes on waiting with the flag clear, or with a release to come. -/
def Keeps (s : State) : Act → Prop
  | .test => s.Untested s.pc → s.WokenAfter
  | .thread => s.pc = .xchg → s.get = true ∨ s.wakeup = false ∨ 0 < s.sem + s.toUp
  | .cmd | .frame | .call | .set | .up => True

instance (s : State) : (pc : Pc) → Decidable (s.Untested pc)
  | .frameTest => inferInstanceAs (Decidable (0 < s.cmds ∧ s.frames = 0))
  | .clear => inferInstanceAs (Decidable (0 < s.cmds + s.frames))
  | .wait | .xchg | .cmdTest => .isFalse id

instance (s : State) : Decidable s.WokenAfter :=
  inferInstanceAs (Decidable (2 ≤ s.toSet + s.toTest ∨
    s.get = true ∧ (0 < s.sem + s.toUp ∨ s.wakeup = false)))

instance (s : State) : (a : Act) → Decidable (Keeps s a)
  | .test => inferInstanceAs (Decidable (s.Untested s.pc → s.WokenAfter))
  | .thread =>
    inferInstanceAs (Decidable (s.pc = .xchg → s.get = true ∨ s.wakeup = false ∨ 0 < s.sem + s.toUp))
  | .cmd | .frame | .call | .set | .up => .isTrue trivial

/-! ### The invariant -/

/-- A producer is to test the flag, or the next waits of the thread end, with `get` set. -/
def State.Woken (s : State) : Prop :=
  0 < s.toSet + s.toTest ∨ s.get = true ∧ 0 < s.sem + s.toUp

/-- What is queued is on its way to be found. -/
def State.OnItsWay (s : State) : Pc → Prop
  | .wait => (s.wakeup = true → 0 < s.sem + s.toUp) ∧
      (0 < s.cmds + s.frames → s.wakeup = true ∨ s.Woken)
  | .xchg => 0 < s.cmds + s.frames → s.wakeup = true ∨ s.get = true ∨ 0 < s.toSet + s.toTest
  | .cmdTest => True
  | .frameTest => s.Untested .frameTest → s.Woken
  | .clear => s.Untested .clear → s.Woken

variable {s t : State}

theorem onItsWay_start (sem : ℕ) : (State.start sem).OnItsWay .wait :=
  ⟨fun h => by simp [State.start] at h, fun h => by simp [State.start] at h⟩

theorem onItsWay_queue (h : s.OnItsWay s.pc) (cmds frames : ℕ) :
    State.OnItsWay { s with cmds := cmds, frames := frames, toSet := s.toSet + 1 } s.pc := by
  have hwoken : State.Woken { s with cmds := cmds, frames := frames, toSet := s.toSet + 1 } :=
    .inl (by show 0 < s.toSet + 1 + s.toTest; omega)
  rcases hpc : s.pc with _ | _ | _ | _ | _ <;> rw [hpc] at h
  case wait => exact ⟨h.1, fun _ => .inr hwoken⟩
  case xchg => exact fun _ => .inr (.inr (by show 0 < s.toSet + 1 + s.toTest; omega))
  case cmdTest => trivial
  all_goals exact fun _ => hwoken

theorem onItsWay_set (h : s.OnItsWay s.pc) :
    State.OnItsWay { s with get := true, toSet := s.toSet - 1, toTest := s.toTest + 1 } s.pc := by
  have hwoken : State.Woken { s with get := true, toSet := s.toSet - 1, toTest := s.toTest + 1 } :=
    .inl (by show 0 < s.toSet - 1 + (s.toTest + 1); omega)
  rcases hpc : s.pc with _ | _ | _ | _ | _ <;> rw [hpc] at h
  case wait => exact ⟨h.1, fun _ => .inr hwoken⟩
  case xchg => exact fun _ => .inr (.inl rfl)
  case cmdTest => trivial
  all_goals exact fun _ => hwoken

/-- **The flag is tested**: either it was clear and a release is to come, or it was set, and what is
not tested for again has the thread woken. -/
theorem onItsWay_test (h : s.OnItsWay s.pc) (hk : Keeps s .test) (ht : s.step .test = some t) :
    t.OnItsWay t.pc := by
  obtain ⟨-, ht⟩ := Option.ite_none_right_eq_some.mp ht
  rw [← Option.some.inj ht]
  have hup : s.wakeup = false → 0 < s.sem + (if s.wakeup = true then s.toUp else s.toUp + 1) := by
    intro hw
    rw [if_neg (Bool.eq_false_iff.mp hw)]
    omega
  have hkept : s.toUp ≤ if s.wakeup = true then s.toUp else s.toUp + 1 := by
    split_ifs <;> omega
  have hafter : s.WokenAfter → State.Woken { s with
      wakeup := true
      toTest := s.toTest - 1
      toUp := if s.wakeup then s.toUp else s.toUp + 1 } := by
    rintro (hmore | ⟨hget, hsem | hw⟩)
    · left
      show 0 < s.toSet + (s.toTest - 1)
      omega
    · exact .inr ⟨hget, by show 0 < s.sem + if s.wakeup = true then s.toUp else s.toUp + 1; omega⟩
    · exact .inr ⟨hget, hup hw⟩
  unfold Keeps at hk
  show State.OnItsWay _ s.pc
  rcases hpc : s.pc with _ | _ | _ | _ | _ <;> rw [hpc] at h hk
  case wait =>
    refine ⟨fun _ => ?_, fun _ => .inl rfl⟩
    by_cases hw : s.wakeup = true
    · have hsem := h.1 hw
      show 0 < s.sem + if s.wakeup = true then s.toUp else s.toUp + 1
      omega
    · exact hup (Bool.eq_false_iff.mpr hw)
  case xchg => exact fun _ => .inl rfl
  case cmdTest => trivial
  case frameTest => exact fun hu => hafter (hk hu)
  case clear => exact fun hu => hafter (hk hu)

theorem onItsWay_up (h : s.OnItsWay s.pc) (h0 : 0 < s.toUp) :
    State.OnItsWay { s with sem := s.sem + 1, toUp := s.toUp - 1 } s.pc := by
  have hsum : s.sem + 1 + (s.toUp - 1) = s.sem + s.toUp := by omega
  have hwoken : s.Woken → State.Woken { s with sem := s.sem + 1, toUp := s.toUp - 1 } := by
    unfold State.Woken
    dsimp only
    rw [hsum]
    exact id
  rcases hpc : s.pc with _ | _ | _ | _ | _ <;> rw [hpc] at h
  case wait =>
    refine ⟨fun hw => ?_, fun hq => (h.2 hq).imp id hwoken⟩
    have hsem := h.1 hw
    show 0 < s.sem + 1 + (s.toUp - 1)
    omega
  case xchg => exact h
  case cmdTest => trivial
  all_goals exact fun hu => hwoken (h hu)

/-- **The thread's steps**: what it does not find any more wakes it after the flag is cleared. -/
theorem onItsWay_thread (h : s.OnItsWay s.pc) (hk : Keeps s .thread)
    (ht : s.step .thread = some t) : t.OnItsWay t.pc := by
  unfold Keeps at hk
  simp only [State.step, State.thread] at ht
  rcases hpc : s.pc with _ | _ | _ | _ | _ <;> simp only [hpc, true_imp_iff] at h hk ht
  case wait =>
    split_ifs at ht with hsem
    rw [← Option.some.inj ht]
    intro hq
    rcases h.2 hq with hw | hmore | hget
    · exact .inl hw
    · exact .inr (.inr hmore)
    · exact .inr (.inl hget.1)
  case xchg =>
    rw [← Option.some.inj ht]
    by_cases hget : s.get = true
    · rw [if_pos hget]
      trivial
    · rw [if_neg hget]
      refine ⟨fun hw => ?_, fun hq => ?_⟩
      · rcases hk with hg | hw' | hsem
        · exact absurd hg hget
        · exact absurd hw (Bool.eq_false_iff.mp hw')
        · exact hsem
      · rcases h hq with hw | hg | hmore
        · exact .inl hw
        · exact absurd hg hget
        · exact .inr (.inl hmore)
  case cmdTest =>
    split_ifs at ht with hc
    · rw [← Option.some.inj ht]
      trivial
    · rw [← Option.some.inj ht]
      exact fun hu => absurd hu.1 hc
  case frameTest =>
    split_ifs at ht with hf
    · rw [← Option.some.inj ht]
      trivial
    · rw [← Option.some.inj ht]
      intro hu
      have hq : 0 < s.cmds + s.frames := hu
      exact h ⟨by omega, by omega⟩
  case clear =>
    rw [← Option.some.inj ht]
    exact ⟨fun hw => by simp at hw, fun hq => .inr (h hq)⟩

theorem onItsWay_step {a : Act} (h : s.OnItsWay s.pc) (hk : Keeps s a) (ht : s.step a = some t) :
    t.OnItsWay t.pc := by
  rcases a with _ | _ | _ | _ | _ | _ | _
  · rw [← Option.some.inj ht]
    exact onItsWay_queue h _ _
  · rw [← Option.some.inj ht]
    exact onItsWay_queue h _ _
  · rw [← Option.some.inj ht]
    exact onItsWay_queue h _ _
  · obtain ⟨-, ht⟩ := Option.ite_none_right_eq_some.mp ht
    rw [← Option.some.inj ht]
    exact onItsWay_set h
  · exact onItsWay_test h hk ht
  · obtain ⟨h0, ht⟩ := Option.ite_none_right_eq_some.mp ht
    rw [← Option.some.inj ht]
    exact onItsWay_up h h0
  · exact onItsWay_thread h hk ht

/-- **No wake-up is lost**, when every step keeps the wake-ups. -/
theorem not_lost (h : Reach system Keeps s) : ¬ s.Lost := by
  have hway : s.OnItsWay s.pc := by
    refine Reach.inv (I := fun s => s.OnItsWay s.pc) ?_ (fun _ _ _ => onItsWay_step) h
    rintro _ ⟨sem, -, rfl⟩
    exact onItsWay_start sem
  rintro ⟨hpc, hq, hsem, hup, hend⟩
  rw [hpc] at hway
  have hclear : s.wakeup ≠ true := fun hw => by
    have hpos := hway.1 hw
    omega
  have hwoken := (hway.2 hq).resolve_left hclear
  have hnone := hend.resolve_left hclear
  rcases hwoken with hmore | ⟨-, hpos⟩ <;> omega

/-! ### Runs -/

/-- A frame is queued and scheduled. -/
def sendFrame : List Act := [.frame, .set, .test, .up]

/-- The thread wakes up and takes one frame. -/
def drainOne : List Act := List.replicate 6 .thread

theorem not_lost_two : ∃ s, Reach system Keeps s ∧ s.pc = .wait ∧ 0 < s.frames ∧ ¬ s.Lost := by
  have hout : (execIf system Keeps (.start 0) (sendFrame ++ drainOne ++ [.thread] ++ sendFrame)).map
      (fun s => (s.pc, s.frames)) = some (.wait, 1) := by
    decide
  obtain ⟨s, hs, heq⟩ := Option.map_eq_some_iff.mp hout
  rw [Prod.mk.injEq] at heq
  have hr : Reach system Keeps s := Reach.of_execIf (.init ⟨0, Nat.zero_le 1, rfl⟩) hs
  exact ⟨s, hr, heq.1, by omega, not_lost hr⟩

/-- **A swallowed wake-up**: a frame is queued and scheduled when the thread has found the queue empty
and has not cleared the flag. -/
theorem swallowed : ∃ s, Reach system (fun _ _ => True) s ∧ s.Lost := by
  have hout : (exec system (.start 0) (sendFrame ++ drainOne ++ [.frame, .set, .test, .thread])).map
      (fun s => decide s.Lost) = some true := by
    decide
  obtain ⟨s, hs, hlost⟩ := Option.map_eq_some_iff.mp hout
  exact ⟨s, Reach.of_exec (.init ⟨0, Nat.zero_le 1, rfl⟩) hs, of_decide_eq_true hlost⟩

/-- **A flag that stays set**: the thread is woken with `get` taken before, goes on waiting and leaves
the flag set, so that a frame queued later wakes nobody. -/
theorem stuck_flag : ∃ s, Reach system (fun _ _ => True) s ∧ s.Lost := by
  let both : List Act := [.frame, .set, .test, .up, .frame, .set]
  let late : List Act := List.replicate 9 .thread ++ [.test, .up, .thread, .thread]
  have hout : (exec system (.start 0) (both ++ late ++ [.frame, .set, .test])).map
      (fun s => decide s.Lost) = some true := by
    decide
  obtain ⟨s, hs, hlost⟩ := Option.map_eq_some_iff.mp hout
  exact ⟨s, Reach.of_exec (.init ⟨0, Nat.zero_le 1, rfl⟩) hs, of_decide_eq_true hlost⟩

end Atbm6441.Sdio.Rtos
