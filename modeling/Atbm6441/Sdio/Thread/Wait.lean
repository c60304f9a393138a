import Atbm6441.Sdio.Thread.Model

/-!
# Wake-ups during the wait loop

`prompt_of_reach` : the thread never goes to sleep in `schedule_timeout` with `THREAD_WAKEUP` set, in
runs where it goes there after a flag that has been set only when `wake_up_process` has come since it
wrote its task state.
`missed_step_iff` : what one step does, in every run.
`overwritten_wake` : in other runs the last write of the task state undoes a wake-up.
-/

namespace Atbm6441.Sdio.Thread

open Atbm6441.Lib

/-- **A sleep is prompt**: if a call of `atbm_sdio_thread_wakeup` has set the flag since the thread
tested it, `wake_up_process` has been called since the thread wrote its task state. -/
def Prompt (s : State) : Act → Prop
  | .thread _ => s.pc = .sched → s.raised = true → s.woken = true
  | _ => True

instance (s : State) : (a : Act) → Decidable (Prompt s a)
  | .thread _ => inferInstanceAs (Decidable (s.pc = .sched → s.raised = true → s.woken = true))
  | .timeout | .wakeup | .wakeupWake | .suspend | .suspendSet | .suspendWake | .suspendTake
  | .suspendTimeout | .resume | .resumeClear | .resumeWake => .isTrue trivial

/-- The thread has found `THREAD_WAKEUP` clear and is on its way to `schedule_timeout`. -/
def Pc.InWindow : Pc → Prop
  | .testSuspend | .period | .hook | .setState | .sched => True
  | _ => False

/-- What the history of the run says about the flag and the task state. -/
structure Tracked (s : State) : Prop where
  raised : s.pc.InWindow → s.raised = s.wakeup
  woken : s.pc = .sched → s.running = s.woken

variable {s t : State}

theorem tracked_start : Tracked .start := ⟨False.elim, by decide⟩

theorem other_frame {a : Act} (ha : ∀ b, a ≠ .thread b) (ht : s.step a = some t) :
    t.pc = s.pc ∧ t.missed = s.missed ∧ (s.raised = s.wakeup → t.raised = t.wakeup) ∧
      (s.running = s.woken → t.running = t.woken) := by
  rcases a with b | _ | _ | _ | _ | _ | _ | _ | _ | _ | _ | _ <;> simp only [State.step] at ht
  case thread => exact absurd rfl (ha b)
  case wakeup =>
    by_cases hw : s.wakeup = true
    · rw [if_pos hw] at ht
      rw [← Option.some.inj ht]
      exact ⟨rfl, rfl, id, id⟩
    · rw [if_neg hw] at ht
      rw [← Option.some.inj ht]
      exact ⟨rfl, rfl, fun _ => rfl, id⟩
  case suspend =>
    split_ifs at ht <;> rw [← Option.some.inj ht] <;> exact ⟨rfl, rfl, id, id⟩
  case resume =>
    rw [← Option.some.inj ht]
    exact ⟨rfl, rfl, id, id⟩
  case resumeClear =>
    split_ifs at ht <;> rw [← Option.some.inj ht] <;> exact ⟨rfl, rfl, id, id⟩
  case suspendSet | suspendTake | suspendTimeout =>
    obtain ⟨-, ht⟩ := Option.ite_none_right_eq_some.mp ht
    rw [← Option.some.inj ht]
    exact ⟨rfl, rfl, id, id⟩
  all_goals
    -- `wake_up_process`
    obtain ⟨-, ht⟩ := Option.ite_none_right_eq_some.mp ht
    rw [← Option.some.inj ht]
    exact ⟨rfl, rfl, id, fun _ => rfl⟩

/-- **What a step of the thread does**: it goes to sleep at `schedule_timeout` alone. -/
theorem Tracked.thread {b : Bool} (h : Tracked s) (ht : s.step (.thread b) = some t) :
    Tracked t ∧
      t.missed = (s.missed || (decide (s.pc = .sched) && !s.running && s.wakeup)) := by
  have hraised := h.raised
  simp only [State.step] at ht
  unfold State.thread at ht
  rcases hpc : s.pc with _ | _ | _ | _ | _ | _ | _ | _ | _ | _ | _ | _ | _ | _ | _ | _ | _ | _ | _ | _ <;>
    rw [hpc] at hraised <;> simp only [hpc] at ht
  case test =>
    rw [← Option.some.inj ht]
    exact ⟨⟨fun _ => rfl, fun hs => by split at hs <;> simp at hs⟩, by simp⟩
  case testSuspend =>
    rw [← Option.some.inj ht]
    refine ⟨⟨fun _ => hraised trivial, fun hs => ?_⟩, by simp [State.goto]⟩
    simp only [State.goto] at hs
    split at hs <;> simp at hs
  case period =>
    rw [← Option.some.inj ht]
    refine ⟨⟨fun _ => hraised trivial, fun hs => ?_⟩, by simp [State.goto]⟩
    simp only [State.goto] at hs
    split at hs <;> simp at hs
  case hook =>
    rcases b with _ | _ <;> rw [← Option.some.inj ht]
    · exact ⟨⟨fun _ => hraised trivial, fun hs => by simp [State.goto] at hs⟩, by simp [State.goto]⟩
    · exact ⟨⟨False.elim, fun hs => by simp at hs⟩, by simp⟩
  case setState =>
    rw [← Option.some.inj ht]
    exact ⟨⟨fun _ => hraised trivial, fun _ => rfl⟩, by simp [State.goto, State.setInterruptible]⟩
  case sched =>
    by_cases hr : s.running = true
    · rw [if_pos hr] at ht
      rw [← Option.some.inj ht]
      exact ⟨⟨False.elim, fun hs => by simp at hs⟩, by simp [hr]⟩
    · rw [if_neg hr] at ht
      rw [← Option.some.inj ht]
      exact ⟨⟨False.elim, fun hs => by simp at hs⟩, by simp [hr]⟩
  case asleep | parked =>
    obtain ⟨-, ht⟩ := Option.ite_none_right_eq_some.mp ht
    rw [← Option.some.inj ht]
    exact ⟨⟨False.elim, fun hs => by simp [State.goto] at hs⟩, by simp [State.goto]⟩
  case parkTest | parkSched =>
    rw [← Option.some.inj ht]
    simp only [State.goto]
    refine ⟨⟨fun hw => ?_, fun hs => ?_⟩, by simp⟩
    · dsimp only at hw
      split at hw <;> exact hw.elim
    · dsimp only at hs
      split at hs <;> simp at hs
  case parkMark =>
    rw [← Option.some.inj ht]
    refine ⟨⟨fun hw => ?_, fun hs => ?_⟩, by simp⟩
    · dsimp only at hw
      split at hw <;> exact hw.elim
    · dsimp only at hs
      split at hs <;> simp at hs
  all_goals
    rw [← Option.some.inj ht]
    exact ⟨⟨False.elim, fun hs => by simp [State.goto, State.setInterruptible] at hs⟩,
      by simp [State.goto, State.setInterruptible]⟩

theorem Tracked.step {a : Act} (h : Tracked s) (ht : s.step a = some t) : Tracked t := by
  by_cases ha : ∃ b, a = .thread b
  · obtain ⟨b, rfl⟩ := ha
    exact (h.thread ht).1
  · obtain ⟨hpc, -, hraised, hwoken⟩ := other_frame (fun b hb => ha ⟨b, hb⟩) ht
    refine ⟨fun hw => ?_, fun hs => ?_⟩
    · rw [hpc] at hw
      exact hraised (h.raised hw)
    · rw [hpc] at hs
      exact hwoken (h.woken hs)

/-- **One step goes to sleep with the flag set** exactly when it is not prompt. -/
theorem missed_step_iff {a : Act} (h : Tracked s) (hm : s.missed = false) (ht : s.step a = some t) :
    t.missed = false ↔ Prompt s a := by
  by_cases ha : ∃ b, a = .thread b
  · obtain ⟨b, rfl⟩ := ha
    rw [(h.thread ht).2, hm]
    by_cases hs : s.pc = .sched
    · have hraised := h.raised (by rw [hs]; trivial)
      have hwoken := h.woken hs
      simp only [Prompt, hs, hraised, hwoken, true_imp_iff]
      rcases s.woken <;> rcases s.wakeup <;> decide
    · simp [Prompt, hs]
  · have hframe := other_frame (fun b hb => ha ⟨b, hb⟩) ht
    rw [hframe.2.1, hm]
    rcases a with b | _ | _ | _ | _ | _ | _ | _ | _ | _ | _ | _
    case thread => exact absurd ⟨b, rfl⟩ ha
    all_goals exact ⟨fun _ => trivial, fun _ => rfl⟩

/-- **No wake-up is delayed**: when every sleep is prompt, the thread never enters `schedule_timeout`
asleep with `THREAD_WAKEUP` set. -/
theorem prompt_of_reach (h : Reach system Prompt s) : s.missed = false := by
  have hinv : Tracked s ∧ s.missed = false := by
    refine h.inv_of_start (I := fun s => Tracked s ∧ s.missed = false) (fun _ => id) ?_ ?_
    · exact ⟨tracked_start, rfl⟩
    · intro s a t hi hp ht
      exact ⟨hi.1.step ht, (missed_step_iff hi.1 hi.2 ht).mpr hp⟩
  exact hinv.2

/-! ### Runs -/

/-- The thread tests the flag and runs its hook. -/
def toLastWrite : List Act := List.replicate 5 (.thread false)

theorem prompt_of_reach_asleep : ∃ s, Reach system Prompt s ∧ s.pc = .asleep ∧ s.wakeup = true ∧
    s.missed = false := by
  have hout : (execIf system Prompt .start
      (toLastWrite ++ [.thread false, .thread false, .wakeup])).map (fun s => (s.pc, s.wakeup)) =
        some (.asleep, true) := by
    decide
  obtain ⟨s, hs, heq⟩ := Option.map_eq_some_iff.mp hout
  rw [Prod.mk.injEq] at heq
  have hr := Reach.of_execIf (.init rfl) hs
  exact ⟨s, hr, heq.1, heq.2, prompt_of_reach hr⟩

/-- **An overwritten wake-up**: it comes between the test of the flag and the last write of the task
state, and the thread goes to sleep with the flag set. -/
theorem overwritten_wake : ∃ s, Reach system (fun _ _ => True) s ∧ s.pc = .asleep ∧
    s.running = false ∧ s.wakeup = true ∧ s.wakers = 0 ∧ s.missed = true := by
  have hout : (exec system .start
      (toLastWrite ++ [.wakeup, .wakeupWake, .thread false, .thread false])).map
        (fun s => (s.pc, s.running, s.wakeup, s.wakers, s.missed)) =
          some (.asleep, false, true, 0, true) := by
    decide
  obtain ⟨s, hs, heq⟩ := Option.map_eq_some_iff.mp hout
  simp only [Prod.mk.injEq] at heq
  exact ⟨s, Reach.of_exec (.init rfl) hs, heq⟩

end Atbm6441.Sdio.Thread
