import Atbm6441.Sdio.Thread.Model

/-!
# Suspend and resume

`suspended_or_released` : a suspend request that returns, not by a timeout, finds the thread inside the
parking loop, and after a resume request the thread is not left parked with `THREAD_WAKEUP` set, in
runs where suspend and resume requests do not overlap, no completion is left over from an earlier
suspend, and no resume request tests `THREAD_SUSPENED` when the thread is about to set it.
`stale_completion` and `resume_slips` : in other runs neither holds.
-/

namespace Atbm6441.Sdio.Thread

open Atbm6441.Lib

/-- The thread is left asleep in the parking loop with `THREAD_WAKEUP` set: no call is under way that
is to wake it. -/
def State.LeftParked (s : State) : Prop :=
  s.pc = .parked ∧ s.running = false ∧ s.wakeup = true ∧ s.wakers = 0 ∧
    s.susSet = 0 ∧ s.susWake = 0 ∧ s.resClear = 0 ∧ s.resWake = 0

instance (s : State) : Decidable s.LeftParked :=
  inferInstanceAs (Decidable (s.pc = .parked ∧ s.running = false ∧ s.wakeup = true ∧ s.wakers = 0 ∧
    s.susSet = 0 ∧ s.susWake = 0 ∧ s.resClear = 0 ∧ s.resWake = 0))

/-- **A request is orderly**: suspend requests begin when no resume request is under way, and resume
requests when no suspend request is; a suspend request sets `THREAD_SHOULD_SUSPEND` when there is no
completion, or the thread is inside the parking loop; and a resume request does not test
`THREAD_SUSPENED` when the thread is about to set it, unless another is still to test it. -/
def Orderly (s : State) : Act → Prop
  | .suspend => s.resClear = 0 ∧ s.resWake = 0
  | .suspendSet => s.done = 0 ∨ s.pc.InLoop
  | .resume => s.susSet + s.susWake + s.susWait = 0
  | .resumeClear => s.pc = .parkMark → 2 ≤ s.resClear
  | _ => True

instance (s : State) : (a : Act) → Decidable (Orderly s a)
  | .suspend => inferInstanceAs (Decidable (s.resClear = 0 ∧ s.resWake = 0))
  | .suspendSet => inferInstanceAs (Decidable (s.done = 0 ∨ s.pc.InLoop))
  | .resume => inferInstanceAs (Decidable (s.susSet + s.susWake + s.susWait = 0))
  | .resumeClear => inferInstanceAs (Decidable (s.pc = .parkMark → 2 ≤ s.resClear))
  | .thread _ | .timeout | .wakeup | .wakeupWake | .suspendWake | .suspendTake | .suspendTimeout
  | .resumeWake => .isTrue trivial

/-! ### The invariant -/

/-- The thread has set `THREAD_SUSPENED` and not left `schedule`. -/
def Pc.IsParking : Pc → Prop
  | .parkComplete | .parkSched | .parked => True
  | _ => False

structure Inv (s : State) : Prop where
  /-- a resume request has cleared `THREAD_SHOULD_SUSPEND`, and no suspend request has set it -/
  resume : 0 < s.resClear + s.resWake →
    s.shouldSuspend = false ∧ s.susSet + s.susWake + s.susWait = 0
  set : 0 < s.susWake + s.susWait → s.shouldSuspend = true
  /-- a completion that a suspend request finds is a new one -/
  fresh : 0 < s.susWake + s.susWait → 0 < s.done → s.pc.InLoop
  /-- `THREAD_SUSPENED` is cleared after `THREAD_SHOULD_SUSPEND` -/
  unmarked : s.suspended = true → s.shouldSuspend = false → 0 < s.resClear
  mark : s.pc = .parkMark → s.shouldSuspend = true ∨ 0 < s.resClear
  loop : s.suspended = true → s.pc.InLoop ∨ s.pc = .parkEnd ∧ 0 < s.resClear
  /-- what is parked is marked, or has been woken or is to be woken by a resume request -/
  parked : s.pc.IsParking → s.suspended = true ∨ s.running = true ∨ 0 < s.resWake
  resumed : s.resumed = true → s.shouldSuspend = false ∧ s.susSet + s.susWake + s.susWait = 0
  stray : s.stray = false

variable {s t : State}

theorem inv_start : Inv .start := by
  constructor <;> simp [State.start, Pc.IsParking]

/-- `wake_up_process` wakes whatever is parked. -/
theorem Inv.awake (h : Inv s) : Inv s.wakeUpProcess :=
  { h with parked := fun _ => .inr (.inl rfl) }

/-- The thread moves on, and the bits it shares for suspending stay as they are: it enters the loop
from outside, stays inside, or leaves it when it is not to be suspended. -/
theorem Inv.move (h : Inv s) {pc : Pc} {running timedOut wakeup raised woken missed : Bool}
    (hloop : s.pc.InLoop → pc.InLoop ∨ pc = .parkEnd ∧ s.shouldSuspend = false)
    (hend : s.pc ≠ .parkEnd) (hmark : pc = .parkMark → s.shouldSuspend = true)
    (hpark : pc.IsParking → s.pc.IsParking ∧ running = s.running) :
    Inv { s with
      pc := pc
      running := running
      timedOut := timedOut
      wakeup := wakeup
      raised := raised
      woken := woken
      missed := missed } := by
  refine { h with fresh := fun hsus hdone => ?_, mark := fun hpc => .inl (hmark hpc),
                  loop := fun hs => ?_, parked := fun hpc => ?_ }
  · rcases hloop (h.fresh hsus hdone) with hin | ⟨-, hclear⟩
    · exact hin
    · simp [h.set hsus] at hclear
  · rcases h.loop hs with hin | ⟨hpc, -⟩
    · rcases hloop hin with hin | ⟨hpc, hclear⟩
      · exact .inl hin
      · exact .inr ⟨hpc, h.unmarked hs hclear⟩
    · exact absurd hpc hend
  · obtain ⟨hold, rfl⟩ := hpark hpc
    exact h.parked hold

/-! ### Steps -/

theorem Inv.thread {b : Bool} (h : Inv s) (ht : s.step (.thread b) = some t) : Inv t := by
  simp only [State.step] at ht
  unfold State.thread at ht
  rcases hpc : s.pc with _ | _ | _ | _ | _ | _ | _ | _ | _ | _ | _ | _ | _ | _ | _ | _ | _ | _ | _ | _ <;>
    simp only [hpc] at ht
  case parkMark =>
    -- the thread is to be suspended, or a resume request will find the bit
    rw [← Option.some.inj ht]
    have hin : (if s.suspended = true then Pc.parkSched else Pc.parkComplete).InLoop := by
      split_ifs <;> trivial
    refine { h with fresh := fun _ _ => hin, unmarked := fun _ hclear => ?_, mark := fun hm => ?_,
                    loop := fun _ => .inl hin, parked := fun _ => .inl rfl }
    · rcases h.mark hpc with hset | hres
      · exact absurd hset (by simp [show s.shouldSuspend = false from hclear])
      · exact hres
    · dsimp only at hm
      split_ifs at hm
  case parkComplete =>
    rw [← Option.some.inj ht]
    have hparked := h.parked (by rw [hpc]; trivial)
    exact { h with fresh := fun _ _ => trivial, mark := fun hm => by simp at hm,
                   loop := fun _ => .inl trivial, parked := fun _ => hparked }
  case parkEnd =>
    have hfresh := h.fresh
    rw [hpc] at hfresh
    rw [← Option.some.inj ht]
    exact { h with fresh := hfresh, unmarked := fun hs => by simp at hs,
                   mark := fun hm => by simp at hm, loop := fun hs => by simp at hs,
                   parked := fun hp => hp.elim }
  case parkTest =>
    rw [← Option.some.inj ht]
    by_cases hs : s.shouldSuspend = true
    · rw [if_pos hs]
      exact h.move (fun _ => .inl trivial) (by simp [hpc]) (fun _ => hs) False.elim
    · rw [if_neg hs]
      exact h.move (fun _ => .inr ⟨rfl, Bool.eq_false_iff.mpr hs⟩) (by simp [hpc]) (by simp)
        False.elim
  case parkSched =>
    rw [← Option.some.inj ht]
    split_ifs
    · exact h.move (fun _ => .inl trivial) (by simp [hpc]) (by simp) False.elim
    · exact h.move (fun _ => .inl trivial) (by simp [hpc]) (by simp)
        (fun _ => ⟨by rw [hpc]; trivial, rfl⟩)
  case parked =>
    obtain ⟨-, ht⟩ := Option.ite_none_right_eq_some.mp ht
    rw [← Option.some.inj ht]
    exact h.move (fun _ => .inl trivial) (by simp [hpc]) (by simp) False.elim
  case parkState =>
    rw [← Option.some.inj ht]
    exact h.move (fun _ => .inl trivial) (by simp [hpc]) (by simp) False.elim
  case asleep =>
    obtain ⟨-, ht⟩ := Option.ite_none_right_eq_some.mp ht
    rw [← Option.some.inj ht]
    exact h.move (by simp [hpc, Pc.InLoop]) (by simp [hpc]) (by simp) False.elim
  case test | testSuspend | period | hook | sched =>
    split_ifs at ht <;> rw [← Option.some.inj ht] <;>
      exact h.move (by simp [hpc, Pc.InLoop]) (by simp [hpc]) (by simp) False.elim
  all_goals
    rw [← Option.some.inj ht]
    exact h.move (by simp [hpc, Pc.InLoop]) (by simp [hpc]) (by simp) False.elim

/-- **A suspend request begins**: where it returns at once, no resume request is to release the
thread, so it is inside the loop. -/
theorem Inv.suspend (h : Inv s) (ho : Orderly s .suspend) (ht : s.step .suspend = some t) :
    Inv t := by
  obtain ⟨hclear, hwake⟩ := ho
  simp only [State.step] at ht
  by_cases hs : s.suspended = true
  · rw [if_pos hs] at ht
    rw [← Option.some.inj ht]
    have hin : s.pc.InLoop := by
      rcases h.loop hs with hin | ⟨-, hpos⟩
      · exact hin
      · omega
    refine { h with resumed := fun hr => by simp [State.suspendReturns] at hr, stray := ?_ }
    simp [State.suspendReturns, h.stray, hin]
  · rw [if_neg hs] at ht
    rw [← Option.some.inj ht]
    refine { h with resume := fun hpos => ?_, resumed := fun hr => by simp at hr }
    dsimp only at hpos
    omega

theorem Inv.suspendSet (h : Inv s) (ho : Orderly s .suspendSet) (ht : s.step .suspendSet = some t) :
    Inv t := by
  obtain ⟨hset, ht⟩ := Option.ite_none_right_eq_some.mp ht
  have hnone : ¬ 0 < s.resClear + s.resWake := fun hpos => by
    have hsus := (h.resume hpos).2
    omega
  rw [← Option.some.inj ht]
  refine { h with resume := fun hpos => absurd hpos hnone, set := fun _ => rfl,
                  fresh := fun _ hdone => ho.resolve_left ?_, unmarked := fun _ hc => by simp at hc,
                  mark := fun _ => .inl rfl, resumed := fun hr => ?_ }
  · dsimp only at hdone
    omega
  · have hsus := (h.resumed hr).2
    omega

theorem Inv.suspendWake (h : Inv s) (ht : s.step .suspendWake = some t) : Inv t := by
  obtain ⟨hw, ht⟩ := Option.ite_none_right_eq_some.mp ht
  have hsum : s.susWake - 1 + (s.susWait + 1) = s.susWake + s.susWait := by omega
  have hall : s.susSet + (s.susWake - 1) + (s.susWait + 1) = s.susSet + s.susWake + s.susWait := by
    omega
  have hinv : Inv { s with susWake := s.susWake - 1, susWait := s.susWait + 1 } := by
    refine { h with resume := fun hpos => ?_, set := fun hpos => ?_, fresh := fun hpos => ?_,
                    resumed := fun hr => ?_ }
    · exact ⟨(h.resume hpos).1, hall.trans (h.resume hpos).2⟩
    · exact h.set (by dsimp only at hpos; omega)
    · exact h.fresh (by dsimp only at hpos; omega)
    · exact ⟨(h.resumed hr).1, hall.trans (h.resumed hr).2⟩
  rw [← Option.some.inj ht]
  exact hinv.awake

theorem Inv.waitEnds (h : Inv s) {done : ℕ} (hd : done ≤ s.done) :
    Inv { s with susWait := s.susWait - 1, done := done } := by
  have hle : s.susSet + s.susWake + s.susWait = 0 →
      s.susSet + s.susWake + (s.susWait - 1) = 0 := by omega
  refine { h with resume := fun hpos => ?_, set := fun hpos => ?_, fresh := fun hpos hdone => ?_,
                  resumed := fun hr => ?_ }
  · exact ⟨(h.resume hpos).1, hle (h.resume hpos).2⟩
  · exact h.set (by dsimp only at hpos; omega)
  · exact h.fresh (by dsimp only at hpos; omega) (by dsimp only at hdone; omega)
  · exact ⟨(h.resumed hr).1, hle (h.resumed hr).2⟩

/-- **A suspend request takes a completion**: it is a new one, so the thread is inside the loop. -/
theorem Inv.suspendTake (h : Inv s) (ht : s.step .suspendTake = some t) : Inv t := by
  obtain ⟨⟨hwait, hdone⟩, ht⟩ := Option.ite_none_right_eq_some.mp ht
  have hin := h.fresh (by omega) hdone
  rw [← Option.some.inj ht]
  refine { h.waitEnds (Nat.sub_le s.done 1) with stray := ?_ }
  simp [State.suspendReturns, h.stray, hin]

theorem Inv.suspendTimeout (h : Inv s) (ht : s.step .suspendTimeout = some t) : Inv t := by
  obtain ⟨-, ht⟩ := Option.ite_none_right_eq_some.mp ht
  rw [← Option.some.inj ht]
  exact h.waitEnds (Nat.le_refl s.done)

theorem Inv.resumeBegins (h : Inv s) (ho : Orderly s .resume) (ht : s.step .resume = some t) :
    Inv t := by
  have hsus : s.susSet + s.susWake + s.susWait = 0 := ho
  rw [← Option.some.inj ht]
  refine { h with resume := fun _ => ⟨rfl, hsus⟩, set := fun hpos => ?_, unmarked := fun _ _ => ?_,
                  mark := fun _ => ?_, loop := fun hs => ?_, resumed := fun _ => ⟨rfl, hsus⟩ }
  · dsimp only at hpos
    omega
  · exact Nat.succ_pos s.resClear
  · exact .inr (Nat.succ_pos s.resClear)
  · exact (h.loop hs).imp id fun hend => ⟨hend.1, Nat.succ_pos s.resClear⟩

/-- **A resume request releases the thread**: what it finds marked it is to wake. -/
theorem Inv.resumeClear (h : Inv s) (ho : Orderly s .resumeClear)
    (ht : s.step .resumeClear = some t) : Inv t := by
  obtain ⟨hpos, ht⟩ := Option.ite_none_right_eq_some.mp ht
  have hres := h.resume (by omega)
  have hmark : s.pc = .parkMark → 0 < s.resClear - 1 := fun hpc => by
    have htwo : 2 ≤ s.resClear := ho hpc
    omega
  by_cases hs : s.suspended = true
  · rw [if_pos hs] at ht
    rw [← Option.some.inj ht]
    exact { h with resume := fun _ => hres, unmarked := fun hs => by simp at hs,
                   mark := fun hpc => .inr (hmark hpc), loop := fun hs => by simp at hs,
                   parked := fun _ => .inr (.inr (Nat.succ_pos s.resWake)) }
  · rw [if_neg hs] at ht
    rw [← Option.some.inj ht]
    exact { h with resume := fun _ => hres, unmarked := fun hs' => absurd hs' hs,
                   mark := fun hpc => .inr (hmark hpc), loop := fun hs' => absurd hs' hs,
                   resumed := fun _ => hres }

theorem Inv.resumeWake (h : Inv s) (ht : s.step .resumeWake = some t) : Inv t := by
  obtain ⟨hpos, ht⟩ := Option.ite_none_right_eq_some.mp ht
  have hres := h.resume (by omega)
  rw [← Option.some.inj ht]
  exact { h with resume := fun _ => hres, parked := fun _ => .inr (.inl rfl),
                 resumed := fun _ => hres }

theorem inv_step {a : Act} (h : Inv s) (ho : Orderly s a) (ht : s.step a = some t) : Inv t := by
  rcases a with b | _ | _ | _ | _ | _ | _ | _ | _ | _ | _ | _
  case thread => exact h.thread ht
  case timeout =>
    obtain ⟨-, ht⟩ := Option.ite_none_right_eq_some.mp ht
    rw [← Option.some.inj ht]
    exact h.awake
  case wakeup =>
    simp only [State.step] at ht
    split_ifs at ht <;> rw [← Option.some.inj ht] <;> exact { h with }
  case wakeupWake =>
    obtain ⟨-, ht⟩ := Option.ite_none_right_eq_some.mp ht
    have hinv : Inv { s with wakers := s.wakers - 1 } := { h with }
    rw [← Option.some.inj ht]
    exact hinv.awake
  case suspend => exact h.suspend ho ht
  case suspendSet => exact h.suspendSet ho ht
  case suspendWake => exact h.suspendWake ht
  case suspendTake => exact h.suspendTake ht
  case suspendTimeout => exact h.suspendTimeout ht
  case resume => exact h.resumeBegins ho ht
  case resumeClear => exact h.resumeClear ho ht
  case resumeWake => exact h.resumeWake ht

/-- **Suspended or released**: when every request is orderly, a suspend request that returns without a
timeout leaves the thread inside the parking loop, and after a resume request has returned, with no
suspend request since, the thread is not left parked with `THREAD_WAKEUP` set. -/
theorem suspended_or_released (h : Reach system Orderly s) :
    s.stray = false ∧ (s.resumed = true → ¬ s.LeftParked) := by
  have hinv : Inv s := h.inv_of_start (I := Inv) (fun _ => id) inv_start fun _ _ _ => inv_step
  refine ⟨hinv.stray, ?_⟩
  rintro hr ⟨hpc, hrun, -, -, -, -, hclear, hwake⟩
  have hmarked : s.suspended = true := by
    rcases hinv.parked (by rw [hpc]; trivial) with hs | hr | hpos
    · exact hs
    · simp [hrun] at hr
    · omega
  have hpos := hinv.unmarked hmarked (hinv.resumed hr).1
  omega

/-! ### Runs -/

/-- The thread tests its flags and parks. -/
def parks : List Act := List.replicate 8 (.thread false)

/-- A suspend request up to its wait. -/
def suspends : List Act := [.suspend, .suspendSet, .suspendWake]

theorem suspended_or_released_both : ∃ s, Reach system Orderly s ∧ s.resumed = true ∧
    s.wakeup = true ∧ s.pc = .parked ∧ s.stray = false ∧ (s.resumed = true → ¬ s.LeftParked) := by
  let as : List Act := suspends ++ parks ++ [.suspendTake, .wakeup, .resume, .resumeClear, .resumeWake]
  have hout : (execIf system Orderly .start as).map (fun s => (s.resumed, s.wakeup, s.pc)) =
      some (true, true, .parked) := by
    decide
  obtain ⟨s, hs, heq⟩ := Option.map_eq_some_iff.mp hout
  simp only [Prod.mk.injEq] at heq
  obtain ⟨hres, hwakeup, hpc⟩ := heq
  have hr := Reach.of_execIf (.init rfl) hs
  exact ⟨s, hr, hres, hwakeup, hpc, suspended_or_released hr⟩

/-- **A stale completion**: a suspend request times out, the thread parks later and is resumed; the
next suspend request takes that completion when the thread is outside of the wait loop. -/
theorem stale_completion : ∃ s, Reach system (fun _ _ => True) s ∧ s.stray = true ∧ s.pc = .work := by
  let first : List Act := suspends ++ [.suspendTimeout] ++ parks ++ [.resume, .resumeClear, .resumeWake]
  let second : List Act := [.wakeup] ++ List.replicate 8 (.thread false) ++ suspends ++ [.suspendTake]
  have hout : (exec system .start (first ++ second)).map (fun s => (s.stray, s.pc)) =
      some (true, .work) := by
    decide
  obtain ⟨s, hs, heq⟩ := Option.map_eq_some_iff.mp hout
  rw [Prod.mk.injEq] at heq
  exact ⟨s, Reach.of_exec (.init rfl) hs, heq⟩

/-- **A resume that slips in**: it comes between the thread's test of `THREAD_SHOULD_SUSPEND` and its
setting of `THREAD_SUSPENED`, and the thread parks with a wake-up that came before. -/
theorem resume_slips : ∃ s, Reach system (fun _ _ => True) s ∧ s.resumed = true ∧ s.LeftParked := by
  let as : List Act := suspends ++ [.suspendTimeout, .thread false, .thread false, .wakeup,
    .wakeupWake, .thread false, .thread false, .thread false, .resume, .resumeClear]
  have hout : (exec system .start (as ++ List.replicate 3 (.thread false))).map
      (fun s => (s.resumed, decide s.LeftParked)) = some (true, true) := by
    decide
  obtain ⟨s, hs, heq⟩ := Option.map_eq_some_iff.mp hout
  rw [Prod.mk.injEq] at heq
  exact ⟨s, Reach.of_exec (.init rfl) hs, heq.1, of_decide_eq_true heq.2⟩

end Atbm6441.Sdio.Thread
