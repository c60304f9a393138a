import Atbm6441.Lib.Progress
import Atbm6441.Lib.Ring

/-!
# The work queue of the RTOS port

`queue_work` and `workqueue_work` of `atbm_os_queue.c`, with the links of the works. A work is taken
out of the ring when its function has returned, and `queue_work` does not test whether a work is in
the ring.

* `link_iff` : queueing a work keeps the ring exactly when the work is not in it;
* `every_work_runs` : in an infinite run in which no work is queued while it is in the ring, the
  ring is the queue of the works whose functions have not returned, and the function of each is
  called;
* `requeue_loses` : a work that is queued again while it is in the ring takes others out.
-/

namespace Atbm6441.Os.WorkQueue

open Atbm6441.Lib

universe u

/-! ### The queue and its thread -/

/-- Where `workqueue_work` is. -/
inductive Pc (W : Type u)
  /-- `down(&wq->sem_sync)` -/
  | down
  /-- `mutex_lock(&wq->mutex_prot)` -/
  | lock
  /-- the test of the loop, with `work` or `&wq->work_head` -/
  | loop (work : Option W)
  /-- in `work->func` -/
  | run (work : W)

/-- The `next` and `prev` of the works and of `work_head`, which is `none`; `sem_sync`, and the
calls of `queue_work` that are to release it. -/
structure State (W : Type u) where
  next : Option W → Option W
  prev : Option W → Option W
  sem : ℕ
  toUp : ℕ
  pc : Pc W

inductive Act (W : Type u)
  /-- another thread calls `queue_work`, which releases the mutex -/
  | queue (work : W)
  /-- ... and the semaphore -/
  | up
  /-- the running function calls `queue_work`; it holds the mutex already -/
  | queueIn (work : W)
  /-- a step of `workqueue_work` -/
  | worker
deriving DecidableEq

/-- The mutex is free. -/
def Pc.free {W : Type u} : Pc W → Bool
  | .down | .lock => true
  | .loop _ | .run _ => false

variable {W : Type u} [DecidableEq W]

namespace State

/-- The assignments of `queue_work`. -/
def link (s : State W) (work : W) : State W :=
  let prev := Function.update s.prev (some work) (s.prev none)
  let next := Function.update s.next (prev none) (some work)
  { s with
    next := Function.update next (some work) none
    prev := Function.update prev none (some work) }

/-- The assignments of `workqueue_work` after `work->func`; `work` is the next work. -/
def unlink (s : State W) (work : W) : State W :=
  let next := Function.update s.next (s.prev (some work)) (s.next (some work))
  { s with
    next := next
    prev := Function.update s.prev (next (some work)) (s.prev (some work))
    pc := .loop (next (some work)) }

/-- `workqueue_work`. -/
def worker (s : State W) : Option (State W) :=
  match s.pc with
  | .down => if 0 < s.sem then some { s with sem := s.sem - 1, pc := .lock } else none
  | .lock => some { s with pc := .loop (s.next none) }
  | .loop none => some { s with pc := .down }
  | .loop (some work) => some { s with pc := .run work }
  | .run work => some (s.unlink work)

def step (s : State W) : Act W → Option (State W)
  | .queue work => if s.pc.free then some { s.link work with toUp := s.toUp + 1 } else none
  | .up => if 0 < s.toUp then some { s with sem := s.sem + 1, toUp := s.toUp - 1 } else none
  | .queueIn work =>
    match s.pc with
    | .run _ => some { s.link work with sem := s.sem + 1 }
    | .down | .lock | .loop _ => none
  | .worker => s.worker

/-- `create_singlethread_workqueue`; the links of the works may be anything. -/
def Created (s : State W) : Prop :=
  s.next none = none ∧ s.prev none = none ∧ s.sem = 0 ∧ s.toUp = 0 ∧ s.pc = .down

/-- The links from `work_head` lead to the work. -/
def Queued (s : State W) (work : W) : Prop := ∃ n, s.next^[n] none = some work

end State

def system (W : Type u) [DecidableEq W] : System (State W) (Act W) where
  init := State.Created
  step := State.step

/-- **A work is queued** only when it is not in the ring: not again before its function has
returned. -/
def Unqueued (s : State W) : Act W → Prop
  | .queue work | .queueIn work => ¬ s.Queued work
  | .up | .worker => True

/-! ### What the queue is for -/

/-- **A queue**: a step adds a work at the end, or takes out the first when its function returns. -/
def fifo (s : State W) : Act W → List W → List W
  | .queue work, l | .queueIn work, l => l ++ [work]
  | .up, l => l
  | .worker, l =>
    match s.pc with
    | .run _ => l.tail
    | .down | .lock | .loop _ => l

/-- The works that have been queued and whose functions have not returned, at each time of a run. -/
def pending (E : Execution (system W)) : ℕ → List W
  | 0 => []
  | n + 1 =>
    match E.label n with
    | none => pending E n
    | some a => fifo (E.state n) a (pending E n)

/-- The function of the work is called. -/
def Calls (E : Execution (system W)) (work : W) (n : ℕ) : Prop :=
  E.label n = some .worker ∧ (E.state n).pc = .loop (some work)

variable {s t : State W} {l : List W} {work : W}

/-! ### What a step does -/

/-- **A step of the thread.** -/
theorem worker_cases (h : s.worker = some t) :
    (s.pc = .down ∧ 0 < s.sem ∧ t = { s with sem := s.sem - 1, pc := .lock }) ∨
    (s.pc = .lock ∧ t = { s with pc := .loop (s.next none) }) ∨
    (s.pc = .loop none ∧ t = { s with pc := .down }) ∨
    (∃ w, s.pc = .loop (some w) ∧ t = { s with pc := .run w }) ∨
    ∃ w, s.pc = .run w ∧ t = s.unlink w := by
  unfold State.worker at h
  rcases hpc : s.pc with _ | _ | w | w
  · rw [hpc] at h
    obtain ⟨hsem, h⟩ := Option.ite_none_right_eq_some.mp h
    exact Or.inl ⟨rfl, hsem, (Option.some.inj h).symm⟩
  · rw [hpc] at h
    exact Or.inr (Or.inl ⟨rfl, (Option.some.inj h).symm⟩)
  · rcases w with _ | w <;> rw [hpc] at h
    · exact Or.inr (Or.inr (Or.inl ⟨rfl, (Option.some.inj h).symm⟩))
    · exact Or.inr (Or.inr (Or.inr (Or.inl ⟨w, rfl, (Option.some.inj h).symm⟩)))
  · rw [hpc] at h
    exact Or.inr (Or.inr (Or.inr (Or.inr ⟨w, rfl, (Option.some.inj h).symm⟩)))

/-- **A work is queued**, with the thread waiting or in a function. -/
theorem queue_cases {a : Act W} (ha : a = .queue work ∨ a = .queueIn work)
    (h : s.step a = some t) : t.next = (s.link work).next ∧ t.prev = (s.link work).prev ∧
      t.pc = s.pc ∧ s.sem ≤ t.sem ∧ 0 < t.sem + t.toUp ∧ ∀ p, s.pc ≠ .loop p := by
  rcases ha with rfl | rfl
  · obtain ⟨hfree, h⟩ := Option.ite_none_right_eq_some.mp h
    obtain rfl := Option.some.inj h
    refine ⟨rfl, rfl, rfl, Nat.le_refl _, Nat.add_pos_right _ (Nat.succ_pos _), fun p hp => ?_⟩
    rw [hp] at hfree
    cases hfree
  · unfold State.step at h
    rcases hpc : s.pc with _ | _ | v | v <;> rw [hpc] at h
    · cases h
    · cases h
    · cases h
    · obtain rfl := Option.some.inj h
      exact ⟨rfl, rfl, hpc, Nat.le_succ _, Nat.add_pos_left (Nat.succ_pos _) _, nofun⟩

theorem up_cases (h : s.step .up = some t) : t.next = s.next ∧ t.prev = s.prev ∧
    t.pc = s.pc ∧ s.sem ≤ t.sem ∧ 0 < t.sem ∧ 0 < s.toUp := by
  obtain ⟨hup, h⟩ := Option.ite_none_right_eq_some.mp h
  obtain rfl := Option.some.inj h
  exact ⟨rfl, rfl, rfl, Nat.le_succ _, Nat.succ_pos _, hup⟩

theorem toUp_le {a : Act W} (ha : a ≠ .up) (h : s.step a = some t) : s.toUp ≤ t.toUp := by
  cases a with
  | queue w =>
    obtain ⟨-, h⟩ := Option.ite_none_right_eq_some.mp h
    obtain rfl := Option.some.inj h
    exact Nat.le_succ _
  | up => exact absurd rfl ha
  | queueIn w =>
    unfold State.step at h
    rcases hpc : s.pc with _ | _ | v | v <;> rw [hpc] at h
    · cases h
    · cases h
    · cases h
    · obtain rfl := Option.some.inj h
      exact Nat.le_refl _
  | worker =>
    rcases worker_cases h with ⟨-, -, rfl⟩ | ⟨-, rfl⟩ | ⟨-, rfl⟩ | ⟨w, -, rfl⟩ | ⟨w, -, rfl⟩ <;>
      exact Nat.le_refl _

/-! ### The links -/

theorem ring_link (h : Ring s.next s.prev none (l.map some)) (hw : work ∉ l) :
    Ring (s.link work).next (s.link work).prev none ((l ++ [work]).map some) := by
  have hmem : some work ∉ none :: l.map some := by simp [hw]
  rw [List.map_append]
  exact h.linkTail hmem

omit [DecidableEq W] in
theorem queued_iff (h : Ring s.next s.prev none (l.map some)) : s.Queued work ↔ work ∈ l := by
  unfold State.Queued
  rw [h.reached_iff (Option.some_ne_none work), List.mem_map]
  simp

omit [DecidableEq W] in
theorem next_head {p : Option W} (h : Linked s.next s.prev p (l.map some) none) :
    s.next p = l.head? := by
  rw [h.next_head]
  cases l <;> rfl

/-- **Queueing a work keeps the ring** exactly when the work is not in it. -/
theorem link_iff (h : Ring s.next s.prev none (l.map some)) :
    (∃ l', Ring (s.link work).next (s.link work).prev none l') ↔ ¬ s.Queued work := by
  rw [queued_iff h]
  constructor
  · rintro ⟨l', hl'⟩ hw
    exact h.not_linkTail (List.mem_map_of_mem hw) l' hl'
  · exact fun hw => ⟨_, ring_link h hw⟩

/-- The first work is taken out; it still leads to the next one. -/
theorem ring_unlink (h : Ring s.next s.prev none ((work :: l).map some)) :
    Ring (s.unlink work).next (s.unlink work).prev none (l.map some) ∧
      (s.unlink work).pc = .loop l.head? := by
  have hr : Ring (s.unlink work).next (s.unlink work).prev none (l.map some) :=
    Ring.unlink (l := []) h
  obtain ⟨-, -, hfirst, hrest⟩ := h
  have hnext : (s.unlink work).next (some work) = l.head? := by
    show Function.update s.next (s.prev (some work)) (s.next (some work)) (some work) = _
    rw [hfirst, Function.update_of_ne (Option.some_ne_none work)]
    exact next_head hrest
  exact ⟨hr, congrArg Pc.loop hnext⟩

/-! ### The invariant -/

/-- The thread is at the first work of the queue, and does not wait for ever with a work in it. -/
def At (s : State W) (l : List W) : Prop :=
  match s.pc with
  | .down => l ≠ [] → 0 < s.sem + s.toUp
  | .lock => True
  | .loop work => work = l.head?
  | .run work => some work = l.head?

/-- The links are those of the queue. -/
structure Inv (s : State W) (l : List W) : Prop where
  ring : Ring s.next s.prev none (l.map some)
  pc : At s l

omit [DecidableEq W] in
theorem inv_created (h : s.Created) : Inv s [] := by
  obtain ⟨hnext, hprev, -, -, hpc⟩ := h
  refine ⟨⟨List.nodup_singleton _, hnext, hprev⟩, ?_⟩
  unfold At
  rw [hpc]
  exact fun hne => absurd rfl hne

omit [DecidableEq W] in
theorem At.append (h : At s l) (hpc : t.pc = s.pc) (hsem : 0 < t.sem + t.toUp)
    (hloop : ∀ p, s.pc ≠ .loop p) : At t (l ++ [work]) := by
  unfold At at h ⊢
  rw [hpc]
  rcases hs : s.pc with _ | _ | p | v <;> rw [hs] at h
  · exact fun _ => hsem
  · trivial
  · exact absurd hs (hloop p)
  · cases l with
    | nil => cases h
    | cons _ _ => exact h

/-- **A step** of a run without a work that is queued twice is one of the queue. -/
theorem Inv.step (h : Inv s l) {a : Act W} (ha : Unqueued s a) (ht : s.step a = some t) :
    Inv t (fifo s a l) := by
  obtain ⟨hring, hat⟩ := h
  have hqueue : ∀ w, a = .queue w ∨ a = .queueIn w → ¬ s.Queued w → Inv t (l ++ [w]) := by
    intro w hw hnot
    obtain ⟨hnext, hprev, hpc, -, hsem, hloop⟩ := queue_cases hw ht
    refine ⟨?_, hat.append hpc hsem hloop⟩
    rw [hnext, hprev]
    exact ring_link hring fun hmem => hnot ((queued_iff hring).mpr hmem)
  cases a with
  | queue w => exact hqueue w (Or.inl rfl) ha
  | queueIn w => exact hqueue w (Or.inr rfl) ha
  | up =>
    obtain ⟨hnext, hprev, hpc, -, hsem, -⟩ := up_cases ht
    refine ⟨?_, ?_⟩
    · rw [hnext, hprev]
      exact hring
    · show At t l
      unfold At at hat ⊢
      rw [hpc]
      rcases hs : s.pc with _ | _ | p | v <;> rw [hs] at hat
      · exact fun _ => Nat.add_pos_left hsem _
      · trivial
      · exact hat
      · exact hat
  | worker =>
    unfold At at hat
    unfold fifo
    rcases worker_cases ht with ⟨hpc, -, rfl⟩ | ⟨hpc, rfl⟩ | ⟨hpc, rfl⟩ | ⟨w, hpc, rfl⟩ |
      ⟨w, hpc, rfl⟩ <;> rw [hpc] at hat ⊢
    · exact ⟨hring, trivial⟩
    · exact ⟨hring, next_head hring.2⟩
    · obtain rfl : l = [] := List.head?_eq_none_iff.mp hat.symm
      exact ⟨hring, fun hne => absurd rfl hne⟩
    · exact ⟨hring, hat⟩
    · cases l with
      | nil => cases hat
      | cons v l =>
        obtain rfl : w = v := Option.some.inj hat
        obtain ⟨hring, hnext⟩ := ring_unlink hring
        refine ⟨hring, ?_⟩
        show At (s.unlink w) l
        unfold At
        rw [hnext]

/-! ### A run -/

/-- A work waits for its function to be called. -/
def Waits (s : State W) (l : List W) (work : W) : Prop := work ∈ l ∧ ∀ v, s.pc = .run v → v ≠ work

/-- The steps of `workqueue_work` up to the call of the function of the work at a place of the
queue. -/
def toCall (i : ℕ) : Pc W → ℕ
  | .down => 2 * i + 2
  | .lock => 2 * i + 1
  | .loop _ => 2 * i
  | .run _ => 2 * i - 1

/-- A step brings `workqueue_work` nearer to a work that waits, unless it calls its function. -/
theorem Waits.step (hw : Waits s l work) (h : Inv s l) {a : Act W}
    (hcall : ¬ (a = .worker ∧ s.pc = .loop (some work))) (ht : s.step a = some t) :
    Waits t (fifo s a l) work ∧
      toCall ((fifo s a l).idxOf work) t.pc ≤ toCall (l.idxOf work) s.pc ∧
      (a = .worker → toCall ((fifo s a l).idxOf work) t.pc < toCall (l.idxOf work) s.pc) := by
  obtain ⟨hmem, hrun⟩ := hw
  have hqueue : ∀ w, a = .queue w ∨ a = .queueIn w → Waits t (l ++ [w]) work ∧
      toCall ((l ++ [w]).idxOf work) t.pc ≤ toCall (l.idxOf work) s.pc := by
    intro w hw
    obtain ⟨-, -, hpc, -⟩ := queue_cases hw ht
    rw [List.idxOf_append_of_mem hmem, hpc]
    exact ⟨⟨List.mem_append_left _ hmem, fun v hv => hrun v (hpc ▸ hv)⟩, Nat.le_refl _⟩
  cases a with
  | queue w => exact ⟨(hqueue w (Or.inl rfl)).1, (hqueue w (Or.inl rfl)).2, nofun⟩
  | queueIn w => exact ⟨(hqueue w (Or.inr rfl)).1, (hqueue w (Or.inr rfl)).2, nofun⟩
  | up =>
    obtain ⟨-, -, hpc, -⟩ := up_cases ht
    rw [hpc]
    exact ⟨⟨hmem, fun v hv => hrun v (hpc ▸ hv)⟩, Nat.le_refl _, nofun⟩
  | worker =>
    have hat := h.pc
    unfold At at hat
    unfold fifo
    rcases worker_cases ht with ⟨hpc, -, rfl⟩ | ⟨hpc, rfl⟩ | ⟨hpc, rfl⟩ | ⟨w, hpc, rfl⟩ |
      ⟨w, hpc, rfl⟩ <;> rw [hpc] at hat ⊢ <;> dsimp only [toCall]
    · exact ⟨⟨hmem, nofun⟩, by omega, fun _ => by omega⟩
    · exact ⟨⟨hmem, nofun⟩, by omega, fun _ => by omega⟩
    · rw [List.head?_eq_none_iff.mp hat.symm] at hmem
      cases hmem
    · -- the function of another work is called, which is in front
      have hne : w ≠ work := fun heq => hcall ⟨rfl, heq ▸ hpc⟩
      cases l with
      | nil => cases hmem
      | cons v l =>
        obtain rfl : w = v := Option.some.inj hat
        rw [List.idxOf_cons_ne _ hne]
        refine ⟨⟨hmem, fun v hv => ?_⟩, by omega, fun _ => by omega⟩
        obtain rfl := Pc.run.inj hv
        exact hne
    · have hne := hrun w hpc
      cases l with
      | nil => cases hmem
      | cons v l =>
        obtain rfl : w = v := Option.some.inj hat
        obtain ⟨-, hnext⟩ := ring_unlink h.ring
        rw [List.idxOf_cons_ne _ hne, List.tail_cons, hnext]
        dsimp only
        refine ⟨⟨(List.mem_cons.mp hmem).resolve_left (Ne.symm hne), fun v hv => ?_⟩, by omega,
          fun _ => by omega⟩
        rw [hnext] at hv
        cases hv

/-- A step of `workqueue_work` is enabled. -/
def Awake (s : State W) : Prop := s.pc = .down → 0 < s.sem

theorem Awake.enabled (h : Awake s) : s.step .worker ≠ none := by
  show s.worker ≠ none
  unfold State.worker
  rcases hpc : s.pc with _ | _ | _ | w
  · dsimp only
    rw [if_pos (h hpc)]
    exact Option.some_ne_none _
  · exact Option.some_ne_none _
  · rename_i p
    cases p <;> exact Option.some_ne_none _
  · exact Option.some_ne_none _

theorem Awake.step (h : Awake s) {a : Act W} (ha : a ≠ .worker) (ht : s.step a = some t) :
    Awake t := by
  intro hpc
  cases a with
  | queue w =>
    obtain ⟨-, -, hsame, hle, -⟩ := queue_cases (Or.inl rfl) ht
    exact Nat.lt_of_lt_of_le (h (hsame ▸ hpc)) hle
  | queueIn w =>
    obtain ⟨-, -, hsame, hle, -⟩ := queue_cases (Or.inr rfl) ht
    exact Nat.lt_of_lt_of_le (h (hsame ▸ hpc)) hle
  | up => exact (up_cases ht).2.2.2.2.1
  | worker => exact absurd rfl ha

section

variable {E : Execution (system W)}

theorem pending_some {n : ℕ} {a : Act W} (h : E.label n = some a) :
    pending E (n + 1) = fifo (E.state n) a (pending E n) := by
  rw [pending, h]

theorem pending_none {n : ℕ} (h : E.label n = none) : pending E (n + 1) = pending E n := by
  rw [pending, h]

/-- **The ring is the queue** all the time. -/
theorem inv_pending (hE : E.Meets Unqueued) (n : ℕ) : Inv (E.state n) (pending E n) := by
  induction n with
  | zero => exact inv_created E.init
  | succ n ih =>
    rcases hl : E.label n with _ | a
    · rw [E.idle n hl, pending_none hl]
      exact ih
    · rw [pending_some hl]
      exact ih.step (hE n a hl) (E.step n a hl)

theorem Awake.taken (hworker : E.Fair (· = .worker)) {n : ℕ} (h : Awake (E.state n)) :
    ∃ m, n ≤ m ∧ E.Takes (· = .worker) m := by
  refine hworker.taken (fun m => Awake (E.state m)) h (fun m hm => ⟨_, rfl, hm.enabled⟩)
    fun m _ hm hno => ?_
  rcases hl : E.label m with _ | a
  · rw [E.idle m hl]
    exact hm
  · exact hm.step (fun heq => hno ⟨a, hl, heq⟩) (E.step m a hl)

theorem live_of_pending (hE : E.Meets Unqueued) (hworker : E.Fair (· = .worker))
    (hup : E.Fair (· = .up)) {n : ℕ} (hne : pending E n ≠ []) :
    ∃ m, n ≤ m ∧ E.Takes (· = .worker) m := by
  by_cases hawake : Awake (E.state n)
  · exact hawake.taken hworker
  -- it waits, and the semaphore is to be released
  obtain ⟨hpc, hsem⟩ := Classical.not_imp.mp hawake
  have hat := (inv_pending hE n).pc
  unfold At at hat
  rw [hpc] at hat
  have htoUp : 0 < (E.state n).toUp := by
    have := hat hne
    omega
  obtain ⟨m, hm, a, hl, rfl⟩ := hup.taken (fun m => 0 < (E.state m).toUp) htoUp
    (fun m hm => ⟨_, rfl, (if_pos hm).trans_ne (Option.some_ne_none _)⟩) fun m _ hm hno => by
      rcases hl : E.label m with _ | a
      · rw [E.idle m hl]
        exact hm
      · exact Nat.lt_of_lt_of_le hm (toUp_le (fun heq => hno ⟨a, hl, heq⟩) (E.step m a hl))
  have hsem := (up_cases (E.step m .up hl)).2.2.2.2.1
  obtain ⟨k, hk, htake⟩ := Awake.taken hworker (n := m + 1) fun _ => hsem
  exact ⟨k, by omega, htake⟩

theorem waits_of_queue (hE : E.Meets Unqueued) {n : ℕ} {a : Act W}
    (ha : a = .queue work ∨ a = .queueIn work) (hl : E.label n = some a) :
    Waits (E.state (n + 1)) (pending E (n + 1)) work := by
  have hinv := inv_pending hE n
  have hnot : work ∉ pending E n := by
    have hmeets := hE n a hl
    rcases ha with rfl | rfl <;> exact fun hmem => hmeets ((queued_iff hinv.ring).mpr hmem)
  have hfifo : fifo (E.state n) a (pending E n) = pending E n ++ [work] := by
    rcases ha with rfl | rfl <;> rfl
  obtain ⟨-, -, hpc, -⟩ := queue_cases ha (E.step n a hl)
  rw [pending_some hl, hfifo]
  refine ⟨List.mem_append_right _ (List.mem_singleton_self work), fun v hv heq => hnot ?_⟩
  have hat := hinv.pc
  unfold At at hat
  rw [← hpc, hv] at hat
  exact heq ▸ List.mem_of_mem_head? hat.symm

/-- **Every work runs**: when no work is queued while it is in the ring, the ring is the queue of
the works whose functions have not returned; and in a fair run, in which functions return, the
function of a work that is queued is called after that. -/
theorem every_work_runs (E : Execution (system W)) (hE : E.Meets Unqueued)
    (hworker : E.Fair (· = .worker)) (hup : E.Fair (· = .up)) :
    (∀ n, Ring (E.state n).next (E.state n).prev none ((pending E n).map some)) ∧
    ∀ n work, E.label n = some (.queue work) ∨ E.label n = some (.queueIn work) →
      ∃ m, n < m ∧ Calls E work m := by
  refine ⟨fun n => (inv_pending hE n).ring, fun n work hqueue => ?_⟩
  have hwaits : Waits (E.state (n + 1)) (pending E (n + 1)) work := by
    rcases hqueue with hl | hl
    · exact waits_of_queue hE (Or.inl rfl) hl
    · exact waits_of_queue hE (Or.inr rfl) hl
  refine leadsTo (Q := fun m => Waits (E.state m) (pending E m) work)
    (μ := fun m => toCall ((pending E m).idxOf work) (E.state m).pc) (fun m hw hcall => ?_)
    (fun m hw => live_of_pending hE hworker hup (List.ne_nil_of_mem hw.1)) hwaits
  rcases hl : E.label m with _ | a
  · rw [E.idle m hl, pending_none hl]
    exact ⟨hw, Nat.le_refl _, fun ⟨a, ha, _⟩ => by rw [hl] at ha; cases ha⟩
  · obtain ⟨hwaits, hle, hlt⟩ := hw.step (inv_pending hE m)
      (fun h => hcall ⟨h.1 ▸ hl, h.2⟩) (E.step m a hl)
    rw [pending_some hl]
    refine ⟨hwaits, hle, fun ⟨b, hb, hworker⟩ => hlt ?_⟩
    obtain rfl := Option.some.inj (hl.symm.trans hb)
    exact hworker

end

/-! ### Runs -/

/-- A queue of works that are numbered, with links to the head. -/
def created : State ℕ := ⟨fun _ => none, fun _ => none, 0, 0, .down⟩

/-- A work is queued, and queues another from its function. -/
def twoWorks : List (Act ℕ) :=
  [.queue 0, .up, .worker, .worker, .worker, .queueIn 1] ++ List.replicate 7 .worker

theorem along_twoWorks : Along (system ℕ) Unqueued created twoWorks := by
  have hempty : Ring created.next created.prev none (([] : List ℕ).map some) := by decide
  refine ⟨fun h => ?_, _, rfl, trivial, _, rfl, trivial, _, rfl, trivial, _, rfl, trivial, _, rfl,
    ?_, _, rfl, trivial, _, rfl, trivial, _, rfl, trivial, _, rfl, trivial, _, rfl, trivial, _, rfl,
    trivial, _, rfl, trivial, _, rfl, trivial⟩
  · exact absurd ((queued_iff hempty).mp h) (List.not_mem_nil)
  · intro h
    have hone := (queued_iff (l := [0]) (ring_link hempty (List.not_mem_nil))).mp h
    exact absurd hone (by decide)

/-- Its function is called after that. -/
theorem every_work_runs_two :
    ∃ E : Execution (system ℕ), E.label 5 = some (.queueIn 1) ∧ ∃ m, 5 < m ∧ Calls E 1 m := by
  have hcreated : (system ℕ).init created := ⟨rfl, rfl, rfl, rfl, rfl⟩
  have hrun : exec (system ℕ) created twoWorks = some _ := rfl
  refine ⟨.ofRun hcreated along_twoWorks, rfl, ?_⟩
  refine (every_work_runs (.ofRun hcreated along_twoWorks)
    (Execution.meets_ofRun hcreated along_twoWorks)
    (Execution.fair_ofRun hcreated along_twoWorks hrun ?_)
    (Execution.fair_ofRun hcreated along_twoWorks hrun ?_)).2 5 1 (Or.inr rfl)
  · rintro _ rfl
    rfl
  · rintro _ rfl
    rfl

/-- `0` is queued again behind `1`. -/
def requeued : State ℕ := { ((created.link 0).link 1).link 0 with sem := 3 }

theorem requeued_next (n : ℕ) :
    requeued.next^[n] none = none ∨ requeued.next^[n] none = some 0 := by
  induction n with
  | zero => exact Or.inl rfl
  | succ n ih =>
    rw [Function.iterate_succ_apply']
    rcases ih with h | h <;> rw [h]
    · exact Or.inr rfl
    · exact Or.inl rfl

/-- **A work is lost**: `work_head` leads to `0` and back, and not to `1`. -/
theorem requeue_loses : ∃ s, Reach (system ℕ) (fun _ _ => True) s ∧
    exec (system ℕ) created [.queue 0, .up, .queue 1, .up, .queue 0, .up] = some s ∧
    (¬ ∃ l, Ring s.next s.prev none l) ∧ ¬ s.Queued 1 := by
  have hcreated : (system ℕ).init created := ⟨rfl, rfl, rfl, rfl, rfl⟩
  have hrun : exec (system ℕ) created [.queue 0, .up, .queue 1, .up, .queue 0, .up] =
      some requeued := rfl
  have hring : Ring ((created.link 0).link 1).next ((created.link 0).link 1).prev none
      (([0, 1] : List ℕ).map some) := by decide
  have hlost : ¬ ∃ l, Ring (((created.link 0).link 1).link 0).next
      (((created.link 0).link 1).link 0).prev none l :=
    fun h => (link_iff hring).mp h ((queued_iff hring).mpr (by decide))
  refine ⟨_, Reach.of_exec (.init hcreated) hrun, hrun, hlost, ?_⟩
  rintro ⟨n, hn⟩
  rcases requeued_next n with h | h <;> rw [h] at hn <;> cases hn

end Atbm6441.Os.WorkQueue
