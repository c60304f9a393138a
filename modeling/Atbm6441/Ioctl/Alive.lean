import Atbm6441.Lib.Runs
import Mathlib.Data.Int.Init
import Mathlib.Data.List.Basic
import Mathlib.Tactic.Common

/-!
# The alive check and its workqueue

`atbm_wsm_start_check_alive`, `atbm_wsm_fw_sleep`, `sdio_alive_check_cb` and `check_alive_work` of
`atbm_ioctl.c`, for any number of requests at a time: each access to `check_alive_info`, each command
and each call on the timer and the workqueue is one step. `atbm_del_timer` does not wait for the
callback. `destroy_workqueue` waits for the work and is one step after that, so that work queued
while it waits is not dropped as it is by the kernel.

`workqueue_exists` : the timer is armed and the work queued only while the workqueue exists, in runs
where it is not destroyed under an arming to come and no request starts the check again after that.
`restart_without_queue` : after a sleep, a start arms the timer and creates no workqueue.
-/

namespace Atbm6441.Ioctl.Alive

open Atbm6441.Lib

/-! ### The requests, the timer and the work -/

/-- What `atbm_wsm_start_check_alive` reads of `struct wsm_check_alive_req`. -/
structure CheckAliveReq where
  period : BitVec 32
  tmoCnt : BitVec 32
deriving DecidableEq

/-- Where a request is. -/
inductive ReqPc
  | startTest (req : CheckAliveReq)
  | startDel (req : CheckAliveReq)
  | startSend (req : CheckAliveReq)
  | startFailed
  | startOk (req : CheckAliveReq)
  /-- `is_first` is set: the workqueue is created -/
  | startAlloc (req : CheckAliveReq)
  | startFirst (req : CheckAliveReq)
  | startSet (req : CheckAliveReq)
  | sleepTest
  | sleepDel
  | sleepSend
  | sleepFailed
  | sleepOk
  | sleepDestroy
  | sleepClear
  /-- the `atbm_mod_timer` that ends a request -/
  | arm
  | done
deriving DecidableEq

/-- Where `sdio_alive_check_cb` is. -/
inductive CbPc
  | idle
  | count
  | test
  | queue
  | arm
deriving DecidableEq

/-- Where `check_alive_work` is. -/
inductive WorkPc
  | idle
  | begun
  | check
  | ending
deriving DecidableEq

/-- `check_alive_info` and `is_first`; the requests, the callback and the work. -/
structure State where
  isFirst : Bool
  isStart : Bool
  /-- the workqueue has been created and not destroyed -/
  workqueue : Bool
  inCheck : Bool
  curCnt : ℤ
  tmoCnt : ℤ
  armed : Bool
  queued : Bool
  cb : CbPc
  work : WorkPc
  reqs : List ReqPc
deriving DecidableEq

/-- When the module is loaded. -/
def State.loaded : State := ⟨true, false, false, false, 0, 0, false, false, .idle, .idle, []⟩

inductive Act
  /-- `atbm_wsm_start_check_alive` is called -/
  | start (req : CheckAliveReq)
  /-- `atbm_wsm_fw_sleep` is called -/
  | sleep
  /-- a request takes a step; its command or its allocation succeeds or not -/
  | req (i : ℕ) (ok : Bool)
  /-- the timer expires -/
  | expire
  /-- the callback takes a step -/
  | cb
  /-- the work takes a step; its command succeeds or not -/
  | work (ok : Bool)

/-- A step of a request: the state, and where the request goes on. -/
def State.reqStep (s : State) (ok : Bool) : ReqPc → Option (State × ReqPc)
  -- `atbm_wsm_start_check_alive`
  | .startTest r => some (s, if ¬ s.isFirst ∧ s.isStart then .startDel r else .startSend r)
  | .startDel r => some ({ s with armed := false }, .startSend r)
  | .startSend r => some (s, if ok then .startOk r else .startFailed)
  | .startFailed => some (s, if ¬ s.isFirst ∧ s.isStart then .arm else .done)
  | .startOk r => some (s, if s.isFirst then .startAlloc r else .startSet r)
  | .startAlloc r => some ({ s with workqueue := ok, inCheck := false }, .startFirst r)
  | .startFirst r => some ({ s with isFirst := false }, .startSet r)
  | .startSet r => some ({ s with tmoCnt := r.tmoCnt.toInt, curCnt := 0, isStart := true }, .arm)
  -- `atbm_wsm_fw_sleep`
  | .sleepTest => some (s, if s.isStart then .sleepDel else .sleepSend)
  | .sleepDel => some ({ s with armed := false }, .sleepSend)
  | .sleepSend => some (s, if ok then .sleepOk else .sleepFailed)
  | .sleepFailed => some (s, if s.isStart then .arm else .done)
  | .sleepOk => some (s, if s.isStart then .sleepDestroy else .done)
  | .sleepDestroy =>
    if s.queued = false ∧ s.work = .idle then some ({ s with workqueue := false }, .sleepClear)
    else none
  | .sleepClear => some ({ s with isStart := false }, .done)
  | .arm => some ({ s with armed := true }, .done)
  | .done => none

def State.cbStep (s : State) : Option State :=
  match s.cb with
  | .idle => none
  | .count =>
    some { s with
      curCnt := s.curCnt + 1
      cb := if s.tmoCnt ≤ s.curCnt + 1 then .idle else .test }
  | .test => some { s with cb := if s.inCheck then .arm else .queue }
  | .queue => some { s with queued := true, cb := .arm }
  | .arm => some { s with armed := true, cb := .idle }

def State.workStep (s : State) (ok : Bool) : Option State :=
  match s.work with
  | .idle => if s.queued then some { s with queued := false, work := .begun } else none
  | .begun => some { s with inCheck := true, work := .check }
  | .check => some { s with curCnt := if ok then 0 else s.curCnt, work := .ending }
  | .ending => some { s with inCheck := false, work := .idle }

def State.step (s : State) : Act → Option State
  | .start r =>
    -- invalid parameters
    if r.period.toNat < 1 ∨ r.tmoCnt.toNat < 2 then some s
    else some { s with reqs := s.reqs ++ [.startTest r] }
  | .sleep => some { s with reqs := s.reqs ++ [.sleepTest] }
  | .req i ok =>
    s.reqs[i]?.bind fun pc =>
      (s.reqStep ok pc).map fun x => { x.1 with reqs := s.reqs.set i x.2 }
  | .expire =>
    if s.armed ∧ s.cb = .idle then some { s with armed := false, cb := .count } else none
  | .cb => s.cbStep
  | .work ok => s.workStep ok

def system : System State Act where
  init s := s = .loaded
  step := State.step

/-! ### The condition -/

/-- The request goes on to arm the timer. -/
def ReqPc.Arms : ReqPc → Prop
  | .startFirst _ | .startSet _ | .arm => True
  | _ => False

/-- The callback goes on to arm the timer. -/
def CbPc.Arms : CbPc → Prop
  | .test | .queue | .arm => True
  | .idle | .count => False

instance : (pc : ReqPc) → Decidable pc.Arms
  | .startFirst _ | .startSet _ | .arm => .isTrue trivial
  | .startTest _ | .startDel _ | .startSend _ | .startFailed | .startOk _ | .startAlloc _
  | .sleepTest | .sleepDel | .sleepSend | .sleepFailed | .sleepOk | .sleepDestroy | .sleepClear
  | .done => .isFalse id

instance : (pc : CbPc) → Decidable pc.Arms
  | .test | .queue | .arm => .isTrue trivial
  | .idle | .count => .isFalse id

/-- **A request keeps the workqueue**: it is destroyed only when the timer is not armed and neither
the callback nor a request goes on to arm it; a request that failed arms it again, and one that
succeeded arms it without creating the workqueue, only while that exists; and the workqueue is
allocated. -/
def State.KeepsReq (s : State) (ok : Bool) : ReqPc → Prop
  | .startFailed => ¬ s.isFirst ∧ s.isStart → s.workqueue
  | .startOk _ => s.isFirst ∨ s.workqueue
  | .startAlloc _ => ok
  | .sleepFailed => s.isStart → s.workqueue
  | .sleepDestroy => ¬ s.armed ∧ ¬ s.cb.Arms ∧ ∀ pc ∈ s.reqs, ¬ pc.Arms
  | _ => True

/-- **A step keeps the workqueue**: a request does, and the callback counts on only while the
workqueue exists. -/
def Keeps (s : State) : Act → Prop
  | .req i ok => ∀ pc ∈ s.reqs[i]?, s.KeepsReq ok pc
  | .cb => s.cb = .count → s.curCnt + 1 < s.tmoCnt → s.workqueue
  | _ => True

instance (s : State) (ok : Bool) : (pc : ReqPc) → Decidable (s.KeepsReq ok pc)
  | .startFailed => inferInstanceAs (Decidable (¬ s.isFirst ∧ s.isStart → s.workqueue))
  | .startOk _ => inferInstanceAs (Decidable (s.isFirst ∨ s.workqueue))
  | .startAlloc _ => inferInstanceAs (Decidable (ok = true))
  | .sleepFailed => inferInstanceAs (Decidable (s.isStart → s.workqueue))
  | .sleepDestroy =>
    inferInstanceAs (Decidable (¬ s.armed ∧ ¬ s.cb.Arms ∧ ∀ pc ∈ s.reqs, ¬ pc.Arms))
  | .startTest _ | .startDel _ | .startSend _ | .startFirst _ | .startSet _ | .sleepTest
  | .sleepDel | .sleepSend | .sleepOk | .sleepClear | .arm | .done => .isTrue trivial

instance (s : State) : (a : Act) → Decidable (Keeps s a)
  | .req i ok => inferInstanceAs (Decidable (∀ pc ∈ s.reqs[i]?, s.KeepsReq ok pc))
  | .cb => inferInstanceAs (Decidable (s.cb = .count → s.curCnt + 1 < s.tmoCnt → s.workqueue))
  | .start _ | .sleep | .expire | .work _ => .isTrue trivial

/-! ### The invariant -/

/-- Whatever leads to the workqueue is there only while it exists. -/
structure Inv (s : State) : Prop where
  armed : s.armed → s.workqueue
  queued : s.queued → s.workqueue
  cb : s.cb.Arms → s.workqueue
  reqs : ∀ pc ∈ s.reqs, pc.Arms → s.workqueue

variable {s t : State}

theorem inv_loaded : Inv .loaded := ⟨by decide, by decide, by decide, by decide⟩

theorem Inv.call {pc : ReqPc} (h : Inv s) (hpc : ¬ pc.Arms) :
    Inv { s with reqs := s.reqs ++ [pc] } := by
  refine ⟨h.armed, h.queued, h.cb, fun pc' hmem ha => ?_⟩
  rcases List.mem_append.mp hmem with hold | hnew
  · exact h.reqs pc' hold ha
  · rw [List.mem_singleton.mp hnew] at ha
    exact absurd ha hpc

theorem reqStep_inv {ok : Bool} {pc pc' : ReqPc} (h : Inv s) (hmem : pc ∈ s.reqs)
    (hk : s.KeepsReq ok pc) (ht : s.reqStep ok pc = some (t, pc')) :
    Inv t ∧ (pc'.Arms → t.workqueue) := by
  have hpc := h.reqs pc hmem
  unfold State.KeepsReq at hk
  unfold State.reqStep at ht
  rcases pc with r | r | r | _ | r | r | r | r | _ | _ | _ | _ | _ | _ | _ | _ | _ <;>
    simp only [Option.some.injEq, Prod.mk.injEq, reduceCtorEq] at ht
  case startTest =>
    obtain ⟨rfl, rfl⟩ := ht
    refine ⟨h, ?_⟩
    split_ifs <;> exact False.elim
  case startDel =>
    obtain ⟨rfl, rfl⟩ := ht
    exact ⟨⟨by simp, h.queued, h.cb, h.reqs⟩, False.elim⟩
  case startSend =>
    obtain ⟨rfl, rfl⟩ := ht
    refine ⟨h, ?_⟩
    split_ifs <;> exact False.elim
  case startFailed =>
    obtain ⟨rfl, rfl⟩ := ht
    refine ⟨h, ?_⟩
    by_cases hs : ¬ s.isFirst ∧ s.isStart
    · exact fun _ => hk hs
    · rw [if_neg hs]
      exact False.elim
  case startOk =>
    obtain ⟨rfl, rfl⟩ := ht
    refine ⟨h, ?_⟩
    by_cases hs : s.isFirst
    · rw [if_pos hs]
      exact False.elim
    · exact fun _ => hk.resolve_left hs
  case startAlloc =>
    obtain ⟨rfl, rfl⟩ := ht
    exact ⟨⟨fun _ => hk, fun _ => hk, fun _ => hk, fun _ _ _ => hk⟩, fun _ => hk⟩
  case startFirst =>
    obtain ⟨rfl, rfl⟩ := ht
    exact ⟨⟨h.armed, h.queued, h.cb, h.reqs⟩, fun _ => hpc trivial⟩
  case startSet =>
    obtain ⟨rfl, rfl⟩ := ht
    exact ⟨⟨h.armed, h.queued, h.cb, h.reqs⟩, fun _ => hpc trivial⟩
  case sleepTest =>
    obtain ⟨rfl, rfl⟩ := ht
    refine ⟨h, ?_⟩
    split_ifs <;> exact False.elim
  case sleepDel =>
    obtain ⟨rfl, rfl⟩ := ht
    exact ⟨⟨by simp, h.queued, h.cb, h.reqs⟩, False.elim⟩
  case sleepSend =>
    obtain ⟨rfl, rfl⟩ := ht
    refine ⟨h, ?_⟩
    split_ifs <;> exact False.elim
  case sleepFailed =>
    obtain ⟨rfl, rfl⟩ := ht
    refine ⟨h, ?_⟩
    by_cases hs : s.isStart
    · exact fun _ => hk hs
    · rw [if_neg hs]
      exact False.elim
  case sleepOk =>
    obtain ⟨rfl, rfl⟩ := ht
    refine ⟨h, ?_⟩
    split_ifs <;> exact False.elim
  case sleepDestroy =>
    -- nothing leads to the workqueue any more
    obtain ⟨harmed, hcb, hreqs⟩ := hk
    by_cases hidle : s.queued = false ∧ s.work = .idle
    · rw [if_pos hidle] at ht
      obtain ⟨rfl, rfl⟩ := Prod.mk.injEq .. ▸ Option.some.inj ht
      exact ⟨⟨fun ha => absurd ha harmed, fun hq => by simp [hidle.1] at hq,
        fun ha => absurd ha hcb, fun pc hpc ha => absurd ha (hreqs pc hpc)⟩, False.elim⟩
    · rw [if_neg hidle] at ht
      simp at ht
  case sleepClear =>
    obtain ⟨rfl, rfl⟩ := ht
    exact ⟨⟨h.armed, h.queued, h.cb, h.reqs⟩, False.elim⟩
  case arm =>
    obtain ⟨rfl, rfl⟩ := ht
    exact ⟨⟨fun _ => hpc trivial, h.queued, h.cb, h.reqs⟩, False.elim⟩

theorem reqStep_reqs {ok : Bool} {pc pc' : ReqPc} (ht : s.reqStep ok pc = some (t, pc')) :
    t.reqs = s.reqs := by
  unfold State.reqStep at ht
  rcases pc with r | r | r | _ | r | r | r | r | _ | _ | _ | _ | _ | _ | _ | _ | _ <;>
    simp only [Option.some.injEq, Prod.mk.injEq, reduceCtorEq, Option.ite_none_right_eq_some] at ht
  case sleepDestroy => rw [← ht.2.1]
  all_goals rw [← ht.1]

theorem Inv.req {i : ℕ} {ok : Bool} (h : Inv s) (hk : Keeps s (.req i ok))
    (ht : s.step (.req i ok) = some t) : Inv t := by
  obtain ⟨pc, hpc, hstep⟩ := Option.bind_eq_some_iff.mp ht
  obtain ⟨⟨u, pc'⟩, hu, rfl⟩ := Option.map_eq_some_iff.mp hstep
  obtain ⟨hinv, hpc'⟩ := reqStep_inv h (List.mem_of_getElem? hpc) (hk pc hpc) hu
  refine ⟨hinv.armed, hinv.queued, hinv.cb, fun pc'' hmem ha => ?_⟩
  rcases List.mem_or_eq_of_mem_set hmem with hold | rfl
  · exact hinv.reqs pc'' (by rwa [reqStep_reqs hu]) ha
  · exact hpc' ha

theorem Inv.cbStep (h : Inv s) (hk : Keeps s .cb) (ht : s.step .cb = some t) : Inv t := by
  have hcb := h.cb
  unfold Keeps at hk
  simp only [State.step, State.cbStep] at ht
  rcases hpc : s.cb with _ | _ | _ | _ | _ <;> simp only [hpc, Option.some.injEq, reduceCtorEq] at ht
  case count =>
    rw [← ht]
    refine ⟨h.armed, h.queued, ?_, h.reqs⟩
    by_cases hover : s.tmoCnt ≤ s.curCnt + 1
    · rw [if_pos hover]
      exact False.elim
    · exact fun _ => hk hpc (by omega)
  case test =>
    have hwq : s.workqueue = true := hcb (by rw [hpc]; trivial)
    rw [← ht]
    exact ⟨h.armed, h.queued, fun _ => hwq, h.reqs⟩
  case queue =>
    have hwq : s.workqueue = true := hcb (by rw [hpc]; trivial)
    rw [← ht]
    exact ⟨h.armed, fun _ => hwq, fun _ => hwq, h.reqs⟩
  case arm =>
    have hwq : s.workqueue = true := hcb (by rw [hpc]; trivial)
    rw [← ht]
    exact ⟨fun _ => hwq, h.queued, False.elim, h.reqs⟩

theorem Inv.workStep {ok : Bool} (h : Inv s) (ht : s.step (.work ok) = some t) : Inv t := by
  simp only [State.step, State.workStep] at ht
  rcases hpc : s.work with _ | _ | _ | _ <;> simp only [hpc, Option.some.injEq] at ht
  case idle =>
    by_cases hq : s.queued
    · rw [if_pos hq, Option.some.injEq] at ht
      rw [← ht]
      exact ⟨h.armed, by simp, h.cb, h.reqs⟩
    · rw [if_neg hq] at ht
      simp at ht
  all_goals
    rw [← ht]
    exact ⟨h.armed, h.queued, h.cb, h.reqs⟩

theorem inv_step {a : Act} (h : Inv s) (hk : Keeps s a) (ht : s.step a = some t) : Inv t := by
  rcases a with r | _ | ⟨i, ok⟩ | _ | _ | ok
  · rw [State.step] at ht
    split_ifs at ht
    · rwa [← Option.some.inj ht]
    · rw [← Option.some.inj ht]
      exact h.call id
  · rw [← Option.some.inj ht]
    exact h.call id
  · exact h.req hk ht
  · rw [State.step] at ht
    split_ifs at ht
    rw [← Option.some.inj ht]
    exact ⟨by simp, h.queued, False.elim, h.reqs⟩
  · exact h.cbStep hk ht
  · exact h.workStep ht

/-- **The workqueue exists** whenever the timer is armed or the work is queued, when every step keeps
it. -/
theorem workqueue_exists (h : Reach system Keeps s) : s.armed ∨ s.queued → s.workqueue := by
  have hinv : Inv s := h.inv_of_start (I := Inv) (fun _ => id) inv_loaded fun _ _ _ => inv_step
  rintro (ha | hq)
  · exact hinv.armed ha
  · exact hinv.queued hq

/-! ### A start, and a start after a sleep -/

/-- A request with a period of a second and two expiries. -/
def aliveReq : CheckAliveReq := ⟨1, 2⟩

/-- A first start, as request `i`. -/
def firstStart (i : ℕ) : List Act := .start aliveReq :: List.replicate 7 (.req i true)

theorem workqueue_exists_queued : ∃ s, Reach system Keeps s ∧ (s.armed ∨ s.queued) ∧
    (s.armed ∨ s.queued → s.workqueue) := by
  let as : List Act := firstStart 0 ++ [.expire, .cb, .cb, .cb]
  have hout : (execIf system Keeps .loaded as).map (fun s => s.queued) = some true := by decide
  obtain ⟨s, hs, hq⟩ := Option.map_eq_some_iff.mp hout
  have hr := Reach.of_execIf (.init rfl) hs
  exact ⟨s, hr, .inr hq, workqueue_exists hr⟩

/-- **A start after a sleep**: the timer is armed, and the workqueue has been destroyed. No two
requests overlap, and the callback and the work do not run. -/
theorem restart_without_queue : ∃ s, Reach system (fun _ _ => True) s ∧
    s.armed = true ∧ s.workqueue = false := by
  let sleep : List Act := .sleep :: List.replicate 6 (.req 1 true)
  let restart : List Act := .start aliveReq :: List.replicate 5 (.req 2 true)
  have hout : (exec system .loaded (firstStart 0 ++ sleep ++ restart)).map
      (fun s => (s.armed, s.workqueue)) = some (true, false) := by
    decide
  obtain ⟨s, hs, heq⟩ := Option.map_eq_some_iff.mp hout
  rw [Prod.mk.injEq] at heq
  exact ⟨s, Reach.of_exec (.init rfl) hs, heq⟩

/-- **A sleep during the callback**: the timer is armed again after the workqueue has been
destroyed. -/
theorem callback_rearms : ∃ s, Reach system (fun _ _ => True) s ∧
    s.armed = true ∧ s.workqueue = false := by
  let sleep : List Act := [.sleep, .expire, .cb] ++ List.replicate 5 (.req 1 true)
  have hout : (exec system .loaded (firstStart 0 ++ sleep ++ [.cb, .cb, .cb])).map
      (fun s => (s.armed, s.workqueue)) = some (true, false) := by
    decide
  obtain ⟨s, hs, heq⟩ := Option.map_eq_some_iff.mp hout
  rw [Prod.mk.injEq] at heq
  exact ⟨s, Reach.of_exec (.init rfl) hs, heq⟩

end Atbm6441.Ioctl.Alive
