import Atbm6441.Lib.Runs
import Mathlib.Data.List.Basic
import Mathlib.Tactic.Common

/-!
# The queue between the interrupt handler and the RX thread

`atbm_irq_handler` with `atbm_sdio_process_read_data` and `atbm_sdio_submit_skb`, and
`atbm_sdio_rx_bh` with `atbm_sdio_submit_skb_in_thread`, on Linux with
`CONFIG_SDIO_IRQ_THREAD_PROCESS_DATA` (without it nothing is queued). The handler runs in the
interrupt thread, and in the RX thread from the hooks of its wait loop, which call it for a missed
interrupt; both hold the bus, and give it up while they sleep on an overflow. Each access to the
bus, each section under the lock of `rx_frame_queue` and each schedule call is one step; what the
device has to be read is arbitrary.

`read_then_processed` : what has been processed, what the thread has taken off the queue, the queue
and a frame just read are the frames read, in order; while the queue is not empty, the RX thread is
to drain it; and no frame that has been handed on is freed, exactly up to an error of the control
register behind it (`Undisturbed`): `skb_rx` still points to the frame then, and is freed at `err`.
-/

namespace Atbm6441.Sdio.RxQueue

open Atbm6441.Lib

/-- `ATBM_MAX_OVERFLOW_SIZE`. -/
def atbmMaxOverflowSize : ℕ := 64

/-- Who holds the bus. -/
inductive Ctx
  | irq
  | rx
deriving DecidableEq

/-- What a read of the bus finds. -/
inductive Found (F : Type)
  | frame (f : F)
  | empty
  /-- the control register cannot be read, or announces an impossible length -/
  | badCtrl
  /-- there is no buffer for the frame, or it cannot be read -/
  | badData

/-- Where a call of `atbm_irq_handler` is, with `rx_continue_cnt` and, at a read, `skb_rx`. -/
inductive HandlerPc (F : Type)
  | read (cnt : UInt8) (skbRx : Option F)
  | submit (cnt : UInt8) (f : F)
  /-- `sbus_rev_schedule` for a frame, with a queue that has reached the overflow size or has not -/
  | schedule (cnt : UInt8) (full : Bool) (f : F)
  /-- `triger_rx` -/
  | trigger
  /-- an overflow, before the bus is unlocked -/
  | overflow
  /-- an overflow, before the bus is locked again -/
  | asleep

/-- Where the interrupt thread is. -/
inductive IrqPc (F : Type)
  | idle
  | handler (pc : HandlerPc F)

/-- Where the RX thread is. -/
inductive RxPc (F : Type)
  /-- the wait loop, before the test-and-clear of `THREAD_WAKEUP` -/
  | wait
  /-- the wait loop after it: a hook, the sleep, or the next round -/
  | idle
  /-- a hook that holds the bus, before it reads the control register -/
  | hook
  /-- the handler, called by a hook -/
  | handler (pc : HandlerPc F)
  /-- `atbm_sdio_rx_bh` -/
  | start
  /-- the loop over `local_list` -/
  | drain (localList : List F)
  /-- `atbm_sdio_rx_bh` reads the bus -/
  | read (skbRx : Option F)
  | submit (f : F)
  | unlock
  /-- the last section under the lock of the queue -/
  | last

/-- What the two share: the bus, `rx_frame_queue`, `bh_running`, `THREAD_WAKEUP`; and of the run, the
frames read, those processed and those freed at `err`. -/
structure Link (F : Type) where
  bus : Option Ctx
  queue : List F
  bhRunning : Bool
  wakeup : Bool
  read : List F
  processed : List F
  freed : List F

structure State (F : Type) where
  link : Link F
  irq : IrqPc F
  rx : RxPc F

variable {F : Type}

/-- The end of a round of the handler with the frames it has read. -/
def HandlerPc.exit (cnt : UInt8) : Option (HandlerPc F) :=
  if cnt = 0 then some .trigger
  else if atbmMaxOverflowSize ≤ cnt.toNat then some .overflow
  else none

/-- A step of the handler: where it goes on, if it does not return. -/
def Link.handlerStep (l : Link F) (c : Ctx) (found : Found F) :
    HandlerPc F → Option (Link F × Option (HandlerPc F))
  | .read cnt skbRx =>
    match found with
    | .frame f => some ({ l with read := l.read ++ [f] }, some (.submit (cnt + 1) f))
    | .empty => some (l, HandlerPc.exit cnt)
    | .badCtrl => some ({ l with freed := l.freed ++ skbRx.toList }, none)
    | .badData => some (l, none)
  | .submit cnt f =>
    some ({ l with queue := l.queue ++ [f] },
      some (if l.bhRunning then .read cnt (some f)
        else .schedule cnt (atbmMaxOverflowSize ≤ l.queue.length + 1) f))
  | .schedule cnt full f =>
    some ({ l with wakeup := true },
      if full then HandlerPc.exit cnt else some (.read cnt (some f)))
  | .trigger => some ({ l with wakeup := true }, none)
  | .overflow => some ({ l with bus := none }, some .asleep)
  | .asleep =>
    match l.bus with
    | none => some ({ l with bus := some c }, some (.read 0 none))
    | some _ => none

/-- The interrupt thread, which holds the bus while the handler runs. -/
def State.irqStep (s : State F) (found : Found F) : Option (State F) :=
  match s.irq with
  | .idle =>
    match s.link.bus with
    | none => some { s with link := { s.link with bus := some .irq }, irq := .handler (.read 0 none) }
    | some _ => none
  | .handler pc =>
    (s.link.handlerStep .irq found pc).map fun x =>
      match x.2 with
      | some pc' => { s with link := x.1, irq := .handler pc' }
      | none => { s with link := { x.1 with bus := none }, irq := .idle }

def State.rxStep (s : State F) (found : Found F) : Option (State F) :=
  match s.rx with
  | .wait =>
    if s.link.wakeup then some { s with link := { s.link with wakeup := false }, rx := .start }
    else some { s with rx := .idle }
  | .idle => some { s with rx := .wait }
  | .hook =>
    match found with
    | .frame _ => some { s with rx := .handler (.read 0 none) }
    | .empty | .badCtrl | .badData => some { s with link := { s.link with bus := none }, rx := .idle }
  | .handler pc =>
    (s.link.handlerStep .rx found pc).map fun x =>
      match x.2 with
      | some pc' => { s with link := x.1, rx := .handler pc' }
      | none => { s with link := { x.1 with bus := none }, rx := .wait }
  | .start =>
    some { s with
      link := { s.link with bhRunning := true, queue := [] }
      rx := .drain s.link.queue }
  | .drain (f :: fs) =>
    some { s with
      link := { s.link with processed := s.link.processed ++ [f] }
      rx := .drain fs }
  | .drain [] =>
    match s.link.bus with
    | none => some { s with link := { s.link with bus := some .rx }, rx := .read none }
    | some _ => none
  | .read skbRx =>
    match found with
    | .frame f =>
      some { s with link := { s.link with read := s.link.read ++ [f] }, rx := .submit f }
    | .badCtrl =>
      some { s with
        link := { s.link with freed := s.link.freed ++ skbRx.toList }
        rx := .unlock }
    | .empty | .badData => some { s with rx := .unlock }
  | .submit f =>
    some { s with
      link := { s.link with queue := s.link.queue ++ [f] }
      rx := if atbmMaxOverflowSize ≤ s.link.queue.length + 1 then .unlock else .read (some f) }
  | .unlock => some { s with link := { s.link with bus := none }, rx := .last }
  | .last =>
    match s.link.queue with
    | [] => some { s with link := { s.link with bhRunning := false }, rx := .wait }
    | f :: fs => some { s with link := { s.link with queue := [] }, rx := .drain (f :: fs) }

/-- A hook of the wait loop locks the bus. -/
def State.hookStep (s : State F) : Option (State F) :=
  match s.rx, s.link.bus with
  | .idle, none => some { s with link := { s.link with bus := some .rx }, rx := .hook }
  | _, _ => none

inductive Act (F : Type)
  /-- the interrupt thread takes a step -/
  | irq (found : Found F)
  /-- the RX thread takes a step -/
  | rx (found : Found F)
  /-- the RX thread enters a hook -/
  | hook

def State.step (s : State F) : Act F → Option (State F)
  | .irq found => s.irqStep found
  | .rx found => s.rxStep found
  | .hook => s.hookStep

/-- Nothing has been read. -/
def State.start : State F := ⟨⟨none, [], false, false, [], [], []⟩, .idle, .wait⟩

def system : System (State F) (Act F) where
  init s := s = .start
  step := State.step

/-! ### The condition -/

/-- `skb_rx` at a read of the bus: the frame that was handed on last. -/
def HandlerPc.skbRx : HandlerPc F → Option F
  | .read _ skbRx => skbRx
  | .submit _ _ | .schedule _ _ _ | .trigger | .overflow | .asleep => none

def IrqPc.skbRx : IrqPc F → Option F
  | .handler pc => pc.skbRx
  | .idle => none

def RxPc.skbRx : RxPc F → Option F
  | .handler pc => pc.skbRx
  | .read skbRx => skbRx
  | .wait | .idle | .hook | .start | .drain _ | .submit _ | .unlock | .last => none

/-- The frame that an error of the control register is behind. -/
def Found.before (found : Found F) (skbRx : Option F) : Option F :=
  match found with
  | .badCtrl => skbRx
  | .frame _ | .empty | .badData => none

def State.before (s : State F) : Act F → Option F
  | .irq found => found.before s.irq.skbRx
  | .rx found => found.before s.rx.skbRx
  | .hook => none

/-- **The condition**: no frame has been handed on in a call of `atbm_sdio_process_read_data` when the
control register cannot be read there, or announces an impossible length. -/
def Undisturbed (s : State F) (a : Act F) : Prop := s.before a = none

/-! ### What a context holds -/

/-- The frame that has been read and not queued. -/
def HandlerPc.hand : HandlerPc F → List F
  | .submit _ f => [f]
  | _ => []

def IrqPc.hand : IrqPc F → List F
  | .handler pc => pc.hand
  | .idle => []

def RxPc.hand : RxPc F → List F
  | .handler pc => pc.hand
  | .submit f => [f]
  | _ => []

/-- What the RX thread has taken off the queue and not processed. -/
def RxPc.localList : RxPc F → List F
  | .drain l => l
  | _ => []

/-- The handler holds the bus. -/
def HandlerPc.Holds : HandlerPc F → Prop
  | .asleep => False
  | _ => True

def IrqPc.Holds : IrqPc F → Prop
  | .handler pc => pc.Holds
  | .idle => False

def RxPc.Holds : RxPc F → Prop
  | .handler pc => pc.Holds
  | .hook | .read _ | .submit _ | .unlock => True
  | .wait | .idle | .start | .drain _ | .last => False

/-- The handler is about to set `THREAD_WAKEUP`. -/
def HandlerPc.Schedules : HandlerPc F → Prop
  | .schedule _ _ _ | .trigger => True
  | _ => False

def IrqPc.Schedules : IrqPc F → Prop
  | .handler pc => pc.Schedules
  | .idle => False

def RxPc.Schedules : RxPc F → Prop
  | .handler pc => pc.Schedules
  | _ => False

/-- The RX thread has cleared `THREAD_WAKEUP` and not made its last test of the queue. -/
def RxPc.InBh : RxPc F → Prop
  | .start | .drain _ | .read _ | .submit _ | .unlock | .last => True
  | .wait | .idle | .hook | .handler _ => False

theorem HandlerPc.hand_of_not_holds {pc : HandlerPc F} (h : ¬ pc.Holds) : pc.hand = [] := by
  rcases pc with ⟨cnt, skbRx⟩ | ⟨cnt, f⟩ | ⟨cnt, full, f⟩ | _ | _ | _
  case submit => exact absurd trivial h
  all_goals rfl

theorem IrqPc.hand_of_not_holds {pc : IrqPc F} (h : ¬ pc.Holds) : pc.hand = [] := by
  rcases pc with _ | pc
  · rfl
  · exact HandlerPc.hand_of_not_holds h

theorem RxPc.hand_of_not_holds {pc : RxPc F} (h : ¬ pc.Holds) : pc.hand = [] := by
  rcases pc with _ | _ | _ | pc | _ | l | skbRx | f | _ | _
  case handler => exact HandlerPc.hand_of_not_holds h
  case submit => exact absurd trivial h
  all_goals rfl

/-! ### A step of the handler -/

/-- What the handler goes on with. -/
def handOf (o : Option (HandlerPc F)) : List F := o.elim [] HandlerPc.hand

def SchedulesOf (o : Option (HandlerPc F)) : Prop := ∃ pc, o = some pc ∧ pc.Schedules

/-- **What a step of the handler does** in a context: it is taken with the bus held or free, queues the
frame that has been read before another is read, and sets `THREAD_WAKEUP` for what it has queued,
unless the RX thread is at work. -/
structure HandlerSpec (l l' : Link F) (c : Ctx) (pc : HandlerPc F) (o : Option (HandlerPc F)) :
    Prop where
  processed : l'.processed = l.processed
  bhRunning : l'.bhRunning = l.bhRunning
  bus : l.bus = some c ∨ l.bus = none
  holds : ∀ pc', o = some pc' → pc'.Holds → l'.bus = some c
  log : ∃ fs, l'.queue ++ handOf o = l.queue ++ pc.hand ++ fs ∧ l'.read = l.read ++ fs
  kept : l.wakeup = true → l'.wakeup = true
  woken : pc.Schedules → l'.wakeup = true
  queued : l'.queue = l.queue ∨ SchedulesOf o ∨ l.bhRunning = true

theorem exit_cases (cnt : UInt8) : (HandlerPc.exit cnt : Option (HandlerPc F)) = some .trigger ∨
    (HandlerPc.exit cnt : Option (HandlerPc F)) = some .overflow ∨
      (HandlerPc.exit cnt : Option (HandlerPc F)) = none := by
  unfold HandlerPc.exit
  split_ifs <;> simp

theorem handOf_exit (cnt : UInt8) : handOf (HandlerPc.exit cnt : Option (HandlerPc F)) = [] := by
  rcases exit_cases (F := F) cnt with h | h | h <;> rw [h] <;> rfl

theorem handlerStep_spec {l l' : Link F} {c : Ctx} {found : Found F} {pc : HandlerPc F}
    {o : Option (HandlerPc F)} (hb : pc.Holds → l.bus = some c)
    (h : l.handlerStep c found pc = some (l', o)) : HandlerSpec l l' c pc o := by
  rcases pc with ⟨cnt, skbRx⟩ | ⟨cnt, f⟩ | ⟨cnt, full, f⟩ | _ | _ | _
  case read =>
    have hbus := hb trivial
    rcases found with f | _ | _ | _ <;>
      simp only [Link.handlerStep, Option.some.injEq, Prod.mk.injEq] at h <;> obtain ⟨rfl, rfl⟩ := h
    case frame =>
      exact ⟨rfl, rfl, .inl hbus, fun _ _ _ => hbus, ⟨[f], by simp [handOf, HandlerPc.hand], rfl⟩,
        id, False.elim, .inl rfl⟩
    case empty =>
      exact ⟨rfl, rfl, .inl hbus, fun _ _ _ => hbus,
        ⟨[], by simp [handOf_exit, HandlerPc.hand], by simp⟩, id, False.elim, .inl rfl⟩
    all_goals
      exact ⟨rfl, rfl, .inl hbus, fun _ _ _ => hbus,
        ⟨[], by simp [handOf, HandlerPc.hand], by simp⟩, id, False.elim, .inl rfl⟩
  case submit =>
    have hbus := hb trivial
    simp only [Link.handlerStep, Option.some.injEq, Prod.mk.injEq] at h
    obtain ⟨rfl, rfl⟩ := h
    refine ⟨rfl, rfl, .inl hbus, fun _ _ _ => hbus, ⟨[], ?_, by simp⟩, id, False.elim, ?_⟩
    · by_cases hr : l.bhRunning = true <;> simp [handOf, HandlerPc.hand, hr]
    · by_cases hr : l.bhRunning = true
      · exact .inr (.inr hr)
      · rw [if_neg hr]
        exact .inr (.inl ⟨_, rfl, trivial⟩)
  case schedule =>
    have hbus := hb trivial
    simp only [Link.handlerStep, Option.some.injEq, Prod.mk.injEq] at h
    obtain ⟨rfl, rfl⟩ := h
    refine ⟨rfl, rfl, .inl hbus, fun _ _ _ => hbus, ⟨[], ?_, by simp⟩, fun _ => rfl, fun _ => rfl,
      .inl rfl⟩
    rcases full with _ | _
    · simp [handOf, HandlerPc.hand]
    · simp [handOf_exit, HandlerPc.hand]
  case trigger =>
    have hbus := hb trivial
    simp only [Link.handlerStep, Option.some.injEq, Prod.mk.injEq] at h
    obtain ⟨rfl, rfl⟩ := h
    exact ⟨rfl, rfl, .inl hbus, fun _ h => by simp at h,
      ⟨[], by simp [handOf, HandlerPc.hand], by simp⟩, fun _ => rfl, fun _ => rfl, .inl rfl⟩
  case overflow =>
    have hbus := hb trivial
    simp only [Link.handlerStep, Option.some.injEq, Prod.mk.injEq] at h
    obtain ⟨rfl, rfl⟩ := h
    refine ⟨rfl, rfl, .inl hbus, fun pc' hpc' hh => ?_,
      ⟨[], by simp [handOf, HandlerPc.hand], by simp⟩, id, False.elim, .inl rfl⟩
    rw [← Option.some.inj hpc'] at hh
    exact hh.elim
  case asleep =>
    rcases hbus : l.bus with _ | c'
    · simp only [Link.handlerStep, hbus, Option.some.injEq, Prod.mk.injEq] at h
      obtain ⟨rfl, rfl⟩ := h
      exact ⟨rfl, rfl, .inr hbus, fun _ _ _ => rfl,
        ⟨[], by simp [handOf, HandlerPc.hand], by simp⟩, id, False.elim, .inl rfl⟩
    · simp [Link.handlerStep, hbus] at h

/-! ### The invariant -/

/-- One context at a time holds the bus; nothing that has been read is lost; and what is queued is
to be drained. -/
structure Inv (s : State F) : Prop where
  irqBus : s.irq.Holds → s.link.bus = some .irq
  rxBus : s.rx.Holds → s.link.bus = some .rx
  log : s.link.processed ++ s.rx.localList ++ s.link.queue ++ s.irq.hand ++ s.rx.hand = s.link.read
  running : s.link.bhRunning = true → s.rx.InBh
  woken : s.link.queue ≠ [] →
    s.link.wakeup = true ∨ s.irq.Schedules ∨ s.rx.Schedules ∨ s.rx.InBh

variable {s t : State F}

theorem inv_start : Inv (State.start : State F) :=
  ⟨False.elim, False.elim, rfl, by simp [State.start], by simp [State.start]⟩

theorem Inv.rx_hand (h : Inv s) (hb : s.link.bus = some .irq ∨ s.link.bus = none) :
    ¬ s.rx.Holds ∧ s.rx.hand = [] := by
  have hnot : ¬ s.rx.Holds := fun hr => by
    have hbus := h.rxBus hr
    rcases hb with hb | hb <;> simp [hb] at hbus
  exact ⟨hnot, RxPc.hand_of_not_holds hnot⟩

theorem Inv.irq_hand (h : Inv s) (hb : s.link.bus = some .rx ∨ s.link.bus = none) :
    ¬ s.irq.Holds ∧ s.irq.hand = [] := by
  have hnot : ¬ s.irq.Holds := fun hr => by
    have hbus := h.irqBus hr
    rcases hb with hb | hb <;> simp [hb] at hbus
  exact ⟨hnot, IrqPc.hand_of_not_holds hnot⟩

theorem Inv.release (h : Inv s) (hirq : ¬ s.irq.Holds) (hrx : ¬ s.rx.Holds) :
    Inv { s with link := { s.link with bus := none } } :=
  ⟨fun hh => absurd hh hirq, fun hh => absurd hh hrx, h.log, h.running, h.woken⟩

/-! ### The handler in a context -/

theorem HandlerSpec.log_eq {l l' : Link F} {c : Ctx} {pc : HandlerPc F} {o : Option (HandlerPc F)}
    (hspec : HandlerSpec l l' c pc o) {ls : List F}
    (h : l.processed ++ ls ++ l.queue ++ pc.hand = l.read) :
    l'.processed ++ ls ++ l'.queue ++ handOf o = l'.read := by
  obtain ⟨fs, hqueue, hread⟩ := hspec.log
  rw [hspec.processed, hread, ← h, List.append_assoc _ l'.queue, hqueue]
  simp only [List.append_assoc]

theorem HandlerSpec.to_drain {l l' : Link F} {c : Ctx} {pc : HandlerPc F}
    {o : Option (HandlerPc F)} (hspec : HandlerSpec l l' c pc o) {w : Prop}
    (hr : l.bhRunning = true → w)
    (h : l.queue ≠ [] → l.wakeup = true ∨ pc.Schedules ∨ w) (hne : l'.queue ≠ []) :
    l'.wakeup = true ∨ SchedulesOf o ∨ w := by
  rcases hspec.queued with hsame | hs | hrun
  · rw [hsame] at hne
    rcases h hne with hwake | hs | hw
    · exact .inl (hspec.kept hwake)
    · exact .inl (hspec.woken hs)
    · exact .inr (.inr hw)
  · exact .inr (.inl hs)
  · exact .inr (.inr (hr hrun))

theorem Inv.irqHandler (h : Inv s) {pc : HandlerPc F} {l' : Link F} {o : Option (HandlerPc F)}
    (hpc : s.irq = .handler pc) (hspec : HandlerSpec s.link l' .irq pc o) :
    Inv { s with link := l', irq := o.elim .idle .handler } := by
  obtain ⟨hnot, hhand⟩ := h.rx_hand hspec.bus
  have hlog := h.log
  have hwoken := h.woken
  rw [hpc, hhand, List.append_nil] at hlog
  rw [hpc] at hwoken
  refine ⟨?_, fun hh => absurd hh hnot, ?_, ?_, fun hne => ?_⟩
  · rcases ho : o with _ | pc'
    · exact False.elim
    · exact hspec.holds pc' ho
  · have hlog' := hspec.log_eq hlog
    show l'.processed ++ s.rx.localList ++ l'.queue ++ IrqPc.hand _ ++ s.rx.hand = l'.read
    rw [hhand, List.append_nil, ← hlog']
    rcases o with _ | pc' <;> rfl
  · show l'.bhRunning = true → s.rx.InBh
    rw [hspec.bhRunning]
    exact h.running
  · rcases hspec.to_drain (w := s.rx.Schedules ∨ s.rx.InBh) (fun hr => .inr (h.running hr)) hwoken
      hne with hw | ⟨pc', rfl, hs⟩ | hs
    · exact .inl hw
    · exact .inr (.inl hs)
    · exact .inr (.inr hs)

theorem Inv.rxHandler (h : Inv s) {pc : HandlerPc F} {l' : Link F} {o : Option (HandlerPc F)}
    (hpc : s.rx = .handler pc) (hspec : HandlerSpec s.link l' .rx pc o) :
    Inv { s with link := l', rx := o.elim .wait .handler } := by
  obtain ⟨hnot, hhand⟩ := h.irq_hand hspec.bus
  have hlog := h.log
  have hwoken := h.woken
  have hrunning := h.running
  rw [hpc, hhand, List.append_nil] at hlog
  rw [hpc] at hwoken hrunning
  refine ⟨fun hh => absurd hh hnot, ?_, ?_, ?_, fun hne => ?_⟩
  · rcases ho : o with _ | pc'
    · exact False.elim
    · exact hspec.holds pc' ho
  · have hlog' := hspec.log_eq hlog
    show l'.processed ++ RxPc.localList _ ++ l'.queue ++ s.irq.hand ++ RxPc.hand _ = l'.read
    rw [hhand, List.append_nil, ← hlog']
    rcases o with _ | pc' <;> rfl
  · show l'.bhRunning = true → _
    rw [hspec.bhRunning]
    exact fun hr => (hrunning hr).elim
  · have hdrain : s.link.queue ≠ [] → s.link.wakeup = true ∨ pc.Schedules ∨ s.irq.Schedules := by
      intro hq
      rcases hwoken hq with hw | hs | hs | hs
      · exact .inl hw
      · exact .inr (.inr hs)
      · exact .inr (.inl hs)
      · exact hs.elim
    rcases hspec.to_drain (fun hr => (hrunning hr).elim) hdrain hne with hw | ⟨pc', rfl, hs⟩ | hs
    · exact .inl hw
    · exact .inr (.inr (.inl hs))
    · exact .inr (.inl hs)

/-! ### Steps -/

theorem Inv.irqStep {found : Found F} (h : Inv s) (ht : s.step (.irq found) = some t) : Inv t := by
  simp only [State.step, State.irqStep] at ht
  rcases hpc : s.irq with _ | pc
  · rcases hbus : s.link.bus with _ | c <;> simp only [hpc, hbus, Option.some.injEq, reduceCtorEq] at ht
    have hrx := h.rx_hand (.inr hbus)
    have hlog := h.log
    have hwoken := h.woken
    rw [hpc] at hlog hwoken
    rw [← ht]
    refine ⟨fun _ => rfl, fun hh => absurd hh hrx.1, hlog, h.running, fun hne => ?_⟩
    rcases hwoken hne with hw | hs | hs
    · exact .inl hw
    · exact hs.elim
    · exact .inr (.inr hs)
  · simp only [hpc] at ht
    obtain ⟨⟨l', o⟩, hstep, hto⟩ := Option.map_eq_some_iff.mp ht
    have hirq := h.irqBus
    rw [hpc] at hirq
    have hspec := handlerStep_spec hirq hstep
    have hinv := h.irqHandler hpc hspec
    rcases o with _ | pc'
    · rw [← hto]
      exact hinv.release id (h.rx_hand hspec.bus).1
    · rwa [← hto]

theorem Inv.hookStep (h : Inv s) (ht : s.step .hook = some t) : Inv t := by
  simp only [State.step, State.hookStep] at ht
  split at ht
  · next hpc hbus =>
    have hirq := h.irq_hand (.inr hbus)
    have hlog := h.log
    have hrunning := h.running
    have hwoken := h.woken
    rw [hpc] at hlog hrunning hwoken
    rw [← Option.some.inj ht]
    exact ⟨fun hh => absurd hh hirq.1, fun _ => rfl, hlog, fun hr => (hrunning hr).elim, hwoken⟩
  · simp at ht

/-- **The RX thread**: it clears the flag on its way to drain the queue, and leaves when it finds the
queue empty. -/
theorem Inv.rxStep {found : Found F} (h : Inv s) (ht : s.step (.rx found) = some t) : Inv t := by
  have hirqBus := h.irqBus
  have hrxBus := h.rxBus
  have hlog := h.log
  have hrunning := h.running
  have hwoken := h.woken
  simp only [State.step] at ht
  unfold State.rxStep at ht
  rcases hpc : s.rx with _ | _ | _ | pc | _ | l | skbRx | f | _ | _ <;>
    rw [hpc] at hrxBus hlog hrunning hwoken <;> simp only [hpc] at ht
  case wait =>
    by_cases hw : s.link.wakeup = true
    · rw [if_pos hw] at ht
      rw [← Option.some.inj ht]
      exact ⟨hirqBus, False.elim, hlog, fun _ => trivial, fun _ => .inr (.inr (.inr trivial))⟩
    · rw [if_neg hw] at ht
      rw [← Option.some.inj ht]
      exact ⟨hirqBus, False.elim, hlog, fun hr => (hrunning hr).elim, hwoken⟩
  case idle =>
    rw [← Option.some.inj ht]
    exact ⟨hirqBus, False.elim, hlog, fun hr => (hrunning hr).elim, hwoken⟩
  case hook =>
    have hbus := hrxBus trivial
    have hirq := h.irq_hand (.inl hbus)
    have hinv : Inv { s with rx := .idle } :=
      ⟨hirqBus, False.elim, hlog, fun hr => (hrunning hr).elim, hwoken⟩
    rcases found with f | _ | _ | _ <;> simp only [Option.some.injEq] at ht <;> rw [← ht]
    case frame => exact ⟨hirqBus, fun _ => hbus, hlog, fun hr => (hrunning hr).elim, hwoken⟩
    all_goals exact hinv.release hirq.1 id
  case handler =>
    obtain ⟨⟨l', o⟩, hstep, hto⟩ := Option.map_eq_some_iff.mp ht
    have hspec := handlerStep_spec hrxBus hstep
    have hinv := h.rxHandler hpc hspec
    rcases o with _ | pc'
    · rw [← hto]
      exact hinv.release (h.irq_hand hspec.bus).1 id
    · rwa [← hto]
  case start =>
    rw [← Option.some.inj ht]
    refine ⟨hirqBus, False.elim, ?_, fun _ => trivial, fun hne => absurd rfl hne⟩
    simpa [RxPc.localList, RxPc.hand] using hlog
  case drain =>
    rcases l with _ | ⟨f, fs⟩
    · rcases hbus : s.link.bus with _ | c <;>
        simp only [hbus, Option.some.injEq, reduceCtorEq] at ht
      have hirq := h.irq_hand (.inr hbus)
      rw [← ht]
      exact ⟨fun hh => absurd hh hirq.1, fun _ => rfl, hlog, fun _ => trivial,
        fun _ => .inr (.inr (.inr trivial))⟩
    · rw [← Option.some.inj ht]
      refine ⟨hirqBus, False.elim, ?_, fun _ => trivial, fun _ => .inr (.inr (.inr trivial))⟩
      simpa [RxPc.localList, RxPc.hand] using hlog
  case read =>
    have hbus := hrxBus trivial
    have hirq := h.irq_hand (.inl hbus)
    rcases found with f | _ | _ | _ <;> simp only [Option.some.injEq] at ht <;> rw [← ht]
    case frame =>
      refine ⟨hirqBus, fun _ => hbus, ?_, fun _ => trivial, fun _ => .inr (.inr (.inr trivial))⟩
      have hlog' : s.link.processed ++ s.link.queue = s.link.read := by
        simpa [RxPc.localList, RxPc.hand, hirq.2] using hlog
      simp [RxPc.localList, RxPc.hand, hirq.2, ← hlog']
    all_goals
      exact ⟨hirqBus, fun _ => hbus, hlog, fun _ => trivial, fun _ => .inr (.inr (.inr trivial))⟩
  case submit =>
    have hbus := hrxBus trivial
    have hirq := h.irq_hand (.inl hbus)
    have hlog' : s.link.processed ++ (s.link.queue ++ [f]) = s.link.read := by
      simpa [RxPc.localList, RxPc.hand, hirq.2] using hlog
    rw [← Option.some.inj ht]
    refine ⟨hirqBus, fun _ => hbus, ?_, fun _ => ?_, fun _ => ?_⟩
    · split_ifs <;> simpa [RxPc.localList, RxPc.hand, hirq.2] using hlog'
    · split_ifs <;> trivial
    · right; right; right
      split_ifs <;> trivial
  case unlock =>
    have hirq := h.irq_hand (.inl (hrxBus trivial))
    have hinv : Inv { s with rx := .last } :=
      ⟨hirqBus, False.elim, hlog, fun _ => trivial, fun _ => .inr (.inr (.inr trivial))⟩
    rw [← Option.some.inj ht]
    exact hinv.release hirq.1 id
  case last =>
    rcases hq : s.link.queue with _ | ⟨f, fs⟩ <;> simp only [hq, Option.some.injEq] at ht hlog <;>
      rw [← ht]
    · refine ⟨hirqBus, False.elim, ?_, fun hr => by simp at hr, fun hne => absurd rfl hne⟩
      simpa [RxPc.localList, RxPc.hand, hq] using hlog
    · refine ⟨hirqBus, False.elim, ?_, fun _ => trivial, fun hne => absurd rfl hne⟩
      simpa [RxPc.localList, RxPc.hand] using hlog

theorem inv_step {a : Act F} (h : Inv s) (ht : s.step a = some t) : Inv t := by
  rcases a with found | found | _
  · exact h.irqStep ht
  · exact h.rxStep ht
  · exact h.hookStep ht

@[simp] theorem Found.before_none (found : Found F) : found.before none = none := by
  cases found <;> rfl

theorem freed_handlerStep {l l' : Link F} {c : Ctx} {found : Found F} {pc : HandlerPc F}
    {o : Option (HandlerPc F)} (h : l.handlerStep c found pc = some (l', o)) :
    l'.freed = l.freed ++ (found.before pc.skbRx).toList := by
  rcases pc with ⟨cnt, skbRx⟩ | ⟨cnt, f⟩ | ⟨cnt, full, f⟩ | _ | _ | _
  case read =>
    cases found <;> cases h <;> simp [Found.before, HandlerPc.skbRx]
  case asleep =>
    rcases hbus : l.bus with _ | c' <;> simp only [Link.handlerStep, hbus] at h <;> cases h
    simp [HandlerPc.skbRx]
  all_goals
    cases h
    simp [HandlerPc.skbRx]

theorem freed_irqStep {found : Found F} (ht : s.irqStep found = some t) :
    t.link.freed = s.link.freed ++ (found.before s.irq.skbRx).toList := by
  simp only [State.irqStep] at ht
  rcases hpc : s.irq with _ | pc
  · rcases hbus : s.link.bus with _ | c <;> simp only [hpc, hbus] at ht <;> cases ht
    simp [IrqPc.skbRx]
  · simp only [hpc] at ht
    obtain ⟨⟨l', o⟩, hstep, hto⟩ := Option.map_eq_some_iff.mp ht
    have hfreed := freed_handlerStep hstep
    cases o <;> rw [← hto] <;> exact hfreed

theorem freed_rxStep {found : Found F} (ht : s.rxStep found = some t) :
    t.link.freed = s.link.freed ++ (found.before s.rx.skbRx).toList := by
  unfold State.rxStep at ht
  rcases hpc : s.rx with _ | _ | _ | pc | _ | l | skbRx | f | _ | _ <;> simp only [hpc] at ht
  case handler =>
    obtain ⟨⟨l', o⟩, hstep, hto⟩ := Option.map_eq_some_iff.mp ht
    have hfreed := freed_handlerStep hstep
    cases o <;> rw [← hto] <;> exact hfreed
  case wait =>
    split_ifs at ht <;> cases ht <;> simp [RxPc.skbRx]
  case hook =>
    cases found <;> cases ht <;> simp [RxPc.skbRx]
  case drain =>
    rcases l with _ | ⟨f, fs⟩
    · rcases hbus : s.link.bus with _ | c <;> simp only [hbus] at ht <;> cases ht
      simp [RxPc.skbRx]
    · cases ht
      simp [RxPc.skbRx]
  case read =>
    cases found <;> cases ht <;> simp [Found.before, RxPc.skbRx]
  case last =>
    rcases hq : s.link.queue with _ | ⟨f, fs⟩ <;> simp only [hq] at ht <;> cases ht <;>
      simp [RxPc.skbRx]
  all_goals
    cases ht
    simp [RxPc.skbRx]

/-- **A step frees** the frame that an error of the control register is behind, and no other. -/
theorem freed_step {a : Act F} (ht : s.step a = some t) :
    t.link.freed = s.link.freed ++ (s.before a).toList := by
  rcases a with found | found | _
  · exact freed_irqStep ht
  · exact freed_rxStep ht
  · simp only [State.step, State.hookStep] at ht
    split at ht <;> cases ht
    exact (List.append_nil _).symm

/-! ### Every run -/

/-- **The queue is bound to be drained**, in every run: while it is not empty, `THREAD_WAKEUP` is set, or
a context that has queued a frame is about to set it, or the RX thread has cleared it and not made its
last test of the queue. -/
def State.Draining (s : State F) : Prop := s.link.queue ≠ [] →
  s.link.wakeup = true ∨ s.irq.Schedules ∨ s.rx.Schedules ∨ s.rx.InBh

theorem inv_of_reach {P : State F → Act F → Prop} (h : Reach system P s) : Inv s :=
  h.inv_of_start (I := Inv) (fun _ => id) inv_start fun _ _ _ hi _ ht => inv_step hi ht

/-- **Every frame is processed once and in order**: what has been processed, what the RX thread has
taken off the queue, the queue, and a frame in the hands of the context that holds the bus are the
frames read, in the order of reading. In runs that meet the condition no frame that was handed on is
freed; a step that does not meet it frees one. -/
theorem read_then_processed (h : Reach system Undisturbed s) :
    s.link.processed ++ s.rx.localList ++ s.link.queue ++ (s.irq.hand ++ s.rx.hand) = s.link.read ∧
      s.Draining ∧ s.link.freed = [] ∧
      ∀ a t, s.step a = some t → (t.link.freed = [] ↔ Undisturbed s a) := by
  have hinv := inv_of_reach h
  have hfreed : s.link.freed = [] := by
    refine h.inv_of_start (I := fun s : State F => s.link.freed = []) (fun _ => id) rfl ?_
    intro s a t hs hp ht
    rw [freed_step ht, hs, hp]
    rfl
  rw [← List.append_assoc]
  refine ⟨hinv.log, hinv.woken, hfreed, fun a t ht => ?_⟩
  rw [freed_step ht, hfreed, List.nil_append]
  unfold Undisturbed
  cases s.before a <;> simp

/-- The steps of the interrupt thread that read a frame and queue it. -/
def push (f : ℕ) : List (Act ℕ) := [.irq .empty, .irq (.frame f), .irq .empty]

/-- A frame is queued and scheduled, the RX thread processes it, and another is queued meanwhile. -/
theorem read_then_processed_two : ∃ s : State ℕ, Reach system Undisturbed s ∧
    s.link.queue = [2] ∧
    (s.link.processed ++ s.rx.localList ++ s.link.queue ++ (s.irq.hand ++ s.rx.hand) = s.link.read ∧
      s.Draining ∧ s.link.freed = [] ∧
      ∀ a t, s.step a = some t → (t.link.freed = [] ↔ Undisturbed s a)) := by
  let as : List (Act ℕ) := push 1 ++ [.irq .empty, .irq .empty] ++ List.replicate 3 (.rx .empty) ++
    push 2
  have hout : (exec system .start as).map (fun s => s.link.queue) = some [2] := by decide
  obtain ⟨s, hs, hqueue⟩ := Option.map_eq_some_iff.mp hout
  have hclean : ∀ a ∈ as, ∀ s : State ℕ, Undisturbed s a := by
    intro a ha s
    simp only [as, push, List.cons_append, List.nil_append, List.mem_cons, List.mem_append,
      List.mem_replicate, List.not_mem_nil, or_false] at ha
    rcases ha with rfl | rfl | rfl | rfl | rfl | ⟨-, rfl⟩ | rfl | rfl | rfl <;> rfl
  have hr : Reach system Undisturbed s := (Reach.init rfl).of_exec_forall hclean hs
  exact ⟨s, hr, hqueue, read_then_processed hr⟩

/-- **A frame that is queued is freed** when the control register cannot be read after it, and is
processed later. -/
theorem queued_freed : ∃ s t : State ℕ, Reach system (fun _ _ => True) s ∧
    s.link.queue = [1] ∧ s.link.freed = [1] ∧ s.link.processed = [] ∧
    exec system s (List.replicate 3 (.rx .empty)) = some t ∧
    t.link.processed = [1] ∧ t.link.freed = [1] := by
  have hfree : (exec system .start (push 1 ++ [.irq .empty, .irq .badCtrl])).map (fun s : State ℕ =>
      (s.link.queue, s.link.freed, s.link.processed)) = some ([1], [1], []) := by decide
  obtain ⟨s, hs, hout⟩ := Option.map_eq_some_iff.mp hfree
  have hprocess : (exec system .start (push 1 ++ [.irq .empty, .irq .badCtrl] ++
      List.replicate 3 (.rx .empty))).map (fun s : State ℕ => (s.link.processed, s.link.freed)) =
        some ([1], [1]) := by decide
  rw [exec_append, hs, Option.bind_some] at hprocess
  obtain ⟨t, ht, hout'⟩ := Option.map_eq_some_iff.mp hprocess
  simp only [Prod.mk.injEq] at hout hout'
  exact ⟨s, t, Reach.of_exec (.init rfl) hs, hout.1, hout.2.1, hout.2.2, ht, hout'⟩

end Atbm6441.Sdio.RxQueue
