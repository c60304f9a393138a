import Atbm6441.Lib.Runs
import Atbm6441.Rx.Reorder.Run

/-!
# From the reorder buffer to the RX handlers

The reorder logic releases frames under `reorder_lock` into a list of its own; its caller gives the
list to the RX handlers later, under `rx_path_lock`. The RX thread and the callback of the reorder
timer do so side by side, and on the RTOS port `atbm_mod_timer` runs the callback itself when the
expiry time has passed. `delivered_in_order` : the frames reach the handlers in the order of their
release, as long as no release section runs while released frames wait (`Alone`);
`overtakes` : otherwise the timer callback overtakes the RX thread.
-/

namespace Atbm6441.Rx.Delivery

open Atbm6441.Ieee80211 Atbm6441.Lib Atbm6441.Rx.Reorder

variable {w : ℕ}

/-- Who calls the reorder logic: the RX thread or the timer. -/
inductive Ctx
  | rx
  | timer
deriving DecidableEq

/-- A list `reorder_release` on the stack of a context. `inModTimer` : its caller is still in
`atbm_mod_timer`, which is about to run the callback of the timer. -/
structure Pending where
  frames : List SkBuff
  inModTimer : Bool

/-- A session, the lists that each context has released and not yet delivered (the innermost first),
and all frames released and delivered so far. -/
structure State (w : ℕ) where
  tmo : ReorderTimeout
  agg : TidAmpduRx w
  stack : Ctx → List Pending
  released : List SkBuff
  delivered : List SkBuff

inductive Act (w : ℕ)
  /-- a frame arrives at `now`; `later` is the time that `atbm_mod_timer` sees -/
  | frame (skb : SkBuff) (now later : BitVec w)
  /-- the reorder timer fires -/
  | expiry (now later : BitVec w)
  /-- `atbm_mod_timer` runs the callback -/
  | nested (c : Ctx) (now later : BitVec w)
  /-- `ieee80211_rx_handlers` -/
  | deliver (c : Ctx)
  /-- a frame of another session arrives -/
  | other (skb : SkBuff)

/-- `expires <= jiffies` in `atbm_mod_timer`, for the reorder timer. -/
def hasPassed (t : TidAmpduRx w) (later : BitVec w) : Bool :=
  match t.reorderTimer with
  | some expires => expires.ule later
  | none => false

namespace State

/-- All that was released and not yet delivered. -/
def pending (s : State w) : List Pending := s.stack .rx ++ s.stack .timer

def undelivered (s : State w) : List SkBuff := s.pending.flatMap Pending.frames

/-- A release section of context `c` ends with the session `t`; `modTimer` : it has set the timer. -/
def release (rtos : Bool) (s : State w) (c : Ctx) (t : TidAmpduRx w) (frames : List SkBuff)
    (modTimer : Bool) (later : BitVec w) : State w :=
  let runs := rtos && modTimer && hasPassed t later
  { s with
    agg := if runs then { t with reorderTimer := none } else t
    stack := Function.update s.stack c (⟨frames, runs⟩ :: s.stack c)
    released := s.released ++ frames }

/-- `ieee80211_release_reorder_timeout` up to the RX handlers. -/
def releaseTimeout (rtos : Bool) (s : State w) (c : Ctx) (now later : BitVec w) : State w :=
  let r := ieee80211StaReorderRelease s.tmo now s.agg []
  s.release rtos c r.1 r.2 true later

def step (rtos : Bool) (s : State w) : Act w → Option (State w)
  | .frame skb now later =>
    match s.stack .rx with
    | [] =>
      let tmo := updateTimeout s.tmo skb
      let m := ieee80211StaManageReorderBuf tmo now s.agg skb []
      -- the release sets the timer; the other ways out do not come that far
      some ({ s with tmo := tmo }.release rtos .rx m.agg (m.handedOn skb)
        (m.ret && m.freed.isEmpty) later)
    | _ :: _ => none
  | .expiry now later =>
    match s.stack .timer with
    | [] => some (s.releaseTimeout rtos .timer now later)
    | _ :: _ => none
  | .nested c now later =>
    match s.stack c with
    | ⟨frames, true⟩ :: l =>
      some ({ s with stack := Function.update s.stack c (⟨frames, false⟩ :: l) }.releaseTimeout
        rtos c now later)
    | _ => none
  | .deliver c =>
    match s.stack c with
    | ⟨frames, false⟩ :: l =>
      some { s with
        stack := Function.update s.stack c l
        delivered := s.delivered ++ frames }
    | _ => none
  | .other skb => some { s with tmo := updateTimeout s.tmo skb }

end State

/-- A session from its ADDBA request on, on a port that is the RTOS port or not. -/
def system (w : ℕ) (rtos : Bool) : System (State w) (Act w) where
  init s := (∃ now sta req, ieee80211ProcessAddbaRequest now sta req true = some s.agg) ∧
    s.stack = (fun _ => []) ∧ s.released = [] ∧ s.delivered = []
  step := State.step rtos

/-- **Frames are delivered in the order of their release.** -/
def InOrder (s : State w) : Prop := s.delivered <+: s.released

/-- **The steps alone**: a release section runs only when all released frames were delivered. -/
def Alone (s : State w) : Act w → Prop
  | .frame _ _ _ | .expiry _ _ | .nested _ _ _ => s.undelivered = []
  | .deliver _ | .other _ => True

instance (s : State w) (a : Act w) : Decidable (Alone s a) :=
  match a with
  | .frame _ _ _ | .expiry _ _ | .nested _ _ _ => inferInstanceAs (Decidable (s.undelivered = []))
  | .deliver _ | .other _ => .isTrue trivial

/-! ### The invariant -/

/-- At most one context has frames to deliver, and it has all of them. -/
structure Waiting (s : State w) : Prop where
  released : s.released = s.delivered ++ s.undelivered
  single : ∀ p ∈ s.pending, p.frames = [] ∨ p.frames = s.undelivered

variable {s t : State w} {a : Act w} {rtos : Bool}

theorem mem_pending {p : Pending} : p ∈ s.pending ↔ ∃ c, p ∈ s.stack c := by
  rw [State.pending, List.mem_append]
  constructor
  · rintro (h | h)
    · exact ⟨.rx, h⟩
    · exact ⟨.timer, h⟩
  · rintro ⟨_ | _, h⟩
    · exact Or.inl h
    · exact Or.inr h

theorem undelivered_eq_nil : s.undelivered = [] ↔ ∀ c, ∀ p ∈ s.stack c, p.frames = [] := by
  rw [State.undelivered, List.flatMap_eq_nil_iff]
  constructor
  · intro h c p hp
    exact h p (mem_pending.mpr ⟨c, hp⟩)
  · intro h p hp
    obtain ⟨c, hp⟩ := mem_pending.mp hp
    exact h c p hp

/-- Put another list of pending frames on the stack of a context. -/
def State.setStack (s : State w) (c : Ctx) (l : List Pending) : State w :=
  { s with stack := Function.update s.stack c l }

theorem undelivered_cons (s : State w) (c : Ctx) (p : Pending) (l : List Pending) :
    ∃ pre post, (s.setStack c (p :: l)).undelivered = pre ++ (p.frames ++ post) ∧
      (s.setStack c l).undelivered = pre ++ post := by
  cases c with
  | rx =>
    refine ⟨[], l.flatMap Pending.frames ++ (s.stack .timer).flatMap Pending.frames, ?_, ?_⟩
    · simp [State.undelivered, State.pending, State.setStack, Function.update_of_ne]
    · simp [State.undelivered, State.pending, State.setStack, Function.update_of_ne]
  | timer =>
    refine ⟨(s.stack .rx).flatMap Pending.frames, l.flatMap Pending.frames, ?_, ?_⟩
    · simp [State.undelivered, State.pending, State.setStack, Function.update_of_ne]
    · simp [State.undelivered, State.pending, State.setStack, Function.update_of_ne]

theorem setStack_self {c : Ctx} {l : List Pending} (h : s.stack c = l) : s.setStack c l = s := by
  rw [State.setStack, ← h, Function.update_eq_self]

theorem mem_setStack {c d : Ctx} {l : List Pending} {p : Pending}
    (h : p ∈ (s.setStack c l).stack d) : p ∈ l ∨ p ∈ s.stack d := by
  change p ∈ Function.update s.stack c l d at h
  by_cases hd : d = c
  · subst hd
    rw [Function.update_self] at h
    exact Or.inl h
  · rw [Function.update_of_ne hd] at h
    exact Or.inr h

/-- **A release section that runs alone** leaves its frames as the only ones to deliver. -/
theorem waiting_release (hs : s.undelivered = []) (hr : s.released = s.delivered) (c : Ctx)
    (agg : TidAmpduRx w) (frames : List SkBuff) (modTimer : Bool) (later : BitVec w) :
    Waiting (s.release rtos c agg frames modTimer later) := by
  have hstack := undelivered_eq_nil.mp hs
  obtain ⟨pre, post, hall, hrest⟩ := undelivered_cons s c
    ⟨frames, rtos && modTimer && hasPassed agg later⟩ (s.stack c)
  rw [setStack_self rfl, hs] at hrest
  obtain ⟨rfl, rfl⟩ := List.append_eq_nil_iff.mp hrest.symm
  have hund : (s.release rtos c agg frames modTimer later).undelivered = frames :=
    hall.trans (List.append_nil frames)
  refine ⟨?_, fun p hp => ?_⟩
  · rw [hund]
    exact congrArg (· ++ frames) hr
  · rw [hund]
    obtain ⟨d, hp⟩ := mem_pending.mp hp
    rcases mem_setStack hp with hp | hp
    · rcases List.mem_cons.mp hp with rfl | hp
      · exact Or.inr rfl
      · exact Or.inl (hstack c p hp)
    · exact Or.inl (hstack d p hp)

theorem Waiting.all_delivered (h : Waiting s) (hs : s.undelivered = []) :
    s.released = s.delivered := by
  rw [h.released, hs, List.append_nil]

theorem Waiting.deliver (h : Waiting s) {c : Ctx} {p : Pending} {l : List Pending}
    (hc : s.stack c = p :: l) :
    Waiting { s.setStack c l with delivered := s.delivered ++ p.frames } := by
  obtain ⟨pre, post, hall, hrest⟩ := undelivered_cons s c p l
  rw [setStack_self hc] at hall
  have hmem : ∀ d, ∀ q ∈ (s.setStack c l).stack d, q ∈ s.pending := by
    intro d q hq
    rcases mem_setStack hq with hq | hq
    · exact mem_pending.mpr ⟨c, by rw [hc]; exact List.mem_cons_of_mem p hq⟩
    · exact mem_pending.mpr ⟨d, hq⟩
  rcases h.single p (mem_pending.mpr ⟨c, by rw [hc]; exact List.mem_cons_self⟩) with hp | hp
  · -- nothing to deliver in this list
    rw [hp, List.nil_append, ← hrest] at hall
    refine ⟨?_, fun q hq => ?_⟩
    · have := h.released
      rw [hall] at this
      rw [hp, List.append_nil]
      exact this
    · obtain ⟨d, hq⟩ := mem_pending.mp hq
      have := h.single q (hmem d q hq)
      rw [hall] at this
      exact this
  · -- the list holds all that is undelivered
    have hlen := congrArg List.length (hp.trans hall)
    simp only [List.length_append] at hlen
    obtain rfl := List.length_eq_zero_iff.mp (show pre.length = 0 by omega)
    obtain rfl := List.length_eq_zero_iff.mp (show post.length = 0 by omega)
    refine ⟨?_, fun q hq => ?_⟩
    · have := h.released
      rw [← hp] at this
      refine this.trans ?_
      change _ = s.delivered ++ p.frames ++ (s.setStack c l).undelivered
      rw [hrest, List.append_nil, List.append_nil]
    · obtain ⟨d, hq⟩ := mem_pending.mp hq
      exact Or.inl (undelivered_eq_nil.mp hrest d q hq)

/-- **Every step alone keeps the invariant.** -/
theorem waiting_step (h : Waiting s) (hon : Alone s a) (ht : s.step rtos a = some t) :
    Waiting t := by
  cases a with
  | frame skb now later =>
    simp only [State.step] at ht
    split at ht <;> cases ht
    have hs : State.undelivered { s with tmo := updateTimeout s.tmo skb } = [] := hon
    exact waiting_release hs (h.all_delivered hon) _ _ _ _ _
  | expiry now later =>
    simp only [State.step] at ht
    split at ht <;> cases ht
    exact waiting_release hon (h.all_delivered hon) _ _ _ _ _
  | nested c now later =>
    simp only [State.step] at ht
    split at ht <;> cases ht
    next frames l hc =>
    have hnil := undelivered_eq_nil.mp hon
    have hs : (s.setStack c (⟨frames, false⟩ :: l)).undelivered = [] := by
      rw [undelivered_eq_nil]
      intro d p hp
      rcases mem_setStack hp with hp | hp
      · rcases List.mem_cons.mp hp with rfl | hp
        · exact hnil c ⟨frames, true⟩ (by rw [hc]; exact List.mem_cons_self)
        · exact hnil c p (by rw [hc]; exact List.mem_cons_of_mem _ hp)
      · exact hnil d p hp
    exact waiting_release hs (h.all_delivered hon) _ _ _ _ _
  | deliver c =>
    simp only [State.step] at ht
    split at ht <;> cases ht
    next frames l hc => exact h.deliver hc
  | other skb =>
    cases ht
    exact ⟨h.released, h.single⟩

/-- **Frames are delivered in the order of their release**, in every run whose release sections
run alone. -/
theorem delivered_in_order (h : Reach (system w rtos) Alone s) : InOrder s := by
  have hinv : Waiting s := by
    refine Reach.inv ?_ ?_ h
    · rintro s ⟨-, hstack, hreleased, hdelivered⟩
      have hs : s.undelivered = [] := by
        rw [undelivered_eq_nil, hstack]
        exact nofun
      refine ⟨?_, fun p hp => ?_⟩
      · rw [hreleased, hdelivered, hs]
        rfl
      · obtain ⟨c, hp⟩ := mem_pending.mp hp
        exact Or.inl (undelivered_eq_nil.mp hs c p hp)
    · intro s a t hI hon ht
      exact waiting_step hI hon ht
  exact ⟨s.undelivered, hinv.released.symm⟩

/-! ### A timer callback beside the RX thread -/

/-- A session of 8 slots that starts at sequence number 0. -/
def fresh : State 32 where
  tmo := reorderTimeoutInit
  agg := freshSession
  stack _ := []
  released := []
  delivered := []

theorem fresh_init (rtos : Bool) : (system 32 rtos).init fresh :=
  ⟨⟨0, ⟨false, 0⟩, ⟨0x0202, 0, 0⟩, freshSession_eq⟩, rfl, rfl, rfl⟩

/-- Frames 1 and 3 wait for frame 0, which arrives late. -/
def lateFrame : List (Act 32) :=
  [.frame (qosFrame 1) 10 10, .deliver .rx, .frame (qosFrame 3) 11 11, .deliver .rx,
    .frame (qosFrame 0) 80 80]

theorem delivered_in_order_thenTimer : ∃ s, Reach (system 32 false) Alone s ∧
    s.delivered.map mpduSeqNum = [0, 1, 3] ∧ InOrder s := by
  have hout : (execIf (system 32 false) Alone fresh
      (lateFrame ++ [.deliver .rx, .expiry 200 200, .deliver .timer])).map
        (·.delivered.map mpduSeqNum) = some [0, 1, 3] := by
    decide +kernel
  obtain ⟨s, hs, hdel⟩ := Option.map_eq_some_iff.mp hout
  have hr := Reach.of_execIf (.init (fresh_init false)) hs
  exact ⟨s, hr, hdel, delivered_in_order hr⟩

/-- **The timer overtakes the RX thread**: it fires between the release of frames 0 and 1 and their
delivery, and delivers frame 3 first. -/
theorem overtakes : ∃ s, Reach (system 32 false) (fun _ _ => True) s ∧ ¬ InOrder s := by
  have hout : (exec (system 32 false) fresh
      (lateFrame ++ [.expiry 200 200, .deliver .timer])).map
        (fun s => (s.delivered.map mpduSeqNum, s.released.map mpduSeqNum)) =
          some ([3], [0, 1, 3]) := by
    decide +kernel
  obtain ⟨s, hs, hout⟩ := Option.map_eq_some_iff.mp hout
  obtain ⟨hdel, hrel⟩ := Prod.mk.inj hout
  refine ⟨s, Reach.of_exec (.init (fresh_init false)) hs, fun h => ?_⟩
  have hprefix := h.map mpduSeqNum
  rw [hdel, hrel] at hprefix
  exact absurd hprefix (by decide)

end Atbm6441.Rx.Delivery
