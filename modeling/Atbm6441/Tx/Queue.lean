import Atbm6441.Lib.Runs
import Mathlib.Data.Int.Init
import Mathlib.Data.List.Basic
import Mathlib.Tactic.Common

/-!
# The transmit queue and its counter

`atbm_submit_package`, `wsm_cmd_send_no_ack`, the frames that `atbm_sdio_tx_bh` takes,
`atbm_tx_bh_flush`, `atbm_open` and `atbm_stop`, for any number of senders: each operation on
`tx_frame_queue`, each section under `tx_queue_lock` and each call on the network queue is one
step. The network core does not open and stop the interface at the same time.

`at_rest` : the counter is the length of the queue and the network queue of an open interface is
stopped only while `tx_queue_overfull` is set, in runs without commands that are not acknowledged and
flushed frames where no wake-up comes before a stop that it answers.
`noAck_uncounted` and `stopped_after_wake` : in other runs neither holds.
-/

namespace Atbm6441.Tx.Queue

open Atbm6441.Lib

/-! ### The queue -/

/-- `ATBM_WIFI_MAX_QUEUE_SZ`. -/
def atbmWifiMaxQueueSz : ℤ := 256

/-- Where `atbm_sdio_tx_bh` is with a frame. -/
inductive BhPc
  | idle
  /-- taken, and not counted -/
  | got
  /-- counted, and about to wake the network queue -/
  | toWake
deriving DecidableEq

/-- Where the interface is. -/
inductive IfPc
  | closed
  /-- `atbm_open` before it starts the network queue -/
  | opening
  /-- `atbm_open` before it clears `tx_queue_overfull` -/
  | started
  | opened
  /-- `atbm_stop` before it stops the network queue -/
  | stopping
deriving DecidableEq

/-- The length of `tx_frame_queue`, `tx_num_queued`, `tx_queue_overfull`, whether the network queue is
stopped; the senders that are to count their frame, and those that are to stop the network queue. -/
structure State where
  queue : ℕ
  txNumQueued : ℤ
  overfull : Bool
  stopped : Bool
  toCount : ℕ
  toStop : ℕ
  bh : BhPc
  vif : IfPc
deriving DecidableEq

/-- An interface that has not been opened. -/
def State.start : State := ⟨0, 0, false, false, 0, 0, .idle, .closed⟩

inductive Act
  /-- `atbm_submit_package` queues a frame -/
  | submit
  /-- it counts it -/
  | count
  /-- it stops the network queue -/
  | netifStop
  /-- `wsm_cmd_send_no_ack` queues a command -/
  | noAck
  /-- the bottom half takes a frame -/
  | take
  /-- it counts it -/
  | uncount
  /-- it wakes the network queue -/
  | netifWake
  /-- `atbm_tx_bh_flush` takes a frame -/
  | flush
  /-- `atbm_open` or `atbm_stop` takes a step -/
  | vif
deriving DecidableEq

/-- `atbm_open` and `atbm_stop`. -/
def State.vifStep (s : State) : State :=
  match s.vif with
  | .closed => { s with vif := .opening }
  | .opening => { s with stopped := false, vif := .started }
  | .started => { s with overfull := false, vif := .opened }
  | .opened => { s with vif := .stopping }
  | .stopping => { s with stopped := true, vif := .closed }

def State.step (s : State) : Act → Option State
  | .submit => some { s with queue := s.queue + 1, toCount := s.toCount + 1 }
  | .count =>
    if 0 < s.toCount then
      if s.overfull = false ∧ atbmWifiMaxQueueSz ≤ s.txNumQueued + 1 then
        some { s with
          txNumQueued := s.txNumQueued + 1
          overfull := true
          toCount := s.toCount - 1
          toStop := s.toStop + 1 }
      else some { s with txNumQueued := s.txNumQueued + 1, toCount := s.toCount - 1 }
    else none
  | .netifStop =>
    if 0 < s.toStop then some { s with stopped := true, toStop := s.toStop - 1 } else none
  | .noAck => some { s with queue := s.queue + 1 }
  | .take => if 0 < s.queue ∧ s.bh = .idle then some { s with queue := s.queue - 1, bh := .got }
    else none
  | .uncount =>
    if s.bh = .got then
      if s.overfull ∧ s.txNumQueued - 1 ≤ atbmWifiMaxQueueSz / 2 then
        some { s with txNumQueued := s.txNumQueued - 1, overfull := false, bh := .toWake }
      else some { s with txNumQueued := s.txNumQueued - 1, bh := .idle }
    else none
  | .netifWake => if s.bh = .toWake then some { s with stopped := false, bh := .idle } else none
  | .flush => if 0 < s.queue then some { s with queue := s.queue - 1 } else none
  | .vif => some s.vifStep

def system : System State Act where
  init s := s = .start
  step := State.step

/-- No operation is in progress. -/
def State.AtRest (s : State) : Prop :=
  s.toCount = 0 ∧ s.toStop = 0 ∧ s.bh = .idle ∧ (s.vif = .opened ∨ s.vif = .closed)

/-! ### The condition -/

/-- **A step keeps the counter and the flag**: commands that are not acknowledged are not queued and no
frame is flushed; the bottom half wakes the network queue when no stop is to come, or the flag is set
again; and `atbm_open` clears the flag when it is clear, or nothing is stopped, or a wake-up is to
come. -/
def Keeps (s : State) : Act → Prop
  | .noAck | .flush => False
  | .netifWake => s.toStop = 0 ∨ s.overfull
  | .vif => s.vif = .started →
      s.overfull = false ∨ s.bh = .toWake ∨ s.toStop = 0 ∧ s.stopped = false
  | .submit | .count | .netifStop | .take | .uncount => True

instance (s : State) : (a : Act) → Decidable (Keeps s a)
  | .noAck | .flush => .isFalse id
  | .netifWake => inferInstanceAs (Decidable (s.toStop = 0 ∨ s.overfull))
  | .vif => inferInstanceAs (Decidable (s.vif = .started →
      s.overfull = false ∨ s.bh = .toWake ∨ s.toStop = 0 ∧ s.stopped = false))
  | .submit | .count | .netifStop | .take | .uncount => .isTrue trivial

/-! ### The invariant -/

/-- The frames that the bottom half has taken and not counted. -/
def BhPc.uncounted : BhPc → ℤ
  | .got => 1
  | .idle | .toWake => 0

/-- `atbm_open` has started the network queue. -/
def IfPc.Started : IfPc → Prop
  | .started | .opened => True
  | .closed | .opening | .stopping => False

/-- A stopped network queue is woken: the flag is set, or the bottom half is about to wake it. -/
def State.IsWoken (s : State) : Prop := s.overfull = true ∨ s.bh = .toWake

structure Inv (s : State) : Prop where
  num : s.txNumQueued + s.toCount = s.queue + s.bh.uncounted
  toStop : 0 < s.toStop → s.IsWoken
  stopped : s.vif.Started → s.stopped = true → s.IsWoken

variable {s t : State}

theorem inv_start : Inv .start :=
  ⟨rfl, fun h => by simp [State.start] at h, fun h => h.elim⟩

theorem Inv.count (h : Inv s) (ht : s.step .count = some t) : Inv t := by
  have hnum := h.num
  obtain ⟨h0, ht⟩ := Option.ite_none_right_eq_some.mp ht
  by_cases hfull : s.overfull = false ∧ atbmWifiMaxQueueSz ≤ s.txNumQueued + 1
  · rw [if_pos hfull] at ht
    rw [← Option.some.inj ht]
    exact ⟨by dsimp only; omega, fun _ => .inl rfl, fun _ _ => .inl rfl⟩
  · rw [if_neg hfull] at ht
    rw [← Option.some.inj ht]
    exact ⟨by dsimp only; omega, h.toStop, h.stopped⟩

theorem Inv.netifStop (h : Inv s) (ht : s.step .netifStop = some t) : Inv t := by
  obtain ⟨h0, ht⟩ := Option.ite_none_right_eq_some.mp ht
  rw [← Option.some.inj ht]
  exact ⟨h.num, fun _ => h.toStop h0, fun _ _ => h.toStop h0⟩

theorem Inv.take (h : Inv s) (ht : s.step .take = some t) : Inv t := by
  have hnum := h.num
  obtain ⟨⟨h0, hidle⟩, ht⟩ := Option.ite_none_right_eq_some.mp ht
  -- no wake-up is to come, so the flag is set where something is stopped
  have hflag : s.IsWoken → s.overfull = true := fun hw => hw.resolve_right (by simp [hidle])
  rw [← Option.some.inj ht]
  refine ⟨?_, fun hs => .inl (hflag (h.toStop hs)), fun hv hs => .inl (hflag (h.stopped hv hs))⟩
  rw [hidle] at hnum
  simp only [BhPc.uncounted] at hnum ⊢
  omega

theorem Inv.uncount (h : Inv s) (ht : s.step .uncount = some t) : Inv t := by
  have hnum := h.num
  obtain ⟨hgot, ht⟩ := Option.ite_none_right_eq_some.mp ht
  have hflag : s.IsWoken → s.overfull = true := fun hw => hw.resolve_right (by simp [hgot])
  rw [hgot] at hnum
  simp only [BhPc.uncounted] at hnum
  by_cases hwake : s.overfull ∧ s.txNumQueued - 1 ≤ atbmWifiMaxQueueSz / 2
  · rw [if_pos hwake] at ht
    rw [← Option.some.inj ht]
    refine ⟨?_, fun _ => .inr rfl, fun _ _ => .inr rfl⟩
    simp only [BhPc.uncounted]
    omega
  · rw [if_neg hwake] at ht
    rw [← Option.some.inj ht]
    refine ⟨?_, fun hs => .inl (hflag (h.toStop hs)), fun hv hs => .inl (hflag (h.stopped hv hs))⟩
    simp only [BhPc.uncounted]
    omega

theorem Inv.netifWake (h : Inv s) (hk : Keeps s .netifWake) (ht : s.step .netifWake = some t) :
    Inv t := by
  have hnum := h.num
  obtain ⟨hwake, ht⟩ := Option.ite_none_right_eq_some.mp ht
  rw [← Option.some.inj ht]
  rw [hwake] at hnum
  refine ⟨hnum, fun h0 => .inl (hk.resolve_left ?_), fun _ hs => by simp at hs⟩
  dsimp only at h0
  omega

theorem Inv.vif (h : Inv s) (hk : Keeps s .vif) (ht : s.step .vif = some t) : Inv t := by
  have hstopped := h.stopped
  unfold Keeps at hk
  rw [← Option.some.inj ht]
  unfold State.vifStep
  rcases hv : s.vif with _ | _ | _ | _ | _ <;> rw [hv] at hk hstopped <;> dsimp only
  case closed => exact ⟨h.num, h.toStop, fun hs => hs.elim⟩
  case opening => exact ⟨h.num, h.toStop, fun _ hs => by simp at hs⟩
  case started =>
    -- what is stopped or to be stopped is woken by the bottom half
    have hwake : s.IsWoken → 0 < s.toStop ∨ s.stopped = true → s.bh = .toWake := by
      rintro hw hs
      rcases hk rfl with hclear | hbh | ⟨hnone, hrun⟩
      · exact hw.resolve_left (by simp [hclear])
      · exact hbh
      · rcases hs with hs | hs
        · omega
        · simp [hrun] at hs
    exact ⟨h.num, fun hs => .inr (hwake (h.toStop hs) (.inl hs)),
      fun _ hs => .inr (hwake (hstopped trivial hs) (.inr hs))⟩
  case opened => exact ⟨h.num, h.toStop, fun hs => hs.elim⟩
  case stopping => exact ⟨h.num, h.toStop, fun hs => hs.elim⟩

theorem inv_step {a : Act} (h : Inv s) (hk : Keeps s a) (ht : s.step a = some t) : Inv t := by
  rcases a with _ | _ | _ | _ | _ | _ | _ | _ | _
  · have hnum := h.num
    rw [← Option.some.inj ht]
    exact ⟨by push_cast; omega, h.toStop, h.stopped⟩
  · exact h.count ht
  · exact h.netifStop ht
  · exact hk.elim
  · exact h.take ht
  · exact h.uncount ht
  · exact h.netifWake hk ht
  · exact hk.elim
  · exact h.vif hk ht

/-- **At rest**, when every step keeps the counter and the flag: the counter is the length of the
queue, and the network queue of an open interface is stopped only while the flag is set. -/
theorem at_rest (h : Reach system Keeps s) (hr : s.AtRest) :
    s.txNumQueued = s.queue ∧ (s.stopped = true → s.overfull = true ∨ s.vif = .closed) := by
  have hinv : Inv s := h.inv_of_start (I := Inv) (fun _ => id) inv_start fun _ _ _ => inv_step
  obtain ⟨hcount, -, hbh, hvif⟩ := hr
  have hnum := hinv.num
  rw [hbh, hcount] at hnum
  refine ⟨by simpa [BhPc.uncounted] using hnum, fun hs => ?_⟩
  rcases hvif with hopen | hclosed
  · rcases hinv.stopped (by rw [hopen]; trivial) hs with hfull | hwake
    · exact .inl hfull
    · simp [hbh] at hwake
  · exact .inr hclosed

/-! ### Runs -/

/-- `n` frames are queued and counted. -/
def submitted (n : ℕ) : List Act := (List.replicate n [.submit, .count]).flatten

/-- The bottom half takes and counts `n` frames. -/
def taken (n : ℕ) : List Act := (List.replicate n [.take, .uncount]).flatten

/-- `atbm_open`. -/
def opened : List Act := [.vif, .vif, .vif]

theorem at_rest_full : ∃ s, Reach system Keeps s ∧ s.queue = 256 ∧ s.stopped = true ∧
    (s.txNumQueued = s.queue ∧ (s.stopped = true → s.overfull = true ∨ s.vif = .closed)) := by
  have hout : (execIf system Keeps .start (opened ++ submitted 256 ++ [.netifStop])).map
      (fun s => (s.queue, s.stopped, (s.toCount, s.toStop, s.bh, s.vif))) =
        some (256, true, (0, 0, .idle, .opened)) := by
    decide +kernel
  obtain ⟨s, hs, heq⟩ := Option.map_eq_some_iff.mp hout
  simp only [Prod.mk.injEq] at heq
  obtain ⟨hqueue, hstopped, hcount, hstop, hbh, hvif⟩ := heq
  have hr : Reach system Keeps s := Reach.of_execIf (.init rfl) hs
  exact ⟨s, hr, hqueue, hstopped, at_rest hr ⟨hcount, hstop, hbh, .inl hvif⟩⟩

/-- **A command that is not counted**: one is queued and taken, and the counter is negative. -/
theorem noAck_uncounted : ∃ s, Reach system (fun _ _ => True) s ∧ s.AtRest ∧ s.queue = 0 ∧
    s.txNumQueued = -1 := by
  have hout : (exec system .start (opened ++ [.noAck, .take, .uncount])).map
      (fun s => (s.queue, s.txNumQueued, (s.toCount, s.toStop, s.bh, s.vif))) =
        some (0, -1, (0, 0, .idle, .opened)) := by
    decide
  obtain ⟨s, hs, heq⟩ := Option.map_eq_some_iff.mp hout
  simp only [Prod.mk.injEq] at heq
  obtain ⟨hqueue, hnum, hcount, hstop, hbh, hvif⟩ := heq
  exact ⟨s, Reach.of_exec (.init rfl) hs, ⟨hcount, hstop, hbh, .inl hvif⟩, hqueue, hnum⟩

/-- **A stop after its wake-up**: the sender that fills the queue stops the network queue when the
bottom half has already woken it. -/
theorem stopped_after_wake : ∃ s, Reach system (fun _ _ => True) s ∧ s.AtRest ∧ s.vif = .opened ∧
    s.stopped = true ∧ s.overfull = false := by
  have hout : (exec system .start
      (opened ++ submitted 256 ++ taken 128 ++ [.netifWake, .netifStop])).map
        (fun s => (s.stopped, s.overfull, (s.toCount, s.toStop, s.bh, s.vif))) =
          some (true, false, (0, 0, .idle, .opened)) := by
    decide +kernel
  obtain ⟨s, hs, heq⟩ := Option.map_eq_some_iff.mp hout
  simp only [Prod.mk.injEq] at heq
  obtain ⟨hstopped, hfull, hcount, hstop, hbh, hvif⟩ := heq
  exact ⟨s, Reach.of_exec (.init rfl) hs, ⟨hcount, hstop, hbh, .inl hvif⟩, hvif, hstopped, hfull⟩

end Atbm6441.Tx.Queue
