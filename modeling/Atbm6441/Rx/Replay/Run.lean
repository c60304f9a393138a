import Atbm6441.Lib.Runs
import Atbm6441.Rx.Replay.Model

/-!
# Runs of the replay check

A station receives protected frames and writes down, for each counter, the packet numbers it
accepts. `accepted_increasing` : they increase strictly as long as no frame is above its counter by
a jump. `replay_of_jump` : a frame that is above its counter by a jump is accepted again when it is
repeated.
-/

namespace Atbm6441.Rx.Replay

open Atbm6441.Ieee80211 Atbm6441.Lib

/-- The interface, and the packet numbers accepted for each counter. -/
structure Obs where
  vif : AtbmVif
  accepted : Stream → List ℕ

/-- A frame, given by its bytes, is received under a CCMP key or a TKIP key. -/
structure Frame where
  data : List UInt8
  isCcmp : Bool

namespace Frame

variable (f : Frame)

def pn : List UInt8 := framePn f.data f.isCcmp

def stream : Stream := streamOf f.data

end Frame

namespace Obs

/-- The counter a frame is checked against. -/
def counter (s : Obs) (f : Frame) : PnCounter := s.vif.counter f.stream

/-- The frame is above its counter by a jump. -/
def Jumps (s : Obs) (f : Frame) : Prop :=
  (s.counter f).pnInit = 0 ∧ be (s.counter f).pn < be f.pn ∧ Jump f.pn (s.counter f).pn

instance (s : Obs) (f : Frame) : Decidable (s.Jumps f) := inferInstanceAs (Decidable (_ ∧ _))

/-- The packet number of the frame is written down. -/
def accept (s : Obs) (f : Frame) : Obs :=
  { s with accepted := Function.update s.accepted f.stream (s.accepted f.stream ++ [be f.pn]) }

/-- The packet number of the frame is stored in the counter. -/
def store (s : Obs) (f : Frame) : Obs := { s with vif := s.vif.store f.stream f.pn }

def step (s : Obs) (f : Frame) : Option Obs :=
  let r := ccmpTkipReplaycnt s.vif f.data f.isCcmp
  let t : Obs := { s with vif := r.2 }
  some (if r.1 = 0 then t.accept f else t)

end Obs

/-- A station that has accepted nothing yet. -/
def station : System Obs Frame where
  init s := s.vif.type = .station ∧ (∀ st, (s.vif.counter st).pn.length = 6) ∧
    ∀ st, s.accepted st = []
  step := Obs.step

/-- No frame of the run is above its counter by a jump. -/
def noJump (s : Obs) (f : Frame) : Prop := ¬ s.Jumps f

instance (s : Obs) (f : Frame) : Decidable (noJump s f) := inferInstanceAs (Decidable (¬ _))

/-- **The invariant** of a counter and what was accepted for it: as long as it has not been set
nothing has been accepted; then it is at or above all that has been accepted. -/
structure Tracks (c : PnCounter) (accepted : List ℕ) : Prop where
  length : c.pn.length = 6
  sorted : accepted.Pairwise (· < ·)
  unset : c.pnInit ≠ 0 → accepted = []
  above : c.pnInit = 0 → ∀ n ∈ accepted, n ≤ be c.pn

/-- The invariant of a station. -/
structure Counts (s : Obs) : Prop where
  type : s.vif.type = .station
  tracks : ∀ st, Tracks (s.vif.counter st) (s.accepted st)

/-! ### One frame -/

section

variable {s : Obs} {f : Frame}

theorem replaycnt_frame (h : Counts s) (f : Frame) :
    ccmpTkipReplaycnt s.vif f.data f.isCcmp =
      if (s.counter f).pnInit = 0 then
        if be f.pn ≤ be (s.counter f).pn then (-1, s.vif)
        else if Jump f.pn (s.counter f).pn then (0, s.vif)
        else (0, s.vif.store f.stream f.pn)
      else (0, s.vif.store f.stream f.pn) :=
  replaycnt_station h.type (h.tracks f.stream).length f.isCcmp

theorem step_drop (h : Counts s) (hinit : (s.counter f).pnInit = 0)
    (hle : be f.pn ≤ be (s.counter f).pn) : s.step f = some s := by
  unfold Obs.step
  rw [replaycnt_frame h, if_pos hinit, if_pos hle]
  rfl

theorem step_jump (h : Counts s) (hj : s.Jumps f) : s.step f = some (s.accept f) := by
  unfold Obs.step
  rw [replaycnt_frame h, if_pos hj.1, if_neg (Nat.not_le.mpr hj.2.1), if_pos hj.2.2]
  rfl

theorem step_store (h : Counts s) (hacc : (s.counter f).pnInit = 0 → be (s.counter f).pn < be f.pn)
    (hj : ¬ s.Jumps f) : s.step f = some ((s.store f).accept f) := by
  unfold Obs.step
  rw [replaycnt_frame h]
  by_cases hinit : (s.counter f).pnInit = 0
  · have hlt := hacc hinit
    have hno : ¬ Jump f.pn (s.counter f).pn := fun hjump => hj ⟨hinit, hlt, hjump⟩
    rw [if_pos hinit, if_neg (Nat.not_le.mpr hlt), if_neg hno]
    rfl
  · rw [if_neg hinit]
    rfl

theorem Tracks.lt {c : PnCounter} {accepted : List ℕ} (h : Tracks c accepted) {n : ℕ}
    (hn : c.pnInit = 0 → be c.pn < n) : ∀ m ∈ accepted, m < n := by
  intro m hm
  by_cases hinit : c.pnInit = 0
  · exact Nat.lt_of_le_of_lt (h.above hinit m hm) (hn hinit)
  · rw [h.unset hinit] at hm
    cases hm

theorem Tracks.store {c : PnCounter} {accepted : List ℕ} (h : Tracks c accepted) {pn : List UInt8}
    (hlen : pn.length = 6) (hn : c.pnInit = 0 → be c.pn < be pn) :
    Tracks ⟨pn, 0⟩ (accepted ++ [be pn]) := by
  have hlt := h.lt hn
  refine ⟨hlen, ?_, fun hne => absurd rfl hne, fun _ m hm => ?_⟩
  · rw [List.pairwise_append]
    refine ⟨h.sorted, List.pairwise_singleton _ _, fun m hm k hk => ?_⟩
    rw [List.mem_singleton.mp hk]
    exact hlt m hm
  · rcases List.mem_append.mp hm with hm | hm
    · exact Nat.le_of_lt (hlt m hm)
    · exact Nat.le_of_eq (List.mem_singleton.mp hm)

theorem counts_store (h : Counts s)
    (hacc : (s.counter f).pnInit = 0 → be (s.counter f).pn < be f.pn) :
    Counts ((s.store f).accept f) := by
  refine ⟨h.type, fun st => ?_⟩
  show Tracks (Function.update s.vif.counter f.stream ⟨f.pn, 0⟩ st)
    (Function.update s.accepted f.stream (s.accepted f.stream ++ [be f.pn]) st)
  by_cases hst : st = f.stream
  · rw [hst, Function.update_self, Function.update_self]
    exact (h.tracks f.stream).store rfl hacc
  · rw [Function.update_of_ne hst, Function.update_of_ne hst]
    exact h.tracks st

/-- **One step** without a jump keeps the invariant. -/
theorem counts_step {t : Obs} (h : Counts s) (hj : noJump s f) (ht : s.step f = some t) :
    Counts t := by
  by_cases hdrop : (s.counter f).pnInit = 0 ∧ be f.pn ≤ be (s.counter f).pn
  · rw [step_drop h hdrop.1 hdrop.2] at ht
    exact Option.some.inj ht ▸ h
  · have hacc : (s.counter f).pnInit = 0 → be (s.counter f).pn < be f.pn :=
      fun hinit => Nat.not_le.mp fun hle => hdrop ⟨hinit, hle⟩
    rw [step_store h hacc hj] at ht
    exact Option.some.inj ht ▸ counts_store h hacc

end

/-! ### Runs -/

theorem counts_init {s : Obs} (h : station.init s) : Counts s := by
  obtain ⟨htype, hlen, hacc⟩ := h
  refine ⟨htype, fun st => ⟨hlen st, ?_, fun _ => hacc st, fun _ n hn => ?_⟩⟩
  · rw [hacc]
    exact List.Pairwise.nil
  · rw [hacc] at hn
    cases hn

/-- **Accepted packet numbers increase strictly** in every run without a jump. -/
theorem accepted_increasing {s : Obs} (h : Reach station noJump s) (st : Stream) :
    (s.accepted st).Pairwise (· < ·) :=
  have hc : Counts s := h.inv (fun _ => counts_init) fun _ _ _ hc hj ht => counts_step hc hj ht
  (hc.tracks st).sorted

/-! ### Replays -/

/-- **After a jump the same frame is accepted again**: the counter has not moved. -/
theorem replay_of_jump {s : Obs} {f : Frame} (h : Counts s) (hj : s.Jumps f) :
    (s.step f).bind (·.step f) = some ((s.accept f).accept f) := by
  rw [step_jump h hj, Option.bind_some]
  unfold Obs.step
  rw [show (s.accept f).vif = s.vif from rfl, replaycnt_frame h, if_pos hj.1,
    if_neg (Nat.not_le.mpr hj.2.1), if_pos hj.2.2]
  rfl

/-- A unicast QoS frame with a CCMP header. -/
def ccmpFrame (tid : UInt8) (pn : ℕ) : Frame where
  data := [0x88, 0x40] ++ List.replicate 22 0 ++ [tid, 0] ++
    [UInt8.ofNat pn, UInt8.ofNat (pn / 0x100), 0, 0x20, UInt8.ofNat (pn / 0x10000),
      UInt8.ofNat (pn / 0x1000000), UInt8.ofNat (pn / 0x100000000),
      UInt8.ofNat (pn / 0x10000000000)]
  isCcmp := true

/-- A station right after its association. -/
def associated : Obs where
  vif := ⟨.station, fun _ => ⟨List.replicate 6 0, 1⟩⟩
  accepted := fun _ => []

theorem associated_init : station.init associated := ⟨rfl, fun _ => rfl, fun _ => rfl⟩

/-- Without a jump, over the carry from the fifth byte to the fourth: the repeated frame and the
late one are dropped. -/
theorem accepted_increasing_carry : ∃ s, Reach station noJump s ∧
    s.accepted .ptk = [0xfffe, 0x10000, 0x10002] ∧ (s.accepted .ptk).Pairwise (· < ·) := by
  have hrun : (execIf station noJump associated [ccmpFrame 0 0xfffe, ccmpFrame 0 0x10000,
      ccmpFrame 0 0x10000, ccmpFrame 0 0x10002, ccmpFrame 0 0x10001]).isSome := by
    decide +kernel
  obtain ⟨s, hs⟩ := Option.isSome_iff_exists.mp hrun
  have hr := Reach.of_execIf (.init associated_init) hs
  have hout : (execIf station noJump associated [ccmpFrame 0 0xfffe, ccmpFrame 0 0x10000,
      ccmpFrame 0 0x10000, ccmpFrame 0 0x10002, ccmpFrame 0 0x10001]).map (·.accepted .ptk) =
      some [0xfffe, 0x10000, 0x10002] := by decide +kernel
  rw [hs] at hout
  exact ⟨s, hr, Option.some.inj hout, accepted_increasing hr .ptk⟩

/-- **A frame that is above its counter by a jump is accepted twice**: the packet numbers from
`0xff00` to `0xffff` were lost. -/
theorem replay_after_loss : ∃ s, Reach station (fun _ _ => True) s ∧
    s.accepted .ptk = [0xfeff, 0x10000, 0x10000] ∧ ¬ (s.accepted .ptk).Pairwise (· < ·) := by
  have hrun : (exec station associated [ccmpFrame 0 0xfeff, ccmpFrame 0 0x10000,
      ccmpFrame 0 0x10000]).isSome := by decide +kernel
  obtain ⟨s, hs⟩ := Option.isSome_iff_exists.mp hrun
  have hout : (exec station associated [ccmpFrame 0 0xfeff, ccmpFrame 0 0x10000,
      ccmpFrame 0 0x10000]).map (·.accepted .ptk) = some [0xfeff, 0x10000, 0x10000] := by
    decide +kernel
  rw [hs] at hout
  have hacc : s.accepted .ptk = [0xfeff, 0x10000, 0x10000] := Option.some.inj hout
  refine ⟨s, Reach.of_exec (.init associated_init) hs, hacc, ?_⟩
  rw [hacc]
  decide

end Atbm6441.Rx.Replay
