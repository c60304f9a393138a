import Atbm6441.Wsm.Credit.Run

/-!
# Credit events during a check

`atbm_sdio_have_enough_space` reads `hw_xmits` and writes the value back, while the thread that
receives may store the value of a credit event in between: here the read, the write-back and the
stores are steps of their own. (The reads for a message on the console are left out.)

`latest_kept` : after a check `hw_xmits` is the value of the latest event, in runs where the last event
during a check carries the value that the check has read. Such a run is one of the driver that checks
in a single step (`base_reach`), and every run of that driver is one of these (`reach_split`).
`event_lost` : in other runs the value of an event is overwritten, and no further event comes.
-/

namespace Atbm6441.Wsm.Credit

open Atbm6441.Lib

/-! ### The two halves of the check -/

/-- `n_xmits` and `hw_xmited` of `atbm_sdio_have_enough_space`. -/
structure Loaded where
  nXmits : BitVec 32
  hwXmited : BitVec 32
deriving DecidableEq

/-- `atbm_sdio_have_enough_space` once the counters are read, up to the last test. -/
def HwPriv.writeBack (h : HwPriv) (l : Loaded) : HwPriv :=
  let h := { h with bug := h.bug || (h.numInpChBufs.zeroExtend 32).slt (l.hwXmited - l.nXmits) }
  { h with
    hwXmits := l.hwXmited
    hwBufsFree := l.hwXmited - l.nXmits
    hwBufsFreeInit := l.hwXmited - l.nXmits }

theorem haveEnough_eq {h : HwPriv} (hno : h.enough 1 = false) :
    atbmSdioHaveEnoughSpace h 1 =
      ((h.writeBack ⟨h.nXmits, h.hwXmits⟩).enough 1, h.writeBack ⟨h.nXmits, h.hwXmits⟩) := by
  unfold atbmSdioHaveEnoughSpace
  rw [if_neg (Bool.eq_false_iff.mp hno)]
  rfl

theorem haveEnough_hwXmits (h : HwPriv) : (atbmSdioHaveEnoughSpace h 1).2.hwXmits = h.hwXmits := by
  unfold atbmSdioHaveEnoughSpace
  split_ifs <;> rfl

/-- The bottom half is at a check. -/
def TxPc.checks : TxPc → Bool
  | .check _ | .poll => true
  | _ => false

/-- Where the bottom half goes on after a check. -/
def TxPc.checked (enough timeout : Bool) : TxPc → TxPc
  | .check n => if enough then .get n else if 0 < n then .write n false else .waitTest
  | .poll => if enough || timeout then .check 0 else .poll
  | pc => pc

/-- The value that a step stores in `hw_xmits`. -/
def State.stored (s : State) : Act → Option (BitVec 32)
  | .event false => s.events.head?
  | _ => none

def Act.isCheck : Act → Bool
  | .check | .poll _ => true
  | _ => false

/-- The state after the second half of a check. -/
def State.writeBack (s : State) (l : Loaded) (timeout : Bool) : State :=
  { s with
    hw := s.hw.writeBack l
    pc := s.pc.checked ((s.hw.writeBack l).enough 1) timeout }

namespace Race

/-- The driver and the device, what a check under way has read, the value of the latest event (or of
the startup indication), and the value of the last event since the check has read. -/
structure State where
  base : Credit.State
  check : Option Loaded
  latest : BitVec 32
  since : Option (BitVec 32)

inductive Act
  /-- a step other than a check that reads the counters -/
  | other (a : Credit.Act)
  /-- the check finds no space and reads the counters -/
  | load
  /-- the check writes back and ends; the loop around it ends by then or does not -/
  | writeBack (timeout : Bool)

def State.step (s : State) : Act → Option State
  | .other a =>
    if a.isCheck ∧ ¬ (s.check = none ∧ s.base.hw.enough 1) then none
    else
      (s.base.step a).map fun t =>
        match s.base.stored a with
        | some v => { s with base := t, latest := v, since := some v }
        | none => { s with base := t }
  | .load =>
    if s.check = none ∧ s.base.pc.checks ∧ ¬ s.base.hw.enough 1 then
      some { s with check := some ⟨s.base.hw.nXmits, s.base.hw.hwXmits⟩, since := none }
    else none
  | .writeBack timeout =>
    s.check.map fun l => { s with base := s.base.writeBack l timeout, check := none }

/-- Runs from the startup indication on. -/
def system : System State Act where
  init s := Credit.system.init s.base ∧ s.check = none ∧ s.latest = s.base.hw.hwXmits ∧ s.since = none
  step := State.step

/-- **A check is undisturbed**: the last event since it has read, if there is one, carries the value
that was read. -/
def Undisturbed (s : State) : Act → Prop
  | .writeBack _ => ∀ l ∈ s.check, s.since = none ∨ s.since = some l.hwXmited
  | _ => True

instance (s : State) : (a : Act) → Decidable (Undisturbed s a)
  | .writeBack _ =>
    inferInstanceAs (Decidable (∀ l ∈ s.check, s.since = none ∨ s.since = some l.hwXmited))
  | .other _ | .load => .isTrue trivial

/-! ### Steps -/

/-- The device and the event handler do no more than store an event. The bottom half stores none, and
at a check it takes the check. -/
theorem step_cases {s t : Credit.State} {a : Credit.Act} (h : s.step a = some t) :
    (t.pc = s.pc ∧ t.hw = { s.hw with hwXmits := (s.stored a).getD s.hw.hwXmits }) ∨
      ((s.pc.checks = true → a.isCheck = true) ∧ s.stored a = none ∧
        t.hw.hwXmits = s.hw.hwXmits) := by
  obtain ⟨pc, hw, sent, delivered, consumed, events⟩ := s
  cases a with
  | start | get found | count more | waitTest =>
    right
    rcases pc with _ | n | n | n | ⟨n, enough⟩ | _ | _ <;> simp [Credit.State.step] at h
    rw [← h]
    exact ⟨by simp [TxPc.checks], rfl, rfl⟩
  | check | poll timeout =>
    right
    rcases pc with _ | n | n | n | ⟨n, enough⟩ | _ | _ <;> simp [Credit.State.step] at h
    rw [← h]
    exact ⟨fun _ => rfl, rfl, haveEnough_hwXmits hw⟩
  | write ok arrived =>
    right
    rcases pc with _ | n | n | n | ⟨n, enough⟩ | _ | _ <;> simp [Credit.State.step] at h
    split_ifs at h <;> rw [← Option.some.inj h] <;> exact ⟨by simp [TxPc.checks], rfl, rfl⟩
  | consume =>
    left
    rw [Credit.State.step] at h
    split_ifs at h
    rw [← Option.some.inj h]
    exact ⟨rfl, rfl⟩
  | announce =>
    left
    rw [← Option.some.inj h]
    exact ⟨rfl, rfl⟩
  | event ignored =>
    left
    rcases events with _ | ⟨v, vs⟩
    · simp [Credit.State.step] at h
    · rw [← Option.some.inj h]
      rcases ignored with _ | _ <;> exact ⟨rfl, rfl⟩

theorem hwXmits_step {s t : Credit.State} {a : Credit.Act} (h : s.step a = some t) :
    t.hw.hwXmits = (s.stored a).getD s.hw.hwXmits := by
  rcases step_cases h with ⟨-, hhw⟩ | ⟨-, hnone, hxmits⟩
  · rw [hhw]
  · rw [hnone, hxmits]
    rfl

/-- While the bottom half is at a check, the others only store events. -/
theorem step_frame {s t : Credit.State} {a : Credit.Act} (hpc : s.pc.checks = true)
    (ha : a.isCheck = false) (h : s.step a = some t) :
    t.pc = s.pc ∧ t.hw = { s.hw with hwXmits := (s.stored a).getD s.hw.hwXmits } := by
  refine (step_cases h).resolve_right fun hown => ?_
  have hcheck := hown.1 hpc
  simp [ha] at hcheck

theorem step_check {s : Credit.State} (hpc : s.pc.checks = true) (hno : s.hw.enough 1 = false)
    (timeout : Bool) :
    ∃ a : Credit.Act, s.step a = some (s.writeBack ⟨s.hw.nXmits, s.hw.hwXmits⟩ timeout) := by
  obtain ⟨pc, hw, sent, delivered, consumed, events⟩ := s
  rcases pc with _ | n | n | n | ⟨n, enough⟩ | _ | _ <;> simp [TxPc.checks] at hpc
  · refine ⟨.check, ?_⟩
    simp only [Credit.State.step, haveEnough_eq hno, Credit.State.writeBack, TxPc.checked]
  · refine ⟨.poll timeout, ?_⟩
    simp only [Credit.State.step, haveEnough_eq hno, Credit.State.writeBack, TxPc.checked]

theorem step_check_inv {s t : Credit.State} {a : Credit.Act} (ha : a.isCheck = true)
    (hno : s.hw.enough 1 = false) (h : s.step a = some t) :
    s.pc.checks = true ∧ ∃ timeout, t = s.writeBack ⟨s.hw.nXmits, s.hw.hwXmits⟩ timeout := by
  obtain ⟨pc, hw, sent, delivered, consumed, events⟩ := s
  cases a with
  | check =>
    rcases pc with _ | n | n | n | ⟨n, enough⟩ | _ | _ <;>
      simp only [Credit.State.step, haveEnough_eq hno, Option.some.injEq, reduceCtorEq] at h
    exact ⟨rfl, false, h.symm⟩
  | poll timeout =>
    rcases pc with _ | n | n | n | ⟨n, enough⟩ | _ | _ <;>
      simp only [Credit.State.step, haveEnough_eq hno, Option.some.injEq, reduceCtorEq] at h
    exact ⟨rfl, timeout, h.symm⟩
  | _ => simp [Credit.Act.isCheck] at ha

theorem other_cases {s t : State} {a : Credit.Act} (h : s.step (.other a) = some t) :
    (s.check ≠ none → a.isCheck = false) ∧ s.base.step a = some t.base ∧ t.check = s.check ∧
      t.latest = (s.base.stored a).getD s.latest ∧ t.since = (s.base.stored a).or s.since := by
  rw [State.step] at h
  by_cases hguard : a.isCheck ∧ ¬ (s.check = none ∧ s.base.hw.enough 1)
  · rw [if_pos hguard] at h
    simp at h
  · rw [if_neg hguard] at h
    obtain ⟨u, hu, rfl⟩ := Option.map_eq_some_iff.mp h
    refine ⟨fun hc => ?_, ?_⟩
    · by_contra ha
      exact hguard ⟨by simpa using ha, fun hn => hc hn.1⟩
    · rcases s.base.stored a with _ | v <;> exact ⟨hu, rfl, rfl, rfl⟩

/-! ### Runs -/

/-- What holds of a check under way. -/
structure Pending (s : State) (l : Loaded) : Prop where
  checks : s.base.pc.checks = true
  noSpace : s.base.hw.enough 1 = false
  nXmits : l.nXmits = s.base.hw.nXmits
  hwXmits : s.base.hw.hwXmits = s.since.getD l.hwXmited

/-- What holds when no check has been disturbed. -/
structure Inv (s : State) : Prop where
  reach : Reach Credit.system (fun _ _ => True) s.base
  latest : s.base.hw.hwXmits = s.latest
  pending : ∀ l, s.check = some l → Pending s l

variable {s t : State}

theorem inv_init (h : system.init s) : Inv s := by
  obtain ⟨hbase, hcheck, hlatest, -⟩ := h
  refine ⟨.init hbase, hlatest.symm, fun l hl => ?_⟩
  rw [hcheck] at hl
  simp at hl

theorem Inv.other {a : Credit.Act} (h : Inv s) (ht : s.step (.other a) = some t) : Inv t := by
  obtain ⟨ha, hbase, hcheck, hlatest, hsince⟩ := other_cases ht
  have hxmits := hwXmits_step hbase
  refine ⟨h.reach.step trivial hbase, ?_, fun l hl => ?_⟩
  · rw [hxmits, hlatest, h.latest]
  · rw [hcheck] at hl
    have hp := h.pending l hl
    obtain ⟨hpc, hhw⟩ := step_frame hp.checks (ha (by simp [hl])) hbase
    refine ⟨hpc ▸ hp.checks, ?_, ?_, ?_⟩
    · rw [hhw]
      exact hp.noSpace
    · rw [hhw]
      exact hp.nXmits
    · rw [hxmits, hsince, hp.hwXmits]
      rcases s.base.stored a with _ | v <;> rfl

theorem Inv.load (h : Inv s) (ht : s.step .load = some t) : Inv t := by
  rw [State.step] at ht
  split_ifs at ht with hload
  obtain ⟨hcheck, hpc, hno⟩ := hload
  rw [← Option.some.inj ht]
  refine ⟨h.reach, h.latest, fun l hl => ?_⟩
  rw [← Option.some.inj hl]
  exact ⟨hpc, Bool.eq_false_iff.mpr hno, rfl, rfl⟩

/-- **What a write-back does**: `hw_xmits` stays the value of the latest event exactly when the check
has not been disturbed. -/
theorem Inv.writeBack_latest_iff (h : Inv s) {timeout : Bool}
    (ht : s.step (.writeBack timeout) = some t) :
    t.base.hw.hwXmits = t.latest ↔ Undisturbed s (.writeBack timeout) := by
  obtain ⟨l, hl, rfl⟩ := Option.map_eq_some_iff.mp ht
  have hlatest : s.latest = s.since.getD l.hwXmited := by
    rw [← h.latest, (h.pending l hl).hwXmits]
  show l.hwXmited = s.latest ↔ ∀ l' ∈ s.check, s.since = none ∨ s.since = some l'.hwXmited
  rw [hlatest, hl]
  rcases s.since with _ | v
  · simp
  · simp [eq_comm]

theorem Inv.writeBack (h : Inv s) {timeout : Bool} (hu : Undisturbed s (.writeBack timeout))
    (ht : s.step (.writeBack timeout) = some t) : Inv t := by
  have hlatest := (h.writeBack_latest_iff ht).mpr hu
  obtain ⟨l, hl, rfl⟩ := Option.map_eq_some_iff.mp ht
  have hp := h.pending l hl
  -- nothing newer has been stored, so the check is one step of the bottom half
  have hloaded : l = ⟨s.base.hw.nXmits, s.base.hw.hwXmits⟩ := by
    have hsame : l.hwXmited = s.base.hw.hwXmits := by
      rw [h.latest]
      exact hlatest
    rw [← hp.nXmits, ← hsame]
  obtain ⟨a, ha⟩ := step_check hp.checks hp.noSpace timeout
  rw [← hloaded] at ha
  exact ⟨h.reach.step trivial ha, hlatest, by simp⟩

theorem inv_step {a : Act} (h : Inv s) (hu : Undisturbed s a) (ht : s.step a = some t) : Inv t := by
  cases a with
  | other a => exact h.other ht
  | load => exact h.load ht
  | writeBack timeout => exact h.writeBack hu ht

theorem inv_of_reach (h : Reach system Undisturbed s) : Inv s :=
  Reach.inv (fun _ => inv_init) (fun _ _ _ => inv_step) h

theorem base_reach (h : Reach system Undisturbed s) :
    Reach Credit.system (fun _ _ => True) s.base :=
  (inv_of_reach h).reach

theorem reach_split {s : Credit.State} (h : Reach Credit.system (fun _ _ => True) s) :
    ∃ latest since, Reach system Undisturbed ⟨s, none, latest, since⟩ := by
  refine Reach.inv (I := fun s => ∃ latest since, Reach system Undisturbed ⟨s, none, latest, since⟩)
    ?_ ?_ h
  · intro s hs
    exact ⟨s.hw.hwXmits, none, .init ⟨hs, rfl, rfl, rfl⟩⟩
  · rintro s a t ⟨latest, since, hr⟩ - ht
    by_cases hc : a.isCheck = true ∧ s.hw.enough 1 = false
    · obtain ⟨hpc, timeout, rfl⟩ := step_check_inv hc.1 hc.2 ht
      have hload : Reach system Undisturbed
          ⟨s, some ⟨s.hw.nXmits, s.hw.hwXmits⟩, latest, none⟩ := by
        refine hr.step (a := .load) trivial ?_
        show State.step ⟨s, none, latest, since⟩ .load = _
        rw [State.step, if_pos ⟨rfl, hpc, Bool.eq_false_iff.mp hc.2⟩]
      exact ⟨latest, none, hload.step (a := .writeBack timeout) (by simp [Undisturbed]) rfl⟩
    · have hguard : ¬ (a.isCheck = true ∧ ¬ ((none : Option Loaded) = none ∧ s.hw.enough 1 = true)) := by
        simpa using hc
      refine ⟨(s.stored a).getD latest, (s.stored a).or since, hr.step (a := .other a) trivial ?_⟩
      show State.step ⟨s, none, latest, since⟩ (.other a) = _
      rw [State.step, if_neg hguard]
      refine Option.map_eq_some_iff.mpr ⟨t, ht, ?_⟩
      dsimp only
      rcases s.stored a with _ | v <;> rfl

/-- **No credit is overwritten**: when no check is disturbed, `hw_xmits` is the value of the latest
event. -/
theorem latest_kept (h : Reach system Undisturbed s) : s.base.hw.hwXmits = s.latest :=
  (inv_of_reach h).latest

/-! ### An event before and during a check -/

/-- A device with one buffer, just started. -/
def started : State := ⟨⟨.idle, wsmStartupIndication 1, 0, 0, 0, []⟩, none, 1, none⟩

theorem started_init : system.init started := ⟨⟨1, rfl⟩, rfl, rfl, rfl⟩

/-- A message is sent, and the bottom half waits for its credit. -/
def sendOne : List Act :=
  [.other .start, .other .check, .other (.get true), .other (.count true), .load, .writeBack false,
    .other (.write true 1), .other .waitTest]

theorem latest_kept_before : ∃ s, Reach system Undisturbed s ∧ s.base.hw.hwXmits = 2 ∧
    s.base.hw.hwXmits = s.latest := by
  let as : List Act := sendOne ++ [.other .consume, .other .announce, .other (.event false), .load,
    .writeBack false]
  have hout : (execIf system Undisturbed started as).map (fun s => s.base.hw.hwXmits) = some 2 := by
    decide
  obtain ⟨s, hs, hxmits⟩ := Option.map_eq_some_iff.mp hout
  have hr := Reach.of_execIf (.init started_init) hs
  exact ⟨s, hr, hxmits, latest_kept hr⟩

/-- **A lost event**: the device has consumed everything and announced it while the bottom half was in
the check, and the old value is back. -/
theorem event_lost : ∃ s, Reach system (fun _ _ => True) s ∧ s.check = none ∧
    s.base.hw.hwXmits ≠ s.latest ∧ s.base.hw.hwBufsFree = 0 ∧ s.base.events = [] ∧
      s.base.consumed = s.base.sent := by
  let as : List Act := sendOne ++ [.load, .other .consume, .other .announce, .other (.event false),
    .writeBack false]
  have hout : (exec system started as).map (fun s => ((s.check.isNone, s.base.hw.hwXmits, s.latest),
      s.base.hw.hwBufsFree, s.base.events.isEmpty, s.base.consumed, s.base.sent)) =
        some ((true, 1, 2), 0, true, 1, 1) := by
    decide
  obtain ⟨s, hs, heq⟩ := Option.map_eq_some_iff.mp hout
  simp only [Prod.mk.injEq, Option.isNone_iff_eq_none, List.isEmpty_iff] at heq
  obtain ⟨⟨hcheck, hxmits, hlatest⟩, hfree, hevents, hconsumed, hsent⟩ := heq
  refine ⟨s, Reach.of_exec (.init started_init) hs, hcheck, ?_, hfree, hevents, ?_⟩
  · rw [hxmits, hlatest]
    decide
  · rw [hconsumed, hsent]

end Race

end Atbm6441.Wsm.Credit
