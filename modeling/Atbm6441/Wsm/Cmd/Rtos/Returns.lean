import Atbm6441.Wsm.Cmd.Mismatch
import Atbm6441.Wsm.Cmd.Rtos.Wakes
import Atbm6441.Wsm.Cmd.WriteFail

/-!
# Whether a sender comes back on the RTOS

A sender that does not time out depends on the device. `returns_iff` : it can come back exactly when
no confirm of another command has been taken since it waits; the confirm of its own command would be
dropped then, and the sender waits for ever, with `wsm_cmd_mux` locked.
-/

namespace Atbm6441.Wsm.Cmd.Rtos

open Atbm6441.Lib

variable {p q : Port} {s t : State} {a : Cmd.Act} {b : Act}

/-! ### The ids of commands -/

/-- The ids of commands, below the bit of a confirm. -/
def IsId (cmd : BitVec 16) : Prop := cmd.toNat < 2 ^ 10

instance (cmd : BitVec 16) : Decidable (IsId cmd) := inferInstanceAs (Decidable (_ < _))

theorem isId_set (f : Buf.SetFn) : IsId f.reqId := by cases f <;> decide

theorem isId_get (f : Buf.GetFn) : IsId f.reqId := by cases f <;> decide

theorem isId_reqId (c : Buf.Call) : IsId c.reqId := by
  cases c with
  | set f buffer => exact isId_set f
  | get f bufSize => exact isId_get f
  | reset linkId resetStatistics ifId =>
    show (0x000A ||| (linkId &&& 0x0F) <<< 6 : BitVec 16).toNat < 2 ^ 10
    have hlink : (linkId &&& 0x0F).toNat ≤ 15 := Nat.and_le_right
    rw [BitVec.toNat_or, BitVec.toNat_shiftLeft, Nat.shiftLeft_eq, Nat.mod_eq_of_lt (by omega)]
    exact Nat.or_lt_two_pow (by decide) (by omega)
  | getScanInfo => exact (show IsId 0x000B by decide)
  | readShmem => exact (show IsId 0x0000 by decide)
  | writeShmem => exact (show IsId 0x0001 by decide)
  | join => exact (show IsId 0x0003 by decide)
  | configuration => exact (show IsId 0x0009 by decide)
  | sendIpcData => exact (show IsId 0x0028 by decide)

theorem isCnf_own {c : WsmCmd} (h : IsId c.cmd) : c.isCnf (c.cmd ||| 0x400#16) = true := by
  have hall : ∀ j : Fin 16, j.val ≠ 10 → (0x400#16)[j] = false := by decide
  have hten : (0x400#16)[10] = true := by decide
  rw [WsmCmd.isCnf, beq_iff_eq]
  ext i hi
  simp only [BitVec.getElem_and, BitVec.getElem_or, BitVec.getElem_not]
  rcases eq_or_ne i 10 with rfl | hne
  · have hbit : c.cmd[10] = false := by
      rw [← BitVec.getLsbD_eq_getElem]
      exact Nat.testBit_lt_two_pow h
    rw [hbit, hten, Bool.not_true, Bool.and_false, Bool.false_and]
  · rw [show (0x400#16)[i] = false from hall ⟨i, hi⟩ hne, Bool.or_false, Bool.not_false,
      Bool.and_true]

/-- **The steps**, with the commands of the driver. -/
def Driven (p : Port) (a : Act) : Prop :=
  AfterFirst p a ∧ match a with
    | .own a => FromDriver (.own a)
    | .stray _ | .down | .again | .wake => True

/-- The command in the slot, and the one that is to come, have the ids of commands. -/
structure Ids (s : State) : Prop where
  submitted : ∀ cmd arg, s.sender = .submitted cmd arg → IsId cmd
  slot : s.slot.cmd ≠ 0xffff → IsId s.slot.cmd

theorem ids_own (h : Ids s) (ha : FromDriver (.own a)) (ht : s.step a = some t) : Ids t := by
  cases (branch_of_step ht).2 with
  | lock | nomem | timeout | complete | leave | lastChance | giveUp | giveUpRace =>
    exact ⟨nofun, h.slot⟩
  | send cmd ifId arg =>
    obtain ⟨c, -, rfl, -⟩ := ha
    refine ⟨?_, h.slot⟩
    rintro cmd arg ⟨⟩
    exact isId_reqId c
  | register hpc => exact ⟨nofun, fun _ => h.submitted _ _ hpc⟩
  | writeFailed =>
    refine ⟨h.submitted, fun hne => ?_⟩
    change (WsmCmd.forceFree _ _).cmd ≠ 0xffff at hne
    show IsId (WsmCmd.forceFree _ _).cmd
    unfold WsmCmd.forceFree at hne ⊢
    split_ifs at hne ⊢
    · exact absurd rfl hne
    · exact h.slot hne
  | confirm | confirmOther => exact ⟨h.submitted, fun hne => absurd rfl hne⟩
  | put | registerBug | lastChanceBug | test | testNone | getBug | get | linearizeBug | linearize
  | txedTest | txedTestNone | txed | write | handle | confirmed => exact ⟨h.submitted, h.slot⟩

theorem cmd_of_ownStep (hq : p.ownStep a t = some q) : q.cmd = t := by
  unfold Port.ownStep at hq
  split at hq <;> (try split_ifs at hq) <;> (cases hq; rfl)

theorem ids_step (h : Ids p.cmd) (hon : Driven p b) (hq : p.step b = some q) : Ids q.cmd := by
  cases b with
  | own a =>
    obtain ⟨t, hs, hq⟩ := Option.bind_eq_some_iff.mp hq
    rw [cmd_of_ownStep hq]
    exact ids_own h hon.2 hs
  | stray id =>
    simp only [Port.step, Option.ite_none_right_eq_some, Option.some.injEq] at hq
    obtain ⟨-, rfl⟩ := hq
    exact ⟨h.submitted, fun hne => absurd rfl hne⟩
  | down | again | wake =>
    simp only [Port.step, Option.ite_none_right_eq_some, Option.some.injEq] at hq
    obtain ⟨-, rfl⟩ := hq
    exact h

/-! ### Whether a sender comes back -/

/-- **The sender comes back**, in some run from here on. -/
def Port.Returns (p : Port) : Prop :=
  ∃ as q, exec system p as = some q ∧ q.cmd.cur = p.cmd.cur ∧ ∃ ret, q.cmd.sender = .leaving ret

/-- **A confirm of another command** has been taken: the slot is empty, nothing is handled, and the
command is not done. -/
def Port.Wedged (p : Port) : Prop :=
  p.cmd.slot.cmd = 0xffff ∧ p.cmd.slot.done = false ∧ p.cmd.rx = .idle

theorem returns_step (hq : p.step b = some q) (hcur : q.cmd.cur = p.cmd.cur) (h : q.Returns) :
    p.Returns := by
  obtain ⟨as, r, hr, hrcur, hret⟩ := h
  refine ⟨b :: as, r, ?_, hrcur.trans hcur, hret⟩
  rw [exec, show system.step p b = some q from hq]
  exact hr

theorem registered_of_waiting (hpc : s.sender = .waiting) : s.IsRegistered 0 := by
  rcases Nat.eq_zero_or_pos s.cur with hcur | hcur
  · exact .inr ⟨hcur.symm, by rw [hpc]; rfl⟩
  · exact .inl hcur

theorem step_own (hs : p.cmd.step a = some t) (hq : p.ownStep a t = some q) :
    p.step (.own a) = some q := by
  rw [Port.step, hs]
  exact hq

theorem returns_woken (hbug : p.cmd.bug = none) (hpc : p.cmd.sender = .waiting)
    (hdone : p.cmd.slot.done = true) (hw : p.woken = true) : p.Returns := by
  have hs : p.cmd.step .complete = some { p.cmd with sender := .leaving p.cmd.slot.ret } := by
    simp [State.step, State.sendStep, hbug, hpc, hdone]
  have hq : p.step (.own .complete) = some
      { p with cmd := { p.cmd with sender := .leaving p.cmd.slot.ret }, woken := false } :=
    step_own hs (if_pos hw)
  exact returns_step hq rfl ⟨[], _, rfl, rfl, _, rfl⟩

theorem returns_sem (hbug : p.cmd.bug = none) (hpc : p.cmd.sender = .waiting)
    (hdone : p.cmd.slot.done = true) (hsem : 0 < p.sem) : p.Returns := by
  cases hw : p.woken with
  | true => exact returns_woken hbug hpc hdone hw
  | false =>
    have hq : p.step .down = some { p with sem := p.sem - 1, woken := true } :=
      if_pos ⟨hbug, .inl hpc, hw, hsem⟩
    exact returns_step hq rfl (returns_woken hbug hpc hdone rfl)

/-- **A command that is done**: its wake-up is on its way. -/
theorem returns_done (h : Paired p) (hbug : p.cmd.bug = none) (hpc : p.cmd.sender = .waiting)
    (hdone : p.cmd.slot.done = true) : p.Returns := by
  have hone := h.wakeups
  rw [if_pos ⟨hpc, hdone⟩, Port.wakeups] at hone
  cases hw : p.woken with
  | true => exact returns_woken hbug hpc hdone hw
  | false =>
    cases htoWake : p.toWake with
    | false =>
      rw [hw, htoWake, Bool.toNat_false] at hone
      exact returns_sem hbug hpc hdone (by omega)
    | true =>
      have hq : p.step .wake = some { p with sem := p.sem + 1, toWake := false } :=
        if_pos ⟨hbug, htoWake⟩
      exact returns_step hq rfl (returns_sem hbug hpc hdone (Nat.succ_pos _))

theorem returns_handled (h : Paired p) (hbug : p.cmd.bug = none) {e : Sent} {ret : ℤ}
    (hrx : p.cmd.rx = .handled e ret) : p.Returns := by
  have hs : p.cmd.step .confirmed = some { p.cmd with
      rx := .idle, slot := { p.cmd.slot with ret := ret, done := true, doneBy := some e } } := by
    simp [State.step, State.sendStep, State.txStep, State.rxStep, hbug, hrx]
  have hpc := (h.busy (by simp [hrx])).1
  exact returns_step (step_own hs rfl) rfl (returns_done (h.confirmed hrx) hbug hpc rfl)

/-- **A command whose confirm is handled.** -/
theorem returns_busy (h : Paired p) (hbug : p.cmd.bug = none) (hrx : p.cmd.rx ≠ .idle) :
    p.Returns := by
  cases hcase : p.cmd.rx with
  | idle => exact absurd hcase hrx
  | handled e ret => exact returns_handled h hbug hcase
  | handling e arg =>
    have hs : p.cmd.step (.handle 0) = some { p.cmd with rx := .handled e 0 } := by
      simp [State.step, State.sendStep, State.txStep, State.rxStep, hbug, hcase]
    have hq : p.step (.own (.handle 0)) = some { p with cmd := { p.cmd with rx := .handled e 0 } } :=
      step_own hs rfl
    exact returns_step hq rfl (returns_handled (paired_own h hs rfl) hbug rfl)

/-- **A command that is in the slot** is answered. -/
theorem returns_open (h : Paired p) (hids : Ids p.cmd) (hreg : p.cmd.IsRegistered 0)
    (hbug : p.cmd.bug = none) (hcmd : p.cmd.slot.cmd ≠ 0xffff) : p.Returns := by
  have hcnf := isCnf_own (hids.slot hcmd)
  have hrx : p.cmd.rx = .idle := by
    by_contra hne
    exact hcmd (h.busy hne).2.2
  have hzero := h.wakeups_zero fun _ => (h.outstanding hreg hcmd).2
  have htoWake : p.toWake = false := by
    cases hw : p.toWake with
    | false => rfl
    | true =>
      rw [Port.wakeups, hw, Bool.toNat_true] at hzero
      omega
  have hq : p.step (.stray (p.cmd.slot.cmd ||| 0x400#16)) =
      some { p with cmd := p.cmd.stray (p.cmd.slot.cmd ||| 0x400#16) } :=
    if_pos ⟨hbug, hrx, htoWake⟩
  refine returns_step hq rfl (returns_busy (paired_step (b := .stray _) h hreg hq) hbug ?_)
  show (if p.cmd.slot.isCnf _ = true then _ else _ : RxPc) ≠ _
  simp [hcnf]

/-- **A command whose confirm is lost** is never left. -/
theorem lost_step {n : ℕ} (h : Lost n p.cmd) (hq : p.step b = some q) : Lost n q.cmd := by
  cases b with
  | own a =>
    obtain ⟨t, hs, hq⟩ := Option.bind_eq_some_iff.mp hq
    rw [cmd_of_ownStep hq]
    exact h.own hs
  | stray id =>
    simp only [Port.step, Option.ite_none_right_eq_some, Option.some.injEq] at hq
    obtain ⟨⟨hbug, hrx, -⟩, rfl⟩ := hq
    exact h.step (a := .stray id) (if_pos ⟨hbug, hrx⟩)
  | down | again | wake =>
    simp only [Port.step, Option.ite_none_right_eq_some, Option.some.injEq] at hq
    obtain ⟨-, rfl⟩ := hq
    exact h

theorem lost_exec {n : ℕ} {as : List Act} (h : Lost n p.cmd) (hq : exec system p as = some q) :
    Lost n q.cmd := by
  induction as generalizing p with
  | nil =>
    cases hq
    exact h
  | cons b as ih =>
    obtain ⟨r, hr, hq⟩ := Option.bind_eq_some_iff.mp hq
    exact ih (lost_step h hr) hq

/-- **A sender whose confirm is not lost** comes back. -/
theorem returns_of_not_wedged (h : Paired p) (hids : Ids p.cmd) (hbug : p.cmd.bug = none)
    (hpc : p.cmd.sender = .waiting) (hfree : ¬ p.Wedged) : p.Returns := by
  by_cases hcmd : p.cmd.slot.cmd = 0xffff
  · by_cases hrx : p.cmd.rx = .idle
    · cases hdone : p.cmd.slot.done with
      | true => exact returns_done h hbug hpc hdone
      | false => exact absurd ⟨hcmd, hdone, hrx⟩ hfree
    · exact returns_busy h hbug hrx
  · exact returns_open h hids (registered_of_waiting hpc) hbug hcmd

theorem ids_of_reach (h : Reach system Driven p) : Ids p.cmd := by
  refine Reach.inv (I := fun p => Ids p.cmd) ?_ ?_ h
  · rintro p ⟨mem, rfl⟩
    exact ⟨nofun, fun _ => (by decide : IsId 0)⟩
  · intro p b q hI hon hq
    exact ids_step hI hon hq

/-- **A sender that waits comes back**, if the device answers its command, exactly when no confirm of
another command has been taken for it; else it waits for ever. -/
theorem returns_iff (h : Reach system Driven p) (hbug : p.cmd.bug = none)
    (hpc : p.cmd.sender = .waiting) : p.Returns ↔ ¬ p.Wedged := by
  have hpair := paired_of_reach (h.mono fun _ _ hon => hon.1)
  refine ⟨?_, returns_of_not_wedged hpair (ids_of_reach h) hbug hpc⟩
  rintro ⟨as, q, hq, -, ret, hret⟩ ⟨hcmd, hdone, hrx⟩
  have hlost : Lost p.cmd.cur p.cmd := ⟨by rw [hpc]; rfl, hcmd, hdone, hrx, rfl⟩
  have hwaits := (lost_exec hlost hq).waits
  rw [hret] at hwaits
  cases hwaits

/-- The sender of a command with id 8 comes back, but not once a confirm with id 12 has come. -/
theorem returns_iff_stray : ∃ p q : Port, Reach system Driven p ∧ p.Returns ∧
    p.step (.stray 0x040c) = some q ∧ ¬ q.Returns := by
  have hinit : system.init ⟨start [], 0, false, false, []⟩ := ⟨[], rfl⟩
  have hout : (exec system ⟨start [], 0, false, false, []⟩ (sends 0x0008)).map (fun p =>
      ((p.cmd.sender, p.cmd.bug, p.cmd.slot.cmd), p.cmd.rx, p.cmd.slot.done, p.toWake)) =
        some ((.waiting, none, 0x0008), .idle, false, false) := by
    decide +kernel
  obtain ⟨p, hp, hout⟩ := Option.map_eq_some_iff.mp hout
  simp only [Prod.mk.injEq] at hout
  obtain ⟨⟨hpc, hbug, hcmd⟩, hrx, hdone, hwake⟩ := hout
  have hr : Reach system Driven p := by
    refine Reach.of_exec_forall (.init hinit) (fun a ha _ => ?_) hp
    simp only [sends, submits, transmits, List.cons_append, List.nil_append, List.map_cons,
      List.map_nil, List.mem_cons, List.not_mem_nil, or_false] at ha
    rcases ha with rfl | rfl | rfl | rfl | rfl | rfl | rfl | rfl | rfl | rfl
    case inr.inr.inl => exact ⟨trivial, .set .setPsmode [], rfl, rfl, rfl⟩
    all_goals exact ⟨trivial, trivial⟩
  have hnot : ¬ p.Wedged := by
    rintro ⟨hfree, -⟩
    rw [hcmd] at hfree
    exact absurd hfree (by decide)
  have hcnf : p.cmd.slot.isCnf 0x040c = false := by
    rw [WsmCmd.isCnf, hcmd]
    decide
  have hq : p.step (.stray 0x040c) = some { p with cmd := p.cmd.stray 0x040c } :=
    if_pos ⟨hbug, hrx, hwake⟩
  have hon : Driven p (.stray 0x040c) := ⟨registered_of_waiting hpc, trivial⟩
  refine ⟨p, _, hr, (returns_iff hr hbug hpc).mpr hnot, hq, ?_⟩
  rw [returns_iff (hr.step hon hq) hbug hpc, not_not]
  refine ⟨rfl, hdone, ?_⟩
  show (if p.cmd.slot.isCnf 0x040c = true then _ else _ : RxPc) = _
  rw [hcnf]
  rfl

end Atbm6441.Wsm.Cmd.Rtos
