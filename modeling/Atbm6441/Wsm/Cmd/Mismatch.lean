import Atbm6441.Wsm.Cmd.Stack

/-!
# A confirm of another command

`wsm_handle_rx` takes the outstanding command out of the slot before it looks at the id of the
confirm, and does not put it back when the id is that of another command. `mismatch_loses` : the
command that was outstanding is never completed after that, whatever the device sends.
-/

namespace Atbm6441.Wsm.Cmd

open Atbm6441.Lib

/-- **A command is outstanding**, and the RX thread is free to handle a confirm. -/
structure State.Outstanding (s : State) : Prop where
  waits : s.sender.waits = true
  cmd : s.slot.cmd ≠ 0xffff
  done : s.slot.done = false
  idle : s.rx = .idle
  running : s.bug = none

/-- Runs from a state on, with any confirms. -/
def after (s : State) : System State AnyAct where
  init t := t = s
  step := State.anyStep

/-- **The sender that waits can be completed**, in some run from here on. -/
def State.Completable (s : State) : Prop :=
  ∃ t, Reach (after s) (fun _ _ => True) t ∧ t.cur = s.cur ∧ t.slot.done = true

/-- Sender `n` waits, and nothing in the slot says for which command. -/
structure Lost (n : ℕ) (s : State) : Prop where
  waits : s.sender.waits = true
  cmd : s.slot.cmd = 0xffff
  done : s.slot.done = false
  idle : s.rx = .idle
  cur : s.cur = n

variable {s t : State} {n : ℕ}

theorem State.Outstanding.lost (h : s.Outstanding) {id : BitVec 16}
    (hid : s.slot.isCnf id = false) : Lost s.cur (s.stray id) := by
  unfold State.stray
  rw [hid]
  exact ⟨h.waits, rfl, h.done, rfl, rfl⟩

namespace Lost

/-- A slot without a command is not freed. -/
theorem forceFree_eq {c : WsmCmd} (hc : c.cmd = 0xffff) (id : BitVec 16) : c.forceFree id = c := by
  rcases forceFree_cases c id with heq | ⟨hne, -⟩
  · exact heq
  · exact absurd hc hne

theorem releaseErr_eq {c : WsmCmd} (hc : c.cmd = 0xffff) : c.releaseErr = c := by
  rcases releaseErr_cases c with heq | ⟨hne, -⟩
  · exact heq
  · exact absurd hc hne

theorem not_pc (h : Lost n s) {pc : SenderPc} (hpc : s.sender = pc) (hw : pc.waits = false) :
    False := by
  have hwaits := h.waits
  rw [hpc, hw] at hwaits
  cases hwaits

/-- **The steps that commands take** leave it lost: the sender goes from one wait to the other. -/
theorem own (h : Lost n s) {a : Act} (ht : s.step a = some t) : Lost n t := by
  cases (branch_of_step ht).2 with
  | lock hpc | put bs hpc | nomem hpc | send cmd ifId arg hpc | leave hpc | registerBug hpc
  | register hpc => exact (h.not_pc hpc rfl).elim
  | timeout | giveUpRace => exact ⟨rfl, h.cmd, h.done, h.idle, h.cur⟩
  | complete hpc hdone | lastChance hpc hdone =>
    rw [h.done] at hdone
    cases hdone
  | giveUp hpc hcmd => exact absurd h.cmd hcmd
  | lastChanceBug | test | testNone | getBug | get | linearizeBug | linearize | txedTest
  | txedTestNone | txed | write => exact ⟨h.waits, h.cmd, h.done, h.idle, h.cur⟩
  | writeFailed =>
    refine ⟨h.waits, ?_, ?_, h.idle, h.cur⟩
    · rw [forceFree_eq h.cmd]
      exact h.cmd
    · rw [forceFree_eq h.cmd]
      exact h.done
  | confirm k hrx hk hm =>
    rw [isCnf_free h.cmd] at hm
    cases hm
  | confirmOther => exact ⟨h.waits, rfl, h.done, rfl, h.cur⟩
  | handle ret hrx | confirmed hrx =>
    rw [h.idle] at hrx
    cases hrx

/-- **Every step** leaves it lost, any confirm included. -/
theorem step (h : Lost n s) {a : AnyAct} (ht : s.anyStep a = some t) : Lost n t := by
  cases a with
  | own a => exact h.own ht
  | stray id =>
    simp only [State.anyStep, Option.ite_none_right_eq_some, Option.some.injEq] at ht
    obtain ⟨-, rfl⟩ := ht
    unfold State.stray
    rw [isCnf_free h.cmd]
    exact ⟨h.waits, rfl, h.done, rfl, h.cur⟩
  | release =>
    simp only [State.anyStep, Option.ite_none_right_eq_some, Option.some.injEq] at ht
    obtain ⟨-, rfl⟩ := ht
    rw [releaseErr_eq h.cmd]
    exact h

theorem not_completable (h : Lost n s) : ¬ s.Completable := by
  rintro ⟨t, hr, -, hdone⟩
  have hinv : Lost n t := by
    refine Reach.inv_of_start (fun _ hi => hi) h ?_ hr
    intro s a t hI _ ht
    exact hI.step ht
  rw [hinv.done] at hdone
  cases hdone

end Lost

/-- The command's own confirm has been handled. -/
def State.handled (s : State) (id : BitVec 16) (ret : ℤ) : State :=
  { s.stray id with
    rx := .idle
    slot := { (s.stray id).slot with ret := ret, done := true, doneBy := some (strayMsg id) } }

/-- Without the other confirm the command's own completes the sender, with the handler's result and
through the command's argument. -/
theorem own_completes (h : s.Outstanding) {id : BitVec 16} (hid : s.slot.isCnf id = true)
    (ret : ℤ) :
    exec (after s) s [.stray id, .own (.handle ret), .own .confirmed] = some (s.handled id ret) ∧
      (s.stray id).rx = .handling (strayMsg id) s.slot.arg ∧ s.Completable := by
  have hrx : (s.stray id).rx = .handling (strayMsg id) s.slot.arg := by
    rw [State.stray, hid]
    rfl
  have hrun : exec (after s) s [.stray id, .own (.handle ret), .own .confirmed] =
      some (s.handled id ret) := by
    have hbug : (s.stray id).bug = none := h.running
    have htake : (after s).step s (.stray id) = some (s.stray id) := if_pos ⟨h.running, h.idle⟩
    have hhandle : (after s).step (s.stray id) (.own (.handle ret)) =
        some { s.stray id with rx := .handled (strayMsg id) ret } := by
      simp [after, State.anyStep, State.step, State.sendStep, State.txStep, State.rxStep, hrx, hbug]
    rw [exec, htake, Option.bind_some, exec, hhandle, Option.bind_some, exec]
    simp [after, State.anyStep, State.step, State.sendStep, State.txStep, State.rxStep, hbug, exec,
      State.handled]
  exact ⟨hrun, hrx, _, Reach.of_exec (.init rfl) hrun, rfl, rfl⟩

/-- **The outstanding command is lost** with every confirm of another command. -/
theorem mismatch_loses (h : s.Outstanding) {id : BitVec 16} (hid : s.slot.isCnf id = false) :
    ¬ (s.stray id).Completable :=
  (h.lost hid).not_completable

/-! ### Runs -/

/-- A command with id `0x000c` is transmitted. -/
def sendsGetTcpFilter : List AnyAct := (submits 0x000c ++ transmits).map .own

theorem outstanding_sendsGetTcpFilter {s : State}
    (hs : exec anyConfirm (start []) sendsGetTcpFilter = some s) :
    s.Outstanding ∧ s.slot.isCnf 0x0408 = false ∧ s.slot.isCnf 0x040c = true := by
  have hout : (exec anyConfirm (start []) sendsGetTcpFilter).map (fun s =>
      (s.sender.waits, s.slot.cmd, s.slot.done, s.rx, s.bug)) =
        some (true, 0x000c, false, .idle, none) := by
    decide +kernel
  have hall := eq_of_map hs _ hout
  simp only [Prod.mk.injEq] at hall
  obtain ⟨hw, hcmd, hdone, hrx, hbug⟩ := hall
  refine ⟨⟨hw, by rw [hcmd]; decide, hdone, hrx, hbug⟩, ?_, ?_⟩
  · rw [WsmCmd.isCnf, hcmd]
    decide
  · rw [WsmCmd.isCnf, hcmd]
    decide

/-- The command `0x000c` is lost with the confirm `0x0408`. -/
theorem mismatch_loses_getTcpFilter : ∃ s : State, s.Outstanding ∧ s.slot.isCnf 0x040c = true ∧
    ¬ (s.stray 0x0408).Completable := by
  have hsome : (exec anyConfirm (start []) sendsGetTcpFilter).isSome = true := by decide +kernel
  obtain ⟨s, hs⟩ := Option.isSome_iff_exists.mp hsome
  obtain ⟨hopen, hother, hown⟩ := outstanding_sendsGetTcpFilter hs
  exact ⟨s, hopen, hown, mismatch_loses hopen hother⟩

/-- **A confirm of another command hangs the sender**: its own confirm is dropped, the wait times
out, and the last wait ends in its `BUG_ON`. -/
theorem mismatch_bug : ∃ s, Reach anyConfirm (fun _ _ => True) s ∧ s.Outstanding ∧
    s.slot.isCnf 0x0408 = false ∧ s.slot.isCnf 0x040c = true ∧ ¬ (s.stray 0x0408).Completable ∧
    (exec (after s) s [.stray 0x0408, .stray 0x040c, .own .timeout, .own .giveUp,
      .own .lastChance]).map (·.bug) = some (some .lastChance) := by
  have hinit : anyConfirm.init (start []) := ⟨[], rfl⟩
  have hout : (exec anyConfirm (start []) sendsGetTcpFilter).map (fun s =>
      (exec (after s) s [.stray 0x0408, .stray 0x040c, .own .timeout, .own .giveUp,
        .own .lastChance]).map (·.bug)) = some (some (some .lastChance)) := by
    decide +kernel
  obtain ⟨s, hs, hbug⟩ := Option.map_eq_some_iff.mp hout
  obtain ⟨hopen, hother, hown⟩ := outstanding_sendsGetTcpFilter hs
  have hr := Reach.of_exec (.init hinit) hs
  exact ⟨s, hr, hopen, hother, hown, (hopen.lost hother).not_completable, hbug⟩

end Atbm6441.Wsm.Cmd
