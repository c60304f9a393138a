import Atbm6441.Wsm.Cmd.Steps

/-!
# Whose confirm completes a sender

The slot knows the outstanding command by its message id only. `confirm_answers_sender` : the
confirm that completes a sender is the answer to its own command, as long as no late confirm is
taken for the outstanding command (`OnTime`); `late_completes` : otherwise the answer to a command
that has timed out completes the next one.
-/

namespace Atbm6441.Wsm.Cmd

open Atbm6441.Lib

/-- The message that the RX thread has at hand. -/
def RxPc.msg : RxPc → Option Sent
  | .idle => none
  | .handling e _ | .handled e _ => some e

/-- **Confirms reach the sender they answer.** -/
structure Answered (s : State) : Prop where
  /-- the confirm that has completed a sender answers its command, which was transmitted -/
  done : ∀ e, s.sender.waits = true → s.slot.done = true → s.slot.doneBy = some e →
    e ∈ s.sent ∧ e.owner = s.cur
  /-- a handler stores for the sender that waits for the confirm -/
  store : ∀ e n, s.rx = .handling e (some n) →
    (s.sender.waits = true ∧ n = s.cur) ∧ e ∈ s.sent ∧ e.owner = n

/-- **The steps after which confirms are on time**: a confirm of an earlier command is not taken
while a sender waits for a command with its id, and no command is registered between the two
sections of a confirm. -/
def OnTime (s : State) : Act → Prop
  | .confirm k =>
    match s.sent[k]? with
    | some e => e.owner < s.cur → s.sender.waits = true → s.slot.isCnf e.cnfId = false
    | none => True
  | .register => s.rx = .idle
  | _ => True

instance (s : State) (a : Act) : Decidable (OnTime s a) :=
  match a with
  | .confirm k =>
    match h : s.sent[k]? with
    | some e =>
      decidable_of_iff (e.owner < s.cur → s.sender.waits = true → s.slot.isCnf e.cnfId = false)
        (by rw [OnTime, h])
    | none => .isTrue (by rw [OnTime, h]; trivial)
  | .register => inferInstanceAs (Decidable (s.rx = .idle))
  | .lock | .put _ | .nomem | .send _ _ _ | .timeout | .complete | .giveUp | .lastChance | .leave
  | .test _ | .get | .linearize | .txedTest | .txed | .write _ | .handle _ | .confirmed =>
    .isTrue trivial

/-! ### The invariant -/

structure Waits (s : State) : Prop where
  owners : ∀ e ∈ s.out, e.owner ≤ s.cur
  bufOwner : s.buf.owner ≤ s.cur
  /-- while a command is outstanding, its `arg` is that of the sender that waits -/
  arg : s.slot.cmd ≠ 0xffff → ∀ n, s.slot.arg = some n → s.sender.waits = true ∧ n = s.cur
  /-- a confirm that is handled while a sender waits is its own -/
  busy : ∀ e, s.rx.msg = some e → e ∈ s.sent ∧
    (s.sender.waits = true → s.slot.done = false ∧ s.slot.cmd = 0xffff ∧ e.owner = s.cur)
  store : ∀ e n, s.rx = .handling e (some n) → s.sender.waits = true ∧ n = s.cur
  done : s.sender.waits = true → s.slot.done = true →
    s.slot.cmd = 0xffff ∧ ∀ e, s.slot.doneBy = some e → e ∈ s.sent ∧ e.owner = s.cur

variable {s t : State} {a : Act}

theorem waits_start (mem : List UInt8) : Waits (start mem) :=
  ⟨nofun, Nat.le_refl 0, nofun, nofun, nofun, nofun⟩

namespace Waits

/-- The sender moves on and still waits, or still does not. -/
theorem goto (h : Waits s) {pc : SenderPc} (hpc : pc.waits = s.sender.waits) :
    Waits { s with sender := pc } := by
  refine ⟨h.owners, h.bufOwner, ?_, ?_, ?_, ?_⟩ <;> dsimp only <;> rw [hpc]
  · exact h.arg
  · exact h.busy
  · exact h.store
  · exact h.done

theorem completed (h : Waits s) (hw : s.sender.waits = true) (hdone : s.slot.done = true)
    (ret : ℤ) : Waits { s with sender := .leaving ret } := by
  refine ⟨h.owners, h.bufOwner, ?_, ?_, ?_, nofun⟩
  · intro hcmd
    exact absurd (h.done hw hdone).1 hcmd
  · intro e he
    exact ⟨(h.busy e he).1, nofun⟩
  · intro e n hrx
    have hbusy := (h.busy e (congrArg RxPc.msg hrx)).2 hw
    rw [hbusy.1] at hdone
    cases hdone

theorem gaveUp (h : Waits s) (hpc : s.sender = .expired) (hcmd : s.slot.cmd ≠ 0xffff) :
    Waits (s.gaveUp (.leaving (-110))) := by
  refine ⟨h.owners, h.bufOwner, nofun, ?_, ?_, nofun⟩
  · intro e he
    exact ⟨(h.busy e he).1, nofun⟩
  · intro e n hrx
    have hbusy := (h.busy e (congrArg RxPc.msg hrx)).2 (by rw [hpc]; rfl)
    exact absurd hbusy.2.1 hcmd

theorem gaveUpRace (h : Waits s) (hpc : s.sender = .expired) :
    Waits (s.gaveUp .lastChance) := by
  have hw : s.sender.waits = true := by rw [hpc]; rfl
  refine ⟨h.owners, h.bufOwner, nofun, ?_, ?_, ?_⟩
  · intro e he
    exact ⟨(h.busy e he).1, fun _ => (h.busy e he).2 hw⟩
  · intro e n hrx
    exact ⟨rfl, (h.store e n hrx).2⟩
  · intro _ hdone
    exact h.done hw hdone

theorem left (h : Waits s) {ret : ℤ} (hpc : s.sender = .leaving ret) :
    Waits { s with sender := .free, buf := s.buf.reset, cur := s.cur + 1 } := by
  have hw : s.sender.waits = false := by rw [hpc]; rfl
  refine ⟨?_, Nat.le_succ_of_le h.bufOwner, ?_, ?_, ?_, nofun⟩
  · intro e he
    exact Nat.le_succ_of_le (h.owners e he)
  · intro hcmd n harg
    have := (h.arg hcmd n harg).1
    rw [hw] at this
    cases this
  · intro e he
    exact ⟨(h.busy e he).1, nofun⟩
  · intro e n hrx
    have := (h.store e n hrx).1
    rw [hw] at this
    cases this

theorem registered (h : Waits s) (hrx : s.rx = .idle) (cmd : BitVec 16) (arg : Bool) :
    Waits { s with sender := .waiting, slot := s.registered cmd arg } := by
  refine ⟨h.owners, h.bufOwner, ?_, ?_, ?_, nofun⟩
  · intro _ n harg
    change (if arg = true then some s.cur else none) = some n at harg
    split_ifs at harg
    exact ⟨rfl, (Option.some.inj harg).symm⟩
  · intro e he
    change s.rx.msg = some e at he
    rw [hrx] at he
    cases he
  · intro e n he
    change s.rx = _ at he
    rw [hrx] at he
    cases he

theorem written (h : Waits s) : Waits s.written := by
  refine ⟨?_, h.bufOwner, h.arg, ?_, h.store, ?_⟩
  · intro e he
    rw [written_out] at he
    exact h.owners e he
  · intro e he
    exact ⟨List.mem_append_left _ (h.busy e he).1, (h.busy e he).2⟩
  · intro hw hdone
    obtain ⟨hcmd, hdone⟩ := h.done hw hdone
    refine ⟨hcmd, fun e he => ?_⟩
    exact ⟨List.mem_append_left _ (hdone e he).1, (hdone e he).2⟩

theorem forceFree (h : Waits s) (id : BitVec 16) :
    Waits { s with slot := s.slot.forceFree id } := by
  unfold WsmCmd.forceFree
  split_ifs with hfreed
  · have hcmd : s.slot.cmd ≠ 0xffff := bne_iff_ne.mp (Bool.and_eq_true_iff.mp hfreed).2
    refine ⟨h.owners, h.bufOwner, ?_, ?_, h.store, ?_⟩
    · intro hne
      exact absurd rfl hne
    · intro e he
      refine ⟨(h.busy e he).1, fun hw => ?_⟩
      exact absurd ((h.busy e he).2 hw).2.1 hcmd
    · intro _ _
      exact ⟨rfl, nofun⟩
  · exact h

theorem confirm (h : Waits s) {k : ℕ} {e : Sent} (hk : s.sent[k]? = some e)
    (hm : s.slot.isCnf e.cnfId = true) (hon : OnTime s (.confirm k)) :
    Waits { s with slot := { s.slot with cmd := 0xffff }, rx := .handling e s.slot.arg } := by
  have hmem : e ∈ s.sent := List.mem_of_getElem? hk
  have hcmd : s.slot.cmd ≠ 0xffff := by
    intro hc
    rw [isCnf_free hc] at hm
    cases hm
  refine ⟨h.owners, h.bufOwner, ?_, ?_, ?_, ?_⟩
  · intro hne
    exact absurd rfl hne
  · rintro e' ⟨⟩
    refine ⟨hmem, fun hw => ⟨?_, rfl, ?_⟩⟩
    · cases hdone : s.slot.done with
      | false => rfl
      | true => exact absurd (h.done hw hdone).1 hcmd
    · -- a confirm of an earlier command would not have been taken
      rcases Nat.lt_or_eq_of_le (h.owners e (List.mem_append_left _ hmem)) with hlt | heq
      · rw [OnTime, hk] at hon
        have := hon hlt hw
        rw [hm] at this
        cases this
      · exact heq
  · rintro e' n hrx
    obtain ⟨-, harg⟩ := RxPc.handling.inj hrx
    exact h.arg hcmd n harg
  · intro hw hdone
    exact ⟨rfl, (h.done hw hdone).2⟩

theorem confirmOther (h : Waits s) :
    Waits { s with slot := { s.slot with cmd := 0xffff }, rx := .idle } := by
  refine ⟨h.owners, h.bufOwner, ?_, nofun, nofun, ?_⟩
  · intro hne
    exact absurd rfl hne
  · intro hw hdone
    exact ⟨rfl, (h.done hw hdone).2⟩

theorem confirmed (h : Waits s) {e : Sent} {ret : ℤ} (hrx : s.rx = .handled e ret) :
    Waits { s with
      rx := .idle
      slot := { s.slot with ret := ret, done := true, doneBy := some e } } := by
  have hbusy := h.busy e (congrArg RxPc.msg hrx)
  refine ⟨h.owners, h.bufOwner, h.arg, nofun, nofun, ?_⟩
  intro hw _
  refine ⟨(hbusy.2 hw).2.1, ?_⟩
  rintro e' ⟨⟩
  exact ⟨hbusy.1, (hbusy.2 hw).2.2⟩

end Waits

/-- **Every step on time keeps the invariant.** -/
theorem waits_step (h : Waits s) (hon : OnTime s a) (ht : s.step a = some t) : Waits t := by
  cases (branch_of_step ht).2 with
  | lock hpc | nomem hpc | timeout hpc => exact h.goto (by rw [hpc]; rfl)
  | put => exact ⟨h.owners, h.bufOwner, h.arg, h.busy, h.store, h.done⟩
  | send cmd ifId arg hpc =>
    have hgoto : Waits { s with sender := .submitted cmd arg } := h.goto (by rw [hpc]; rfl)
    exact ⟨hgoto.owners, Nat.le_refl _, hgoto.arg, hgoto.busy, hgoto.store, hgoto.done⟩
  | register hpc hptr => exact h.registered hon _ _
  | complete hpc hdone | lastChance hpc hdone => exact h.completed (by rw [hpc]; rfl) hdone _
  | giveUp hpc hcmd => exact h.gaveUp hpc hcmd
  | giveUpRace hpc hcmd => exact h.gaveUpRace hpc
  | leave hpc => exact h.left hpc
  | linearize hpc hlen =>
    refine ⟨fun e he => ?_, h.bufOwner, h.arg, h.busy, h.store, h.done⟩
    rw [linearized_out] at he
    rcases List.mem_append.mp he with he | he
    · exact h.owners e he
    · rw [List.mem_singleton.mp he]
      exact h.bufOwner
  | registerBug | lastChanceBug | test | testNone | getBug | get | linearizeBug | txedTest
  | txedTestNone | txed => exact ⟨h.owners, h.bufOwner, h.arg, h.busy, h.store, h.done⟩
  | write => exact h.written
  | writeFailed => exact h.written.forceFree _
  | confirm k hrx hk hm => exact h.confirm hk hm hon
  | confirmOther => exact h.confirmOther
  | handle ret hrx =>
    refine ⟨h.owners, h.bufOwner, h.arg, fun e he => ?_, nofun, h.done⟩
    exact h.busy e (by rw [hrx]; exact he)
  | confirmed hrx => exact h.confirmed hrx

theorem Waits.answered (h : Waits s) : Answered s := by
  refine ⟨fun e hw hdone he => (h.done hw hdone).2 e he, fun e n hrx => ?_⟩
  obtain ⟨hw, hn⟩ := h.store e n hrx
  obtain ⟨hmem, hbusy⟩ := h.busy e (congrArg RxPc.msg hrx)
  exact ⟨⟨hw, hn⟩, hmem, (hbusy hw).2.2.trans hn.symm⟩

/-- **Confirms that are on time complete the sender they answer**, in every run. -/
theorem confirm_answers_sender (h : Reach system OnTime s) : Answered s := by
  have hinv : Waits s := by
    refine Reach.inv ?_ ?_ h
    · rintro s ⟨mem, rfl⟩
      exact waits_start mem
    · intro s a t hI hon ht
      exact waits_step hI hon ht
  exact hinv.answered

/-- A command times out, its confirm is taken before the next command is registered, and the next
command gets its own. -/
theorem confirm_answers_sender_lateThenOwn : ∃ s e, Reach system OnTime s ∧ s.sender.waits = true ∧
    s.slot.done = true ∧ s.slot.doneBy = some e ∧ s.cur = 1 ∧ e ∈ s.sent ∧ e.owner = 1 := by
  let as := submits 0x000c ++ transmits ++ [.timeout, .giveUp, .leave, .confirm 0, .handle 0,
    .confirmed] ++ submits 0x000c ++ transmits ++ [.confirm 1, .handle 0, .confirmed]
  have hinit : system.init (start []) := ⟨[], rfl⟩
  have hout : (execIf system OnTime (start []) as).map (fun s =>
      (s.sender.waits, s.slot.done, s.slot.doneBy.isSome, s.cur)) = some (true, true, true, 1) := by
    decide +kernel
  obtain ⟨s, hs, hout⟩ := Option.map_eq_some_iff.mp hout
  simp only [Prod.mk.injEq] at hout
  obtain ⟨hw, hdone, hby, hcur⟩ := hout
  obtain ⟨e, he⟩ := Option.isSome_iff_exists.mp hby
  have hr := Reach.of_execIf (.init hinit) hs
  have hans := (confirm_answers_sender hr).done e hw hdone he
  rw [hcur] at hans
  exact ⟨s, e, hr, hw, hdone, he, hcur, hans⟩

/-- **A late confirm completes the next command**: the first of two commands with one id times out,
and its confirm is taken while the second one waits. -/
theorem late_completes : ∃ s, Reach system (fun _ _ => True) s ∧ ¬ Answered s := by
  let as := submits 0x000c ++ transmits ++ [.timeout, .giveUp, .leave] ++ submits 0x000c ++
    [.confirm 0, .handle 0, .confirmed]
  have hinit : system.init (start []) := ⟨[], rfl⟩
  have hout : (exec system (start []) as).map (fun s =>
      (s.sender.waits, s.slot.done, s.slot.doneBy.map (·.owner), s.cur)) =
        some (true, true, some 0, 1) := by
    decide +kernel
  obtain ⟨s, hs, hout⟩ := Option.map_eq_some_iff.mp hout
  simp only [Prod.mk.injEq] at hout
  obtain ⟨hw, hdone, hby, hcur⟩ := hout
  obtain ⟨e, he, howner⟩ := Option.map_eq_some_iff.mp hby
  refine ⟨s, Reach.of_exec (.init hinit) hs, fun h => ?_⟩
  have heq := (h.done e hw hdone he).2
  rw [howner, hcur] at heq
  cases heq

end Atbm6441.Wsm.Cmd
