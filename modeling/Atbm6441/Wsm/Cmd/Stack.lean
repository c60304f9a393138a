import Atbm6441.Wsm.Cmd.Steps

/-!
# Into whose stack a confirm is stored

The result of a command is stored through `wsm_cmd.arg`, which points into the stack of the caller of
`wsm_cmd_send`. `stores_live` : a handler stores only for a sender that has not returned, as long as
the end of one confirm completes no other command (`NotAnothers`); here the device may also send
confirms that answer nothing. `stores_returned` : otherwise a sender returns with its pointer left in
the slot, and its own confirm is stored through it.
-/

namespace Atbm6441.Wsm.Cmd

open Atbm6441.Lib

/-! ### Confirms that answer nothing -/

/-- `atbm_sdio_release_err_cmd`. -/
def WsmCmd.releaseErr (c : WsmCmd) : WsmCmd :=
  if c.cmd ≠ 0xffff then
    { c with ret := -1, done := true, cmd := 0xffff, ptr := none, arg := none, doneBy := none }
  else c

/-- The steps, with those that no command of the host is needed for. -/
inductive AnyAct
  | own (a : Act)
  /-- the device sends a confirm with some id -/
  | stray (id : BitVec 16)
  /-- the TX thread ends -/
  | release

/-- A message that nobody has sent. -/
def strayMsg (id : BitVec 16) : Sent := ⟨0, 0, 0, ⟨0, 0, id, []⟩⟩

/-- The first section of a confirm that answers nothing. -/
def State.stray (s : State) (id : BitVec 16) : State :=
  { s with
    slot := { s.slot with cmd := 0xffff }
    rx := if s.slot.isCnf id then .handling (strayMsg id) s.slot.arg else .idle }

def State.anyStep (s : State) : AnyAct → Option State
  | .own a => s.step a
  | .stray id => if s.bug = none ∧ s.rx = .idle then some (s.stray id) else none
  | .release => if s.bug = none then some { s with slot := s.slot.releaseErr } else none

/-- Runs from the initialisation on, with any confirms. -/
def anyConfirm : System State AnyAct where
  init s := ∃ mem, s = start mem
  step := State.anyStep

/-! ### The invariant -/

/-- The call of `wsm_cmd_send` for command `n` has returned. -/
def State.Returned (s : State) (n : ℕ) : Prop := n < s.cur

/-- The command that a handler stores for. -/
def RxPc.stores : RxPc → Option ℕ
  | .handling _ arg => arg
  | .idle | .handled _ _ => none

/-- **A handler stores only for a sender that has not returned.** -/
def StoresLive (s : State) : Prop := ∀ n, s.rx.stores = some n → ¬ s.Returned n

/-- **The end of a confirm completes no other command**: it does not find a command in the slot that
is to be stored for and whose own confirm has not been taken. -/
def NotAnothers (s : State) : AnyAct → Prop
  | .own .confirmed => s.slot.cmd = 0xffff ∨ s.slot.arg = none
  | _ => True

instance (s : State) (a : AnyAct) : Decidable (NotAnothers s a) :=
  match a with
  | .own .confirmed => inferInstanceAs (Decidable (s.slot.cmd = 0xffff ∨ s.slot.arg = none))
  | .own .lock | .own (.put _) | .own .nomem | .own (.send _ _ _) | .own .register | .own .timeout
  | .own .complete | .own .giveUp | .own .lastChance | .own .leave | .own (.test _) | .own .get
  | .own .linearize | .own .txedTest | .own .txed | .own (.write _) | .own (.confirm _)
  | .own (.handle _) | .stray _ | .release => .isTrue trivial

/-- The sender waits for a command that nothing has completed. -/
def State.Pending (s : State) (n : ℕ) : Prop :=
  n = s.cur ∧ s.sender.waits = true ∧ s.slot.done = false

/-- **Who is stored for is pending**, from the registration on until its confirm has been stored. -/
structure Live (s : State) : Prop where
  slot : s.slot.cmd ≠ 0xffff → ∀ n, s.slot.arg = some n → s.Pending n
  handling : ∀ n, s.rx.stores = some n → s.slot.cmd = 0xffff ∧ s.Pending n

variable {s t : State} {n : ℕ}

theorem live_start (mem : List UInt8) : Live (start mem) := ⟨nofun, nofun⟩

namespace Live

theorem keep (h : Live s) (hcmd : t.slot.cmd = s.slot.cmd) (harg : t.slot.arg = s.slot.arg)
    (hrx : t.rx = s.rx) (hpend : ∀ n, s.Pending n → t.Pending n) : Live t := by
  refine ⟨?_, ?_⟩
  · rw [hcmd, harg]
    exact fun hne n hn => hpend n (h.slot hne n hn)
  · rw [hcmd, hrx]
    exact fun n hn => ⟨(h.handling n hn).1, hpend n (h.handling n hn).2⟩

/-- The sender moves on and still waits, or still does not. -/
theorem goto (h : Live s) {pc : SenderPc} (hpc : pc.waits = s.sender.waits) :
    Live { s with sender := pc } :=
  h.keep rfl rfl rfl fun _ hn => ⟨hn.1, hpc.trans hn.2.1, hn.2.2⟩

/-- **Nobody is stored for any more** when the sender that is pending leaves. -/
theorem gone (h : Live s) (hdone : ∀ n, ¬ s.Pending n) (harg : t.slot.cmd = s.slot.cmd ∧
    t.slot.arg = s.slot.arg) (hrx : t.rx = s.rx) : Live t := by
  refine ⟨?_, ?_⟩
  · rw [harg.1, harg.2]
    exact fun hne n hn => absurd (h.slot hne n hn) (hdone n)
  · rw [hrx]
    exact fun n hn => absurd (h.handling n hn).2 (hdone n)

theorem gaveUp (h : Live s) {pc : SenderPc}
    (hpc : s.slot.cmd = 0xffff → s.sender.waits = true → pc.waits = true) :
    Live (s.gaveUp pc) := by
  refine ⟨nofun, fun n hn => ?_⟩
  obtain ⟨hcmd, hn, hw, hdone⟩ := h.handling n hn
  exact ⟨hcmd, hn, hpc hcmd hw, hdone⟩

/-- **A command is registered**: nobody waited before. -/
theorem registered (h : Live s) (hw : s.sender.waits = false) (cmd : BitVec 16) (arg : Bool) :
    Live { s with sender := .waiting, slot := s.registered cmd arg } := by
  refine ⟨fun _ n hn => ?_, fun n hn => ?_⟩
  · change (if arg = true then some s.cur else none) = some n at hn
    split_ifs at hn
    exact ⟨(Option.some.inj hn).symm, rfl, rfl⟩
  · have := (h.handling n hn).2.2.1
    simp [hw] at this

/-- **A confirm is taken**: what it is stored for was in the slot. -/
theorem taken (h : Live s) {e : Sent} {id : BitVec 16} (hm : s.slot.isCnf id = true) :
    Live { s with slot := { s.slot with cmd := 0xffff }, rx := .handling e s.slot.arg } := by
  have hcmd : s.slot.cmd ≠ 0xffff := by
    intro hc
    simp [isCnf_free hc] at hm
  exact ⟨fun hne => absurd rfl hne, fun n hn => ⟨rfl, h.slot hcmd n hn⟩⟩

theorem free (hcmd : s.slot.cmd = 0xffff) (hrx : s.rx = .idle) : Live s := by
  refine ⟨fun hne => absurd hcmd hne, fun n hn => ?_⟩
  simp [hrx, RxPc.stores] at hn

/-- The slot is released, unless a confirm has been taken. -/
theorem released (h : Live s) {c : WsmCmd} (hc : c = s.slot ∨ s.slot.cmd ≠ 0xffff ∧ c.cmd = 0xffff) :
    Live { s with slot := c } := by
  rcases hc with rfl | ⟨hne, hcmd⟩
  · exact h
  · exact ⟨fun hne' => absurd hcmd hne', fun n hn => absurd (h.handling n hn).1 hne⟩

/-- **The end of a confirm.** -/
theorem confirmed (hok : s.slot.cmd = 0xffff ∨ s.slot.arg = none) (e : Sent) (ret : ℤ) :
    Live { s with
      rx := .idle
      slot := { s.slot with ret := ret, done := true, doneBy := some e } } := by
  refine ⟨fun hne n hn => ?_, nofun⟩
  rcases hok with hcmd | harg
  · exact absurd hcmd hne
  · change s.slot.arg = some n at hn
    simp [harg] at hn

end Live

theorem not_pending (h : s.sender.waits = false ∨ s.slot.done = true) (n : ℕ) : ¬ s.Pending n := by
  rintro ⟨-, hw, hdone⟩
  rcases h with h | h
  · simp [hw] at h
  · simp [hdone] at h

theorem forceFree_cases (c : WsmCmd) (id : BitVec 16) :
    c.forceFree id = c ∨ c.cmd ≠ 0xffff ∧ (c.forceFree id).cmd = 0xffff := by
  unfold WsmCmd.forceFree
  split_ifs with hfreed
  · exact Or.inr ⟨bne_iff_ne.mp (Bool.and_eq_true_iff.mp hfreed).2, rfl⟩
  · exact Or.inl rfl

theorem releaseErr_cases (c : WsmCmd) :
    c.releaseErr = c ∨ c.cmd ≠ 0xffff ∧ c.releaseErr.cmd = 0xffff := by
  unfold WsmCmd.releaseErr
  split_ifs with hcmd
  · exact Or.inr ⟨hcmd, rfl⟩
  · exact Or.inl rfl

theorem live_own (h : Live s) {a : Act} (hok : NotAnothers s (.own a)) (ht : s.step a = some t) :
    Live t := by
  cases (branch_of_step ht).2 with
  | lock hpc | nomem hpc | timeout hpc => exact h.goto (by rw [hpc]; rfl)
  | send cmd ifId arg hpc =>
    have hgoto : Live { s with sender := .submitted cmd arg } := h.goto (by rw [hpc]; rfl)
    exact hgoto.keep rfl rfl rfl fun _ hn => hn
  | register hpc hptr => exact h.registered (by rw [hpc]; rfl) _ _
  | complete hpc hdone | lastChance hpc hdone =>
    exact h.gone (not_pending (Or.inr hdone)) ⟨rfl, rfl⟩ rfl
  | leave hpc => exact h.gone (not_pending (Or.inl (by rw [hpc]; rfl))) ⟨rfl, rfl⟩ rfl
  | giveUp hpc hcmd => exact h.gaveUp fun hc => absurd hc hcmd
  | giveUpRace hpc hcmd => exact h.gaveUp fun _ _ => rfl
  | put | registerBug | lastChanceBug | test | testNone | getBug | get | linearizeBug | linearize
  | txedTest | txedTestNone | txed | write => exact h.keep rfl rfl rfl fun _ hn => hn
  | writeFailed =>
    have hwritten : Live s.written := h.keep rfl rfl rfl fun _ hn => hn
    exact hwritten.released (forceFree_cases ..)
  | confirm k hrx hk hm => exact h.taken hm
  | confirmOther => exact .free rfl rfl
  | handle ret hrx => exact ⟨h.slot, nofun⟩
  | confirmed hrx => exact .confirmed hok _ _

/-- **Every step that meets the condition keeps the invariant.** -/
theorem live_step (h : Live s) {a : AnyAct} (hok : NotAnothers s a) (ht : s.anyStep a = some t) :
    Live t := by
  cases a with
  | own a => exact live_own h hok ht
  | stray id =>
    simp only [State.anyStep, Option.ite_none_right_eq_some, Option.some.injEq] at ht
    obtain ⟨hrx, rfl⟩ := ht
    unfold State.stray
    split_ifs with hm
    · exact h.taken hm
    · exact .free rfl rfl
  | release =>
    simp only [State.anyStep, Option.ite_none_right_eq_some, Option.some.injEq] at ht
    obtain ⟨-, rfl⟩ := ht
    exact h.released (releaseErr_cases ..)

end Atbm6441.Wsm.Cmd
