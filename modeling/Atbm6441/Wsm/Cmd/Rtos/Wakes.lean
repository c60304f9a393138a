import Atbm6441.Wsm.Cmd.Stack
import Atbm6441.Wsm.Cmd.Transmit

/-!
# Wake-ups of the senders on the RTOS

`__wait_event_timeout` of the RTOS takes the semaphore of the queue, whose `down_timeout` waits for
ever, and then tests the condition once. `answered_wakeups` : a sender is woken once for each command,
when it is done, and none times out.

A section under `wsm_cmd.lock` is one step, as on Linux, although `spin_lock_bh` of the port does nothing:
a switch of threads inside of one is left out.
-/

namespace Atbm6441.Wsm.Cmd.Rtos

open Atbm6441.Lib

/-- The command path, the semaphore of `wsm_cmd_wq`, whether the sender is behind `down_timeout`,
whether the RX thread is before `wake_up`, and the messages that have been answered. -/
structure Port where
  cmd : State
  sem : ℕ
  woken : Bool
  toWake : Bool
  answered : List ℕ

inductive Act
  | own (a : Cmd.Act)
  /-- the device sends a confirm with some id -/
  | stray (id : BitVec 16)
  /-- `down_timeout` -/
  | down
  /-- the sender waits again -/
  | again
  /-- `wake_up`, when the confirm is no longer locked -/
  | wake

namespace Port

/-- The write has failed, and the command is freed. -/
def frees (p : Port) : Cmd.Act → Bool
  | .write ok => !ok && p.cmd.tx == .txed && p.cmd.slot.isFreed p.cmd.buf.id
  | _ => false

/-- What the steps need of the semaphore, and what they do to it. -/
def ownStep (p : Port) (a : Cmd.Act) (t : State) : Option Port :=
  match a with
  | .timeout | .complete | .lastChance =>
    if p.woken then some { p with cmd := t, woken := false } else none
  | .confirm k =>
    if p.toWake then none else some { p with cmd := t, answered := p.answered ++ [k] }
  | .confirmed => some { p with cmd := t, toWake := true }
  | a => some { p with cmd := t, sem := p.sem + (p.frees a).toNat }

def step (p : Port) : Act → Option Port
  | .own a => (p.cmd.step a).bind (p.ownStep a)
  | .stray id =>
    if p.cmd.bug = none ∧ p.cmd.rx = .idle ∧ p.toWake = false then
      some { p with cmd := p.cmd.stray id }
    else none
  | .down =>
    if p.cmd.bug = none ∧ (p.cmd.sender = .waiting ∨ p.cmd.sender = .lastChance) ∧
        p.woken = false ∧ 0 < p.sem then
      some { p with sem := p.sem - 1, woken := true }
    else none
  | .again =>
    if p.cmd.bug = none ∧ p.cmd.sender = .waiting ∧ p.woken = true ∧ p.cmd.slot.done = false then
      some { p with woken := false }
    else none
  | .wake =>
    if p.cmd.bug = none ∧ p.toWake = true then
      some { p with sem := p.sem + 1, toWake := false }
    else none

end Port

/-- Runs from the initialisation on. -/
def system : System Port Act where
  init p := ∃ mem, p = ⟨start mem, 0, false, false, []⟩
  step := Port.step

/-- **The steps of the device**: it sends no confirm before the first command. -/
def AfterFirst (p : Port) : Act → Prop
  | .stray _ => p.cmd.IsRegistered 0
  | _ => True

instance (p : Port) (a : Act) : Decidable (AfterFirst p a) :=
  match a with
  | .stray _ => inferInstanceAs (Decidable (_ ∨ _ ∧ _))
  | .own _ | .down | .again | .wake => .isTrue trivial

/-! ### Wake-ups and commands -/

/-- The wake-ups on their way to the sender. -/
def Port.wakeups (p : Port) : ℕ := p.sem + p.woken.toNat + p.toWake.toNat

/-- Nothing of a command has been seen. -/
structure Fresh (s : State) : Prop where
  sent : s.sent = []
  xmitBuff : s.xmitBuff = []
  ptr : s.slot.ptr = none
  tx : s.tx = .idle

structure Paired (p : Port) : Prop where
  pc : p.cmd.sender ≠ .expired ∧ p.cmd.sender ≠ .lastChance
  /-- a wake-up is on its way when the command is done -/
  wakeups : p.wakeups = if p.cmd.sender = .waiting ∧ p.cmd.slot.done = true then 1 else 0
  /-- a confirm that is handled is that of the command that is waited for -/
  busy : p.cmd.rx ≠ .idle →
    p.cmd.sender = .waiting ∧ p.cmd.slot.done = false ∧ p.cmd.slot.cmd = 0xffff
  done : p.cmd.sender = .waiting → p.cmd.slot.done = true → p.cmd.slot.cmd = 0xffff
  free : p.cmd.IsRegistered 0 → p.cmd.slot.cmd ≠ 0xffff → p.cmd.sender = .waiting
  first : ¬ p.cmd.IsRegistered 0 → Fresh p.cmd
  timedOut : p.cmd.timedOut = []
  noBug : p.cmd.bug ≠ some .lastChance

variable {p q : Port} {s t : State} {a : Cmd.Act} {b : Act}

theorem paired_start (mem : List UInt8) : Paired ⟨start mem, 0, false, false, []⟩ where
  pc := ⟨nofun, nofun⟩
  wakeups := rfl
  busy := fun h => absurd rfl h
  done := nofun
  free := by rintro (h | ⟨-, h⟩) <;> cases h
  first := fun _ => ⟨rfl, rfl, rfl, rfl⟩
  timedOut := rfl
  noBug := nofun

namespace Paired

theorem keep (h : Paired p) (hsender : t.sender = p.cmd.sender) (hcmd : t.slot.cmd = p.cmd.slot.cmd)
    (hdone : t.slot.done = p.cmd.slot.done) (hrx : t.rx ≠ .idle → p.cmd.rx ≠ .idle)
    (hcur : t.cur = p.cmd.cur) (hfirst : Fresh p.cmd → Fresh t)
    (htimed : t.timedOut = p.cmd.timedOut) (hbug : t.bug ≠ some .lastChance) :
    Paired { p with cmd := t } := by
  have hreg : t.IsRegistered 0 ↔ p.cmd.IsRegistered 0 := by
    rw [State.IsRegistered, State.IsRegistered, hsender, hcur]
  refine ⟨?_, ?_, ?_, ?_, ?_, ?_, htimed.trans h.timedOut, hbug⟩ <;> dsimp only
  · rw [hsender]
    exact h.pc
  · rw [hsender, hdone]
    exact h.wakeups
  · rw [hsender, hdone, hcmd]
    exact fun hi => h.busy (hrx hi)
  · rw [hsender, hdone, hcmd]
    exact h.done
  · rw [hreg, hsender, hcmd]
    exact h.free
  · rw [hreg]
    exact fun hr => hfirst (h.first hr)

theorem rx_idle (h : Paired p) (hpc : p.cmd.sender ≠ .waiting) : p.cmd.rx = .idle := by
  by_contra hrx
  exact hpc (h.busy hrx).1

theorem wakeups_zero (h : Paired p) (hpc : p.cmd.sender = .waiting → p.cmd.slot.done = false) :
    p.wakeups = 0 := by
  rw [h.wakeups, if_neg]
  rintro ⟨hw, hdone⟩
  rw [hpc hw] at hdone
  cases hdone

theorem done_of_woken (h : Paired p) (hw : p.woken = true) :
    p.cmd.sender = .waiting ∧ p.cmd.slot.done = true := by
  by_contra hne
  have hzero := h.wakeups
  rw [if_neg hne, Port.wakeups, hw, Bool.toNat_true] at hzero
  omega

theorem goto (h : Paired p) (hpc : p.cmd.sender ≠ .waiting) (ht : t.sender ≠ .waiting)
    (hlate : t.sender ≠ .expired ∧ t.sender ≠ .lastChance) (hslot : t.slot = p.cmd.slot)
    (hrx : t.rx = p.cmd.rx) (hreg : t.IsRegistered 0 ↔ p.cmd.IsRegistered 0)
    (hfirst : Fresh p.cmd → Fresh t) (htimed : t.timedOut = p.cmd.timedOut)
    (hbug : t.bug = p.cmd.bug) : Paired { p with cmd := t } where
  pc := hlate
  wakeups := by
    rw [if_neg fun hw => ht hw.1]
    exact h.wakeups_zero fun hw => absurd hw hpc
  busy := fun hi => absurd ((hrx.trans (h.rx_idle hpc))) hi
  done := fun hw => absurd hw ht
  free := by
    intro hr hcmd
    rw [show (Port.mk t p.sem p.woken p.toWake p.answered).cmd.slot = _ from hslot] at hcmd
    exact absurd (h.free (hreg.mp hr) hcmd) hpc
  first := fun hr => hfirst (h.first fun hp => hr (hreg.mpr hp))
  timedOut := htimed.trans h.timedOut
  noBug := by
    show t.bug ≠ _
    rw [hbug]
    exact h.noBug

theorem register (h : Paired p) {cmd : BitVec 16} {arg : Bool}
    (hpc : p.cmd.sender = .submitted cmd arg) :
    Paired { p with cmd := { p.cmd with sender := .waiting, slot := p.cmd.registered cmd arg } } where
  pc := ⟨nofun, nofun⟩
  wakeups := by
    rw [if_neg nofun]
    exact h.wakeups_zero fun hw => by rw [hpc] at hw; cases hw
  busy := fun hi => absurd (h.rx_idle (by rw [hpc]; nofun)) hi
  done := nofun
  free := fun _ _ => rfl
  first := by
    intro hr
    exfalso
    apply hr
    rcases Nat.eq_zero_or_pos p.cmd.cur with hcur | hcur
    · exact .inr ⟨hcur.symm, rfl⟩
    · exact .inl hcur
  timedOut := h.timedOut
  noBug := h.noBug

theorem complete (h : Paired p) (hpc : p.cmd.sender = .waiting) (hdone : p.cmd.slot.done = true)
    (hw : p.woken = true) (ret : ℤ) :
    Paired { p with cmd := { p.cmd with sender := .leaving ret }, woken := false } where
  pc := ⟨nofun, nofun⟩
  wakeups := by
    have hone := h.wakeups
    rw [if_pos ⟨hpc, hdone⟩, Port.wakeups, hw, Bool.toNat_true] at hone
    rw [if_neg fun hw => by cases hw.1]
    show p.sem + 0 + p.toWake.toNat = 0
    omega
  busy := by
    intro hi
    rw [(h.busy hi).2.1] at hdone
    cases hdone
  done := nofun
  free := fun _ hcmd => absurd (h.done hpc hdone) hcmd
  first := by
    intro hr
    have hf : Fresh p.cmd := by
      refine h.first fun hp => hr ?_
      rcases hp with hlt | ⟨heq, -⟩
      · exact .inl hlt
      · exact .inr ⟨heq, rfl⟩
    exact ⟨hf.sent, hf.xmitBuff, hf.ptr, hf.tx⟩
  timedOut := h.timedOut
  noBug := h.noBug

theorem leave (h : Paired p) {ret : ℤ} (hpc : p.cmd.sender = .leaving ret) :
    Paired { p with
      cmd := { p.cmd with sender := .free, buf := p.cmd.buf.reset, cur := p.cmd.cur + 1 } } where
  pc := ⟨nofun, nofun⟩
  wakeups := by
    rw [if_neg nofun]
    exact h.wakeups_zero fun hw => by rw [hpc] at hw; cases hw
  busy := fun hi => absurd (h.rx_idle (by rw [hpc]; nofun)) hi
  done := nofun
  free := by
    intro _ hcmd
    have hreg : p.cmd.IsRegistered 0 := by
      rcases Nat.eq_zero_or_pos p.cmd.cur with hcur | hcur
      · exact .inr ⟨hcur.symm, by rw [hpc]; rfl⟩
      · exact .inl hcur
    have hw := h.free hreg hcmd
    rw [hpc] at hw
    cases hw
  first := fun hr => absurd (.inl (Nat.succ_pos _)) hr
  timedOut := h.timedOut
  noBug := h.noBug

theorem outstanding (h : Paired p) (hreg : p.cmd.IsRegistered 0) (hcmd : p.cmd.slot.cmd ≠ 0xffff) :
    p.cmd.sender = .waiting ∧ p.cmd.slot.done = false := by
  have hpc := h.free hreg hcmd
  refine ⟨hpc, ?_⟩
  cases hdone : p.cmd.slot.done with
  | false => rfl
  | true => exact absurd (h.done hpc hdone) hcmd

theorem writeFailed (h : Paired p) (htx : p.cmd.tx = .txed) :
    Paired { p with
      cmd := { p.cmd.written with slot := p.cmd.slot.forceFree p.cmd.buf.id }
      sem := p.sem + (p.cmd.slot.isFreed p.cmd.buf.id).toNat } := by
  have hreg : p.cmd.IsRegistered 0 := by
    by_contra hr
    have hidle := (h.first hr).tx
    rw [htx] at hidle
    cases hidle
  unfold WsmCmd.forceFree
  cases hfreed : p.cmd.slot.isFreed p.cmd.buf.id with
  | false =>
    exact h.keep (t := p.cmd.written) rfl rfl rfl id rfl
      (fun hf => ⟨by rw [State.written, hf.sent, hf.xmitBuff]; rfl, rfl, hf.ptr, rfl⟩) rfl h.noBug
  | true =>
    have hcmd : p.cmd.slot.cmd ≠ 0xffff := bne_iff_ne.mp (Bool.and_eq_true_iff.mp hfreed).2
    obtain ⟨hpc, hdone⟩ := h.outstanding hreg hcmd
    refine ⟨h.pc, ?_, fun hi => absurd (h.busy hi).2.2 hcmd, fun _ _ => rfl, fun _ hne => absurd rfl hne,
      fun hr => absurd hreg hr, h.timedOut, h.noBug⟩
    have hzero := h.wakeups_zero fun _ => hdone
    refine Eq.trans ?_ (if_pos ⟨hpc, rfl⟩).symm
    rw [Port.wakeups] at hzero ⊢
    dsimp only [Bool.toNat_true]
    omega

theorem taken (h : Paired p) (hreg : p.cmd.IsRegistered 0) {rx : RxPc}
    (hcmd : rx ≠ .idle → p.cmd.slot.cmd ≠ 0xffff) :
    Paired { p with cmd := { p.cmd with slot := { p.cmd.slot with cmd := 0xffff }, rx := rx } } where
  pc := h.pc
  wakeups := h.wakeups
  busy := by
    intro hi
    obtain ⟨hpc, hdone⟩ := h.outstanding hreg (hcmd hi)
    exact ⟨hpc, hdone, rfl⟩
  done := fun _ _ => rfl
  free := fun _ hne => absurd rfl hne
  first := fun hr => absurd hreg hr
  timedOut := h.timedOut
  noBug := h.noBug

theorem confirmed (h : Paired p) {e : Sent} {ret : ℤ} (hrx : p.cmd.rx = .handled e ret) :
    Paired { p with
      cmd := { p.cmd with
        rx := .idle
        slot := { p.cmd.slot with ret := ret, done := true, doneBy := some e } }
      toWake := true } := by
  obtain ⟨hpc, hdone, hcmd⟩ := h.busy (by rw [hrx]; nofun)
  refine ⟨h.pc, ?_, fun hi => absurd rfl hi, fun _ _ => hcmd, h.free, ?_, h.timedOut, h.noBug⟩
  rotate_left
  · intro hr
    have hf := h.first hr
    exact ⟨hf.sent, hf.xmitBuff, hf.ptr, hf.tx⟩
  have hzero := h.wakeups_zero fun _ => hdone
  refine Eq.trans ?_ (if_pos ⟨hpc, rfl⟩).symm
  rw [Port.wakeups] at hzero ⊢
  dsimp only [Bool.toNat_true]
  omega

theorem moved (h : Paired p) {sem : ℕ} {woken toWake : Bool}
    (hsum : sem + woken.toNat + toWake.toNat = p.wakeups) :
    Paired { p with sem := sem, woken := woken, toWake := toWake } :=
  ⟨h.pc, hsum.trans h.wakeups, h.busy, h.done, h.free, h.first, h.timedOut, h.noBug⟩

theorem registered_of_sent (h : Paired p) {k : ℕ} {e : Sent} (hk : p.cmd.sent[k]? = some e) :
    p.cmd.IsRegistered 0 := by
  by_contra hr
  rw [(h.first hr).sent] at hk
  cases hk

theorem answer (h : Paired p) (answered : List ℕ) : Paired { p with answered := answered } :=
  ⟨h.pc, h.wakeups, h.busy, h.done, h.free, h.first, h.timedOut, h.noBug⟩

end Paired

/-- **Every step of the command path** keeps the pairing: the wait does not time out. -/
theorem paired_own (h : Paired p) (hs : p.cmd.step a = some t) (hq : p.ownStep a t = some q) :
    Paired q := by
  have hbug : p.cmd.bug = none := (branch_of_step hs).1
  -- what is left of the first command's slot by the steps that keep it
  have hfresh {t : State} (hsent : t.sent = p.cmd.sent) (hbuff : t.xmitBuff = p.cmd.xmitBuff)
      (hptr : t.slot.ptr = p.cmd.slot.ptr) (htx : t.tx = p.cmd.tx) (hf : Fresh p.cmd) : Fresh t :=
    ⟨hsent.trans hf.sent, hbuff.trans hf.xmitBuff, hptr.trans hf.ptr, htx.trans hf.tx⟩
  cases (branch_of_step hs).2 with
  | lock hpc | nomem hpc | send _ _ _ hpc =>
    cases hq
    refine h.goto (by simp [hpc]) (by simp) (by simp) rfl rfl ?_ (hfresh rfl rfl rfl rfl) rfl rfl
    simp only [State.IsRegistered, hpc, SenderPc.registered]
  | put =>
    cases hq
    exact h.keep rfl rfl rfl id rfl (hfresh rfl rfl rfl rfl) rfl h.noBug
  | registerBug | getBug | linearizeBug =>
    cases hq
    exact h.keep rfl rfl rfl id rfl (hfresh rfl rfl rfl rfl) rfl (by simp)
  | register hpc hptr =>
    cases hq
    exact h.register hpc
  | timeout hpc hdone =>
    have hw : p.woken = true := by
      by_contra hne
      rw [Port.ownStep, if_neg hne] at hq
      cases hq
    rw [(h.done_of_woken hw).2] at hdone
    cases hdone
  | complete hpc hdone =>
    have hw : p.woken = true := by
      by_contra hne
      rw [Port.ownStep, if_neg hne] at hq
      cases hq
    rw [Port.ownStep, if_pos hw] at hq
    cases hq
    exact h.complete hpc hdone hw _
  | giveUp hpc | giveUpRace hpc => exact absurd hpc h.pc.1
  | lastChance hpc | lastChanceBug hpc => exact absurd hpc h.pc.2
  | leave hpc =>
    cases hq
    exact h.leave hpc
  | test _ hpc hptr =>
    cases hq
    refine h.keep rfl rfl rfl id rfl (fun hf => ?_) rfl h.noBug
    rw [hf.ptr] at hptr
    cases hptr
  | testNone =>
    cases hq
    exact h.keep rfl rfl rfl id rfl (hfresh rfl rfl rfl rfl) rfl h.noBug
  | get hpc | linearize hpc | txedTest hpc | txedTestNone hpc | txed hpc =>
    cases hq
    refine h.keep rfl rfl rfl id rfl (fun hf => ?_) rfl h.noBug
    rw [hf.tx] at hpc
    cases hpc
  | write ok hok =>
    have hfrees : p.frees (.write ok) = false := by
      rcases hok with ⟨-, rfl⟩ | htx
      · rfl
      · rw [Port.frees, htx]
        simp
    have hq : some { p with cmd := p.cmd.written, sem := p.sem + (p.frees (.write ok)).toNat } =
      some q := hq
    rw [hfrees] at hq
    cases hq
    refine h.keep rfl rfl rfl id rfl (fun hf => ⟨?_, rfl, hf.ptr, rfl⟩) rfl h.noBug
    rw [State.written, hf.sent, hf.xmitBuff, List.append_nil]
  | writeFailed htx =>
    have hfrees : p.frees (.write false) = p.cmd.slot.isFreed p.cmd.buf.id := by
      rw [Port.frees, htx]
      simp
    have hq : some { p with
        cmd := { p.cmd.written with slot := p.cmd.slot.forceFree p.cmd.buf.id }
        sem := p.sem + (p.frees (.write false)).toNat } = some q := hq
    rw [hfrees] at hq
    cases hq
    exact h.writeFailed htx
  | confirm k hrx hk hm =>
    rw [Port.ownStep] at hq
    split_ifs at hq
    cases hq
    have hcmd : p.cmd.slot.cmd ≠ 0xffff := by
      intro hc
      rw [isCnf_free hc] at hm
      cases hm
    exact (h.taken (h.registered_of_sent hk) fun _ => hcmd).answer _
  | confirmOther k hrx hk hm =>
    rw [Port.ownStep] at hq
    split_ifs at hq
    cases hq
    exact (h.taken (h.registered_of_sent hk) fun hi => absurd rfl hi).answer _
  | handle ret hrx =>
    cases hq
    exact h.keep rfl rfl rfl (fun _ => by simp [hrx]) rfl (hfresh rfl rfl rfl rfl) rfl h.noBug
  | confirmed hrx =>
    cases hq
    exact h.confirmed hrx

/-- **Every step** keeps the pairing. -/
theorem paired_step (h : Paired p) (hon : AfterFirst p b) (hq : p.step b = some q) : Paired q := by
  cases b with
  | own a =>
    obtain ⟨t, hs, hq⟩ := Option.bind_eq_some_iff.mp hq
    exact paired_own h hs hq
  | stray id =>
    simp only [Port.step, Option.ite_none_right_eq_some, Option.some.injEq] at hq
    obtain ⟨-, rfl⟩ := hq
    refine h.taken hon fun hi => ?_
    intro hc
    rw [isCnf_free hc] at hi
    exact hi rfl
  | down =>
    simp only [Port.step, Option.ite_none_right_eq_some, Option.some.injEq] at hq
    obtain ⟨⟨-, -, hw, hsem⟩, rfl⟩ := hq
    refine h.moved ?_
    rw [Port.wakeups, hw]
    simp only [Bool.toNat_true, Bool.toNat_false]
    omega
  | again =>
    simp only [Port.step, Option.ite_none_right_eq_some, Option.some.injEq] at hq
    obtain ⟨⟨-, -, hw, hdone⟩, rfl⟩ := hq
    rw [(h.done_of_woken hw).2] at hdone
    cases hdone
  | wake =>
    simp only [Port.step, Option.ite_none_right_eq_some, Option.some.injEq] at hq
    obtain ⟨⟨-, hw⟩, rfl⟩ := hq
    refine h.moved ?_
    rw [Port.wakeups, hw]
    simp only [Bool.toNat_true, Bool.toNat_false]
    omega

theorem paired_of_reach (h : Reach system AfterFirst p) : Paired p := by
  refine Reach.inv ?_ ?_ h
  · rintro p ⟨mem, rfl⟩
    exact paired_start mem
  · intro p b q hI hon hq
    exact paired_step hI hon hq

/-- **A sender is woken once for each command**, and finds it done. -/
structure Wakes (p : Port) : Prop where
  woken : p.woken = true → p.cmd.sender = .waiting ∧ p.cmd.slot.done = true
  /-- while a command is done and its sender still waits, one wake-up is on its way, else none -/
  once : p.wakeups = if p.cmd.sender = .waiting ∧ p.cmd.slot.done = true then 1 else 0
  timedOut : p.cmd.timedOut = []
  noBug : p.cmd.bug ≠ some .lastChance

/-- **No wake-up is lost, none is left over, and no command times out**, in every run in which the
device waits for the first command. -/
theorem answered_wakeups (h : Reach system AfterFirst p) : Wakes p := by
  have hpair := paired_of_reach h
  exact ⟨hpair.done_of_woken, hpair.wakeups, hpair.timedOut, hpair.noBug⟩

/-- Commands are built, registered and transmitted. -/
def sends (cmd : BitVec 16) : List Act := (submits cmd ++ transmits).map .own

/-- The device answers message `k`, and the sender leaves. -/
def answers (k : ℕ) : List Act :=
  [.own (.confirm k), .own (.handle 0), .own .confirmed, .wake, .down, .own .complete, .own .leave]

/-- Two commands; the second is done, and its wake-up has been taken. -/
theorem answered_wakeups_second : ∃ p, Reach system AfterFirst p ∧ p.woken = true ∧
    p.cmd.cur = 1 ∧ p.cmd.slot.done = true ∧ p.wakeups = 1 ∧ p.cmd.timedOut = [] := by
  let as := sends 0x000c ++ answers 0 ++ sends 0x0008 ++ (answers 1).take 5
  have hinit : system.init ⟨start [], 0, false, false, []⟩ := ⟨[], rfl⟩
  have hout : (execIf system AfterFirst ⟨start [], 0, false, false, []⟩ as).map (fun p =>
      (p.woken, p.cmd.cur)) = some (true, 1) := by
    decide +kernel
  obtain ⟨p, hp, hout⟩ := Option.map_eq_some_iff.mp hout
  simp only [Prod.mk.injEq] at hout
  have hr := Reach.of_execIf (.init hinit) hp
  have hwakes := answered_wakeups hr
  obtain ⟨hpc, hdone⟩ := hwakes.woken hout.1
  refine ⟨p, hr, hout.1, hout.2, hdone, ?_, hwakes.timedOut⟩
  rw [hwakes.once, if_pos ⟨hpc, hdone⟩]

end Atbm6441.Wsm.Cmd.Rtos
