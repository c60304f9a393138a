import Atbm6441.Wsm.Cmd.Model

/-!
# What one step of the command path does

`Branch s a t` : one branch of the step `a` leads from `s` to `t`, with the tests that led there.
`branch_of_step` : every step takes one of them.
-/

namespace Atbm6441.Wsm.Cmd

open Atbm6441.Lib

/-- The slot after the registration of a command. -/
def State.registered (s : State) (cmd : BitVec 16) (arg : Bool) : WsmCmd :=
  { s.slot with
    ptr := some s.cur
    len := s.buf.bufLen
    arg := if arg then some s.cur else none
    cmd := cmd
    done := false }

/-- The message that the bottom half copies. -/
def State.copy (s : State) (n : ℕ) : Sent :=
  ⟨n, s.buf.owner, s.wsmTxSeq, s.buf.msg.stamp s.wsmTxSeq⟩

/-- The copy into the transfer buffer. -/
def State.linearized (s : State) (n : ℕ) : State :=
  { s with
    tx := .copied n
    buf := s.buf.stamp s.wsmTxSeq
    wsmTxSeq := (s.wsmTxSeq + 1) &&& 7
    xmitBuff := s.xmitBuff ++ [s.copy n] }

/-- The transfer buffer is handed to the bus. -/
def State.written (s : State) : State :=
  { s with tx := .idle, xmitBuff := [], sent := s.sent ++ s.xmitBuff }

/-- The sender has timed out and gives its command up. -/
def State.gaveUp (s : State) (pc : SenderPc) : State :=
  { s with
    sender := pc
    slot := { s.slot with ptr := none, arg := none }
    timedOut := s.timedOut ++ [s.cur] }

/-- All messages that were copied into the transfer buffer. -/
def State.out (s : State) : List Sent := s.sent ++ s.xmitBuff

theorem linearized_out (s : State) (n : ℕ) : (s.linearized n).out = s.out ++ [s.copy n] :=
  (List.append_assoc ..).symm

theorem written_out (s : State) : s.written.out = s.out := List.append_nil _

theorem isCnf_free {c : WsmCmd} (hc : c.cmd = 0xffff) (id : BitVec 16) : c.isCnf id = false := by
  rw [WsmCmd.isCnf, hc, beq_eq_false_iff_ne]
  intro h
  have hbit := congrArg (fun b : BitVec 16 => b.getLsbD 10) h
  simp at hbit

/-- **The branches of the steps.** -/
inductive Branch (s : State) : Act → State → Prop
  | lock : s.sender = .free → Branch s .lock { s with sender := .building }
  | put (bs : List UInt8) : s.sender = .building → Branch s (.put bs) { s with buf := s.buf.put bs }
  | nomem : s.sender = .building → Branch s .nomem { s with sender := .free }
  | send (cmd ifId : BitVec 16) (arg : Bool) : s.sender = .building →
      Branch s (.send cmd ifId arg)
        { s with
          sender := .submitted cmd arg
          buf := s.buf.fillHdr cmd ifId s.cur
          built := s.built ++ [(s.buf.fillHdr cmd ifId s.cur).msg] }
  | registerBug {cmd : BitVec 16} {arg : Bool} {n : ℕ} : s.sender = .submitted cmd arg →
      s.slot.ptr = some n → Branch s .register { s with bug := some .cmdSend }
  | register {cmd : BitVec 16} {arg : Bool} : s.sender = .submitted cmd arg → s.slot.ptr = none →
      Branch s .register { s with sender := .waiting, slot := s.registered cmd arg }
  | timeout : s.sender = .waiting → s.slot.done = false →
      Branch s .timeout { s with sender := .expired }
  | complete : s.sender = .waiting → s.slot.done = true →
      Branch s .complete { s with sender := .leaving s.slot.ret }
  | giveUp : s.sender = .expired → s.slot.cmd ≠ 0xffff →
      Branch s .giveUp (s.gaveUp (.leaving (-110)))
  | giveUpRace : s.sender = .expired → s.slot.cmd = 0xffff →
      Branch s .giveUp (s.gaveUp .lastChance)
  | lastChance : s.sender = .lastChance → s.slot.done = true →
      Branch s .lastChance { s with sender := .leaving (-110) }
  | lastChanceBug : s.sender = .lastChance → s.slot.done = false →
      Branch s .lastChance { s with bug := some .lastChance }
  | leave {ret : ℤ} : s.sender = .leaving ret →
      Branch s .leave { s with sender := .free, buf := s.buf.reset, cur := s.cur + 1 }
  | test (frame : Bool) {n : ℕ} : s.tx = .idle → s.slot.ptr = some n →
      Branch s (.test frame) { s with tx := .tested }
  | testNone (frame : Bool) (seq : ℕ) : s.tx = .idle → s.slot.ptr = none →
      Branch s (.test frame) { s with wsmTxSeq := seq }
  | getBug : s.tx = .tested → s.slot.ptr = none → Branch s .get { s with bug := some .getTx }
  | get {n : ℕ} : s.tx = .tested → s.slot.ptr = some n →
      Branch s .get { s with tx := .got n s.slot.len }
  | linearizeBug {n len : ℕ} : s.tx = .got n len → s.buf.len.toNat ≠ len →
      Branch s .linearize { s with bug := some .txLen }
  | linearize {n len : ℕ} : s.tx = .got n len → s.buf.len.toNat = len →
      Branch s .linearize (s.linearized n)
  | txedTest {n m : ℕ} : s.tx = .copied n → s.slot.ptr = some m →
      Branch s .txedTest { s with tx := .found n }
  | txedTestNone {n : ℕ} : s.tx = .copied n → s.slot.ptr = none →
      Branch s .txedTest { s with tx := .idle }
  | txed {n : ℕ} : s.tx = .found n →
      Branch s .txed { s with tx := .txed, slot := { s.slot with ptr := none } }
  | write (ok : Bool) : (s.tx = .txed ∧ ok = true ∨ s.tx = .idle) →
      Branch s (.write ok) s.written
  | writeFailed : s.tx = .txed →
      Branch s (.write false) { s.written with slot := s.slot.forceFree s.buf.id }
  | confirm (k : ℕ) {e : Sent} : s.rx = .idle → s.sent[k]? = some e → s.slot.isCnf e.cnfId = true →
      Branch s (.confirm k)
        { s with slot := { s.slot with cmd := 0xffff }, rx := .handling e s.slot.arg }
  | confirmOther (k : ℕ) {e : Sent} : s.rx = .idle → s.sent[k]? = some e →
      s.slot.isCnf e.cnfId = false →
      Branch s (.confirm k) { s with slot := { s.slot with cmd := 0xffff }, rx := .idle }
  | handle (ret : ℤ) {e : Sent} {arg : Option ℕ} : s.rx = .handling e arg →
      Branch s (.handle ret) { s with rx := .handled e ret }
  | confirmed {e : Sent} {ret : ℤ} : s.rx = .handled e ret →
      Branch s .confirmed
        { s with rx := .idle, slot := { s.slot with ret := ret, done := true, doneBy := some e } }

variable {s t : State} {a : Act}

theorem branch_of_sendStep (h : s.sendStep a = some t) : Branch s a t := by
  cases a <;> simp only [State.sendStep] at h <;> try cases h
  case lock =>
    split at h <;> cases h
    exact .lock ‹_›
  case put bs =>
    split at h <;> cases h
    exact .put bs ‹_›
  case nomem =>
    split at h <;> cases h
    exact .nomem ‹_›
  case send cmd ifId arg =>
    split at h <;> cases h
    exact .send cmd ifId arg ‹_›
  case register =>
    split at h <;> try cases h
    next cmd arg hpc =>
    cases hptr : s.slot.ptr with
    | none =>
      rw [hptr] at h
      cases h
      exact .register hpc hptr
    | some n =>
      rw [hptr] at h
      cases h
      exact .registerBug hpc hptr
  case timeout =>
    split at h <;> try cases h
    next hpc =>
    cases hdone : s.slot.done with
    | true =>
      rw [hdone] at h
      cases h
    | false =>
      rw [hdone] at h
      cases h
      exact .timeout hpc hdone
  case complete =>
    split at h <;> try cases h
    next hpc =>
    cases hdone : s.slot.done with
    | true =>
      rw [hdone] at h
      cases h
      exact .complete hpc hdone
    | false =>
      rw [hdone] at h
      cases h
  case giveUp =>
    split at h <;> cases h
    next hpc =>
    by_cases hcmd : s.slot.cmd = 0xffff
    · rw [if_pos hcmd]
      exact .giveUpRace hpc hcmd
    · rw [if_neg hcmd]
      exact .giveUp hpc hcmd
  case lastChance =>
    split at h <;> try cases h
    next hpc =>
    cases hdone : s.slot.done with
    | true =>
      rw [hdone] at h
      cases h
      exact .lastChance hpc hdone
    | false =>
      rw [hdone] at h
      cases h
      exact .lastChanceBug hpc hdone
  case leave =>
    split at h <;> cases h
    exact .leave ‹_›

theorem branch_of_txStep (h : s.txStep a = some t) : Branch s a t := by
  cases a <;> simp only [State.txStep] at h <;> try cases h
  case test frame =>
    split at h <;> try cases h
    next hpc =>
    cases hptr : s.slot.ptr with
    | none =>
      rw [hptr] at h
      cases h
      exact .testNone frame _ hpc hptr
    | some n =>
      rw [hptr] at h
      cases h
      exact .test frame hpc hptr
  case get =>
    split at h <;> try cases h
    next hpc =>
    cases hptr : s.slot.ptr with
    | none =>
      rw [hptr] at h
      cases h
      exact .getBug hpc hptr
    | some n =>
      rw [hptr] at h
      cases h
      exact .get hpc hptr
  case linearize =>
    split at h <;> try cases h
    next n len hpc =>
    by_cases hlen : s.buf.len.toNat = len
    · rw [if_neg (not_not_intro hlen)] at h
      cases h
      exact .linearize hpc hlen
    · rw [if_pos hlen] at h
      cases h
      exact .linearizeBug hpc hlen
  case txedTest =>
    split at h <;> cases h
    next n hpc =>
    cases hptr : s.slot.ptr with
    | none => exact .txedTestNone hpc hptr
    | some m => exact .txedTest hpc hptr
  case txed =>
    split at h <;> cases h
    exact .txed ‹_›
  case write ok =>
    split at h <;> cases h
    · next hpc =>
      cases ok with
      | true => exact .write true (Or.inl ⟨hpc, rfl⟩)
      | false => exact .writeFailed hpc
    · exact .write ok (Or.inr ‹_›)

theorem branch_of_rxStep (h : s.rxStep a = some t) : Branch s a t := by
  cases a <;> simp only [State.rxStep] at h <;> try cases h
  case confirm k =>
    split at h <;> cases h
    next e hpc hk =>
    cases hm : s.slot.isCnf e.cnfId with
    | true => exact .confirm k hpc hk hm
    | false => exact .confirmOther k hpc hk hm
  case handle ret =>
    split at h <;> cases h
    exact .handle ret ‹_›
  case confirmed =>
    split at h <;> cases h
    exact .confirmed ‹_›

/-- **Every step takes one of the branches.** -/
theorem branch_of_step (h : s.step a = some t) : s.bug = none ∧ Branch s a t := by
  unfold State.step at h
  cases hbug : s.bug with
  | some b =>
    rw [hbug] at h
    cases h
  | none =>
    rw [hbug] at h
    refine ⟨rfl, ?_⟩
    rcases Option.or_eq_some_iff.mp h with h | ⟨-, h⟩
    · exact branch_of_sendStep h
    rcases Option.or_eq_some_iff.mp h with h | ⟨-, h⟩
    · exact branch_of_txStep h
    · exact branch_of_rxStep h

end Atbm6441.Wsm.Cmd
