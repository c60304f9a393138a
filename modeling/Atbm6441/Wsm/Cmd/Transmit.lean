import Atbm6441.Wsm.Cmd.Steps

/-!
# What of a command is transmitted

The bottom half tests `wsm_cmd.ptr` outside the lock of the slot and copies the shared buffer without
it. `transmitted_once` : a command whose sender has not timed out is transmitted once, with the bytes
that its sender built, as long as no sender gives up while the bottom half has its command in hand
and no command is completed before it is transmitted (`Undisturbed`); `timeout_in_hand` : otherwise
the `BUG_ON` of `wsm_get_tx` is reached.
-/

namespace Atbm6441.Wsm.Cmd

open Atbm6441.Lib

/-- A command is registered, or its sender has not yet returned. -/
def SenderPc.registered : SenderPc → Bool
  | .waiting | .expired | .lastChance | .leaving _ => true
  | .free | .building | .submitted _ _ => false

/-- The bottom half has seen a command and is not yet done with it. -/
def TxPc.inHand : TxPc → Bool
  | .tested | .got _ _ | .copied _ | .found _ => true
  | .idle | .txed => false

/-- The command in hand is in the transfer buffer. -/
def TxPc.isCopied : TxPc → Bool
  | .copied _ | .found _ => true
  | .idle | .tested | .got _ _ | .txed => false

namespace State

/-- How often a command was transmitted. -/
def count (s : State) (n : ℕ) : ℕ := s.out.countP fun e => e.cmd = n

/-- Command `n` has been registered. -/
def IsRegistered (s : State) (n : ℕ) : Prop := n < s.cur ∨ n = s.cur ∧ s.sender.registered = true

end State

/-- **Commands are transmitted as they were built, and once.** -/
structure Exact (s : State) : Prop where
  bytes : ∀ e ∈ s.out, ∃ m, s.built[e.cmd]? = some m ∧ e.msg = m.stamp e.seq
  /-- a command that no longer waits for the bottom half was transmitted once -/
  once : ∀ n, s.IsRegistered n → n ∉ s.timedOut → s.slot.ptr ≠ some n → s.count n = 1
  atMostOnce : ∀ n, n ∉ s.timedOut → s.count n ≤ 1
  noBug : s.bug ≠ some .cmdSend ∧ s.bug ≠ some .getTx

/-- **The steps that do not disturb a transmission**: no sender gives up while the bottom half has a
command in hand, and no command is completed by a confirm or freed after a failed write before it is
transmitted. -/
def Undisturbed (s : State) : Act → Prop
  | .giveUp => s.tx.inHand = false
  | .confirmed => s.slot.ptr = none
  | .write ok => ok = false → s.tx = .txed → s.slot.isFreed s.buf.id = true → s.slot.ptr = none
  | _ => True

instance (s : State) (a : Act) : Decidable (Undisturbed s a) :=
  match a with
  | .giveUp => inferInstanceAs (Decidable (s.tx.inHand = false))
  | .confirmed => inferInstanceAs (Decidable (s.slot.ptr = none))
  | .write ok => inferInstanceAs
    (Decidable (ok = false → s.tx = .txed → s.slot.isFreed s.buf.id = true → s.slot.ptr = none))
  | .lock | .put _ | .nomem | .send _ _ _ | .register | .timeout | .complete | .lastChance | .leave
  | .test _ | .get | .linearize | .txedTest | .txed | .confirm _ | .handle _ => .isTrue trivial

/-! ### The invariant -/

/-- How many commands the sender has built. -/
def SenderPc.numBuilt : SenderPc → ℕ
  | .free | .building => 0
  | .submitted _ _ | .waiting | .expired | .lastChance | .leaving _ => 1

/-- Command `n` no longer waits to be copied. -/
def State.Due (s : State) (n : ℕ) : Prop :=
  s.IsRegistered n ∧ (s.slot.ptr = some n → s.tx.isCopied = true)

instance (s : State) (n : ℕ) : Decidable (s.Due n) :=
  inferInstanceAs (Decidable ((_ ∨ _ ∧ _) ∧ (_ → _)))

structure InHand (s : State) : Prop where
  /-- the pointer is that of a sender that waits -/
  ptr : ∀ n, s.slot.ptr = some n →
    n = s.cur ∧ (s.sender = .waiting ∨ s.sender = .expired) ∧ s.slot.done = false
  hand : s.tx.inHand = true → s.slot.ptr = some s.cur
  got : ∀ n len, s.tx = .got n len → n = s.cur
  built : s.built.length = s.cur + s.sender.numBuilt
  submitted : ∀ cmd arg, s.sender = .submitted cmd arg → s.built[s.cur]? = some s.buf.msg
  /-- the buffer of a command that is not yet copied is as it was built -/
  pending : s.slot.ptr = some s.cur → s.tx.isCopied = false → s.built[s.cur]? = some s.buf.msg
  bytes : ∀ e ∈ s.out, ∃ m, s.built[e.cmd]? = some m ∧ e.msg = m.stamp e.seq
  count : ∀ n, n ∉ s.timedOut → s.count n = if s.Due n then 1 else 0
  noBug : s.bug ≠ some .cmdSend ∧ s.bug ≠ some .getTx

variable {s t : State} {a : Act}

theorem inHand_start (mem : List UInt8) : InHand (start mem) := by
  refine ⟨nofun, nofun, nofun, rfl, nofun, nofun, nofun, fun n _ => ?_, nofun, nofun⟩
  rw [if_neg]
  · rfl
  · rintro ⟨hlt | ⟨-, hr⟩, -⟩
    · exact absurd hlt (Nat.not_lt_zero n)
    · cases hr

theorem count_linearized (s : State) (m n : ℕ) :
    (s.linearized m).count n = s.count n + if m = n then 1 else 0 := by
  rw [State.count, linearized_out, List.countP_append, List.countP_singleton]
  simp only [decide_eq_true_eq]
  rfl

namespace InHand

theorem ptr_none (h : InHand s) (hw : s.sender ≠ .waiting) (he : s.sender ≠ .expired) :
    s.slot.ptr = none := by
  cases hptr : s.slot.ptr with
  | none => rfl
  | some n =>
    rcases (h.ptr n hptr).2.1 with hpc | hpc
    · exact absurd hpc hw
    · exact absurd hpc he

theorem ptr_none_of_done (h : InHand s) (hdone : s.slot.done = true) : s.slot.ptr = none := by
  cases hptr : s.slot.ptr with
  | none => rfl
  | some n =>
    have := (h.ptr n hptr).2.2
    rw [hdone] at this
    cases this

theorem not_inHand (h : InHand s) (hptr : s.slot.ptr = none) : s.tx.inHand = false := by
  cases htx : s.tx.inHand with
  | false => rfl
  | true =>
    rw [h.hand htx] at hptr
    cases hptr

theorem count_congr (h : InHand s) (hout : t.out = s.out) (hto : ∀ n ∈ s.timedOut, n ∈ t.timedOut)
    (hdue : ∀ n, n ∉ t.timedOut → (t.Due n ↔ s.Due n)) (n : ℕ) (hn : n ∉ t.timedOut) :
    t.count n = if t.Due n then 1 else 0 := by
  rw [State.count, hout]
  exact (h.count n fun hmem => hn (hto n hmem)).trans (if_congr (hdue n hn).symm rfl rfl)

theorem of_ptr_none (hptr : t.slot.ptr = none) (hidle : t.tx.inHand = false)
    (hbuilt : t.built.length = t.cur + t.sender.numBuilt)
    (hsub : ∀ cmd arg, t.sender = .submitted cmd arg → t.built[t.cur]? = some t.buf.msg)
    (hbytes : ∀ e ∈ t.out, ∃ m, t.built[e.cmd]? = some m ∧ e.msg = m.stamp e.seq)
    (hcount : ∀ n, n ∉ t.timedOut → t.count n = if t.Due n then 1 else 0)
    (hbug : t.bug ≠ some .cmdSend ∧ t.bug ≠ some .getTx) : InHand t := by
  refine ⟨?_, ?_, ?_, hbuilt, hsub, ?_, hbytes, hcount, hbug⟩
  · intro n hn
    rw [hptr] at hn
    cases hn
  · intro hin
    rw [hidle] at hin
    cases hin
  · intro n len htx
    rw [htx] at hidle
    cases hidle
  · intro hn
    rw [hptr] at hn
    cases hn

theorem goto (h : InHand s) {pc : SenderPc} (hptr : s.slot.ptr = none)
    (hreg : pc.registered = s.sender.registered) (hnum : pc.numBuilt = s.sender.numBuilt)
    (hsub : ∀ cmd arg, pc ≠ .submitted cmd arg) : InHand { s with sender := pc } := by
  refine of_ptr_none hptr (h.not_inHand hptr) ?_ ?_ h.bytes ?_ h.noBug
  · exact h.built.trans (congrArg (s.cur + ·) hnum.symm)
  · intro cmd arg hpc
    exact absurd hpc (hsub cmd arg)
  · refine h.count_congr rfl (fun _ => id) fun n _ => ?_
    simp only [State.Due, State.IsRegistered, hreg]

theorem send (h : InHand s) (hpc : s.sender = .building) (cmd ifId : BitVec 16) (arg : Bool) :
    InHand { s with
      sender := .submitted cmd arg
      buf := s.buf.fillHdr cmd ifId s.cur
      built := s.built ++ [(s.buf.fillHdr cmd ifId s.cur).msg] } := by
  have hptr : s.slot.ptr = none := h.ptr_none (by rw [hpc]; nofun) (by rw [hpc]; nofun)
  have hbuilt : s.built.length = s.cur := by
    have := h.built
    rwa [hpc] at this
  have hlast : (s.built ++ [(s.buf.fillHdr cmd ifId s.cur).msg])[s.cur]? =
      some (s.buf.fillHdr cmd ifId s.cur).msg := by
    rw [← hbuilt, List.getElem?_concat_length]
  refine of_ptr_none hptr (h.not_inHand hptr) ?_ (fun _ _ _ => hlast) ?_ ?_ h.noBug
  · rw [List.length_append, hbuilt]
    rfl
  · intro e he
    obtain ⟨m, hm, hmsg⟩ := h.bytes e he
    obtain ⟨hlt, -⟩ := List.getElem?_eq_some_iff.mp hm
    exact ⟨m, (List.getElem?_append_left hlt).trans hm, hmsg⟩
  · refine h.count_congr rfl (fun _ => id) fun n _ => ?_
    simp only [State.Due, State.IsRegistered, hpc, SenderPc.registered]

theorem register (h : InHand s) {cmd : BitVec 16} {arg : Bool}
    (hpc : s.sender = .submitted cmd arg) (hptr : s.slot.ptr = none) :
    InHand { s with sender := .waiting, slot := s.registered cmd arg } := by
  have hidle := h.not_inHand hptr
  have hcopied : s.tx.isCopied = false := by
    cases htx : s.tx <;> rw [htx] at hidle <;> first | rfl | cases hidle
  refine ⟨?_, fun _ => rfl, h.got, ?_, nofun, fun _ _ => h.submitted cmd arg hpc, h.bytes, ?_,
    h.noBug⟩
  · rintro n ⟨⟩
    exact ⟨rfl, Or.inl rfl, rfl⟩
  · have := h.built
    rwa [hpc] at this
  · refine h.count_congr rfl (fun _ => id) fun n _ => ?_
    constructor
    · rintro ⟨hlt | ⟨rfl, -⟩, hdue⟩
      · refine ⟨Or.inl hlt, fun hn => ?_⟩
        rw [hptr] at hn
        cases hn
      · -- the command that is registered here is not yet copied
        have := hdue rfl
        rw [hcopied] at this
        cases this
    · rintro ⟨hlt | ⟨rfl, hr⟩, -⟩
      · refine ⟨Or.inl hlt, ?_⟩
        rintro ⟨⟩
        exact absurd hlt (Nat.lt_irrefl _)
      · rw [hpc] at hr
        cases hr

theorem timeout (h : InHand s) (hpc : s.sender = .waiting) :
    InHand { s with sender := .expired } := by
  refine ⟨fun n hn => ⟨(h.ptr n hn).1, Or.inr rfl, (h.ptr n hn).2.2⟩, h.hand, h.got, ?_, nofun,
    h.pending, h.bytes, ?_, h.noBug⟩
  · have := h.built
    rwa [hpc] at this
  · refine h.count_congr rfl (fun _ => id) fun n _ => ?_
    simp only [State.Due, State.IsRegistered, hpc, SenderPc.registered]

theorem giveUp (h : InHand s) (hpc : s.sender = .expired) (htx : s.tx.inHand = false)
    {pc : SenderPc} (hnum : pc.numBuilt = 1) (hsub : ∀ cmd arg, pc ≠ .submitted cmd arg) :
    InHand (s.gaveUp pc) := by
  refine of_ptr_none rfl htx ?_ ?_ h.bytes ?_ h.noBug
  · have := h.built
    rw [hpc] at this
    exact this.trans (congrArg (s.cur + ·) hnum.symm)
  · intro cmd arg hpc
    exact absurd hpc (hsub cmd arg)
  · refine h.count_congr rfl (fun _ => List.mem_append_left _) fun n hn => ?_
    have hne : n ≠ s.cur := fun he => hn (List.mem_append_right _ (List.mem_singleton.mpr he))
    constructor
    · rintro ⟨hlt | ⟨heq, -⟩, -⟩
      · exact ⟨Or.inl hlt, fun hptr => absurd (h.ptr n hptr).1 hne⟩
      · exact absurd heq hne
    · rintro ⟨hlt | ⟨heq, -⟩, -⟩
      · exact ⟨Or.inl hlt, nofun⟩
      · exact absurd heq hne

theorem leave (h : InHand s) {ret : ℤ} (hpc : s.sender = .leaving ret) :
    InHand { s with sender := .free, buf := s.buf.reset, cur := s.cur + 1 } := by
  have hptr : s.slot.ptr = none := h.ptr_none (by rw [hpc]; nofun) (by rw [hpc]; nofun)
  refine of_ptr_none hptr (h.not_inHand hptr) ?_ nofun h.bytes ?_ h.noBug
  · have := h.built
    rwa [hpc] at this
  · refine h.count_congr rfl (fun _ => id) fun n _ => ?_
    simp only [State.Due, State.IsRegistered, hpc, hptr, SenderPc.registered, Bool.false_eq_true,
      and_false, or_false, and_true, reduceCtorEq, false_imp_iff]
    omega

/-- The bottom half moves on without a copy. -/
theorem txGoto (h : InHand s) {tx : TxPc} (hand : tx.inHand = true → s.slot.ptr = some s.cur)
    (hcopied : tx.isCopied = s.tx.isCopied) (hgot : ∀ n len, tx = .got n len → n = s.cur) :
    InHand { s with tx := tx } := by
  refine ⟨h.ptr, hand, hgot, h.built, h.submitted, ?_, h.bytes, ?_, h.noBug⟩
  · intro hptr hc
    exact h.pending hptr (hcopied.symm.trans hc)
  · refine h.count_congr rfl (fun _ => id) fun n _ => ?_
    simp only [State.Due, State.IsRegistered, hcopied]

/-- **The command in hand is copied.** -/
theorem linearize (h : InHand s) {n len : ℕ} (hpc : s.tx = .got n len) :
    InHand (s.linearized n) := by
  obtain rfl : n = s.cur := h.got n len hpc
  have hptr : s.slot.ptr = some s.cur := h.hand (by rw [hpc]; rfl)
  have hwait := (h.ptr _ hptr).2.1
  have hreg : s.sender.registered = true := by rcases hwait with hw | hw <;> rw [hw] <;> rfl
  have hcopied : s.tx.isCopied = false := by rw [hpc]; rfl
  refine ⟨h.ptr, fun _ => hptr, nofun, h.built, ?_, nofun, ?_, ?_, h.noBug⟩
  · intro cmd arg hsub
    change s.sender = _ at hsub
    rw [hsub] at hreg
    cases hreg
  · intro e he
    rw [linearized_out] at he
    rcases List.mem_append.mp he with he | he
    · exact h.bytes e he
    · rw [List.mem_singleton.mp he]
      exact ⟨s.buf.msg, h.pending hptr hcopied, rfl⟩
  · intro n hn
    rw [count_linearized, h.count n hn]
    by_cases hcur : s.cur = n
    · subst hcur
      rw [if_neg fun hd => ?_, if_pos rfl, if_pos ⟨Or.inr ⟨rfl, hreg⟩, fun _ => rfl⟩]
      have := hd.2 hptr
      rw [hcopied] at this
      cases this
    · rw [if_neg hcur]
      refine if_congr ?_ rfl rfl
      have hne : s.slot.ptr ≠ some n := fun he => hcur (Option.some.inj (hptr.symm.trans he))
      exact and_congr_right fun _ => ⟨fun _ he => absurd he hne, fun _ he => absurd he hne⟩

theorem txed (h : InHand s) {n : ℕ} (hpc : s.tx = .found n) :
    InHand { s with tx := .txed, slot := { s.slot with ptr := none } } := by
  refine of_ptr_none rfl rfl h.built h.submitted h.bytes ?_ h.noBug
  refine h.count_congr rfl (fun _ => id) fun n _ => ?_
  have hcopied : s.tx.isCopied = true := by rw [hpc]; rfl
  simp only [State.Due, State.IsRegistered, hcopied, reduceCtorEq, false_imp_iff, imp_true_iff]

theorem write (h : InHand s) (hpc : s.tx = .txed ∨ s.tx = .idle) :
    InHand s.written := by
  have hcopied : s.tx.isCopied = false := by rcases hpc with hpc | hpc <;> rw [hpc] <;> rfl
  refine ⟨h.ptr, nofun, nofun, h.built, h.submitted, fun hptr _ => h.pending hptr hcopied, ?_, ?_,
    h.noBug⟩
  · intro e he
    rw [written_out] at he
    exact h.bytes e he
  · refine h.count_congr (written_out s) (fun _ => id) fun n _ => ?_
    simp only [State.Due, hcopied]
    exact Iff.rfl

theorem freed (h : InHand s) (hptr : s.slot.ptr = none) {slot : WsmCmd} (hslot : slot.ptr = none) :
    InHand { s with slot := slot } := by
  refine of_ptr_none hslot (h.not_inHand hptr) h.built h.submitted h.bytes ?_ h.noBug
  refine h.count_congr rfl (fun _ => id) fun n _ => ?_
  simp only [State.Due, State.IsRegistered, hptr, hslot]

end InHand

/-- **Every undisturbed step keeps the invariant.** -/
theorem inHand_step (h : InHand s) (hon : Undisturbed s a) (ht : s.step a = some t) : InHand t := by
  cases (branch_of_step ht).2 with
  | lock hpc =>
    have hptr := h.ptr_none (by rw [hpc]; nofun) (by rw [hpc]; nofun)
    exact h.goto hptr (by rw [hpc]; rfl) (by rw [hpc]; rfl) nofun
  | put bs hpc =>
    have hptr : s.slot.ptr = none := h.ptr_none (by rw [hpc]; nofun) (by rw [hpc]; nofun)
    refine InHand.of_ptr_none hptr (h.not_inHand hptr) h.built ?_ h.bytes h.count h.noBug
    intro cmd arg hsub
    change s.sender = _ at hsub
    rw [hpc] at hsub
    cases hsub
  | nomem hpc =>
    have hptr := h.ptr_none (by rw [hpc]; nofun) (by rw [hpc]; nofun)
    exact h.goto hptr (by rw [hpc]; rfl) (by rw [hpc]; rfl) nofun
  | send cmd ifId arg hpc => exact h.send hpc cmd ifId arg
  | registerBug hpc hptr =>
    have := h.ptr_none (by rw [hpc]; nofun) (by rw [hpc]; nofun)
    rw [hptr] at this
    cases this
  | register hpc hptr => exact h.register hpc hptr
  | timeout hpc hdone => exact h.timeout hpc
  | complete hpc hdone =>
    exact h.goto (h.ptr_none_of_done hdone) (by rw [hpc]; rfl) (by rw [hpc]; rfl) nofun
  | giveUp hpc hcmd => exact h.giveUp hpc hon rfl nofun
  | giveUpRace hpc hcmd => exact h.giveUp hpc hon rfl nofun
  | lastChance hpc hdone =>
    exact h.goto (h.ptr_none_of_done hdone) (by rw [hpc]; rfl) (by rw [hpc]; rfl) nofun
  | lastChanceBug | linearizeBug =>
    exact ⟨h.ptr, h.hand, h.got, h.built, h.submitted, h.pending, h.bytes, h.count, nofun, nofun⟩
  | leave hpc => exact h.leave hpc
  | test frame hpc hptr =>
    refine h.txGoto (fun _ => ?_) (by rw [hpc]; rfl) nofun
    rw [hptr, (h.ptr _ hptr).1]
  | testNone =>
    exact ⟨h.ptr, h.hand, h.got, h.built, h.submitted, h.pending, h.bytes, h.count, h.noBug⟩
  | getBug hpc hptr =>
    have := h.hand (by rw [hpc]; rfl)
    rw [hptr] at this
    cases this
  | get hpc hptr =>
    have hn := (h.ptr _ hptr).1
    refine h.txGoto (fun _ => hptr.trans (congrArg some hn)) (by rw [hpc]; rfl) ?_
    rintro n len ⟨⟩
    exact hn
  | linearize hpc hlen => exact h.linearize hpc
  | txedTest hpc hptr => exact h.txGoto (fun _ => h.hand (by rw [hpc]; rfl)) (by rw [hpc]; rfl) nofun
  | txedTestNone hpc hptr =>
    have := h.hand (by rw [hpc]; rfl)
    rw [hptr] at this
    cases this
  | txed hpc => exact h.txed hpc
  | write ok hpc => exact h.write (hpc.imp And.left id)
  | writeFailed hpc =>
    have hw := h.write (Or.inl hpc)
    cases hfreed : s.slot.isFreed s.buf.id with
    | true =>
      have hptr : s.slot.ptr = none := hon rfl hpc hfreed
      refine hw.freed hptr ?_
      rw [WsmCmd.forceFree, if_pos hfreed]
    | false =>
      rw [WsmCmd.forceFree, hfreed]
      exact hw
  | confirm | confirmOther | handle =>
    exact ⟨h.ptr, h.hand, h.got, h.built, h.submitted, h.pending, h.bytes, h.count, h.noBug⟩
  | @confirmed e ret hrx =>
    have hf : InHand { s with
        slot := { s.slot with ret := ret, done := true, doneBy := some e } } := h.freed hon hon
    exact ⟨hf.ptr, hf.hand, hf.got, hf.built, hf.submitted, hf.pending, hf.bytes, hf.count,
      hf.noBug⟩

theorem InHand.exact (h : InHand s) : Exact s := by
  refine ⟨h.bytes, fun n hr hn hptr => ?_, fun n hn => ?_, h.noBug⟩
  · rw [h.count n hn, if_pos ⟨hr, fun he => absurd he hptr⟩]
  · rw [h.count n hn]
    split_ifs <;> decide

/-- **Commands are transmitted once and as they were built**, in every run that does not disturb a
transmission. -/
theorem transmitted_once (h : Reach system Undisturbed s) : Exact s := by
  have hinv : InHand s := by
    refine Reach.inv ?_ ?_ h
    · rintro s ⟨mem, rfl⟩
      exact inHand_start mem
    · intro s a t hI hon ht
      exact inHand_step hI hon ht
  exact hinv.exact

/-- The first command times out before the bottom half sees it, the second is transmitted and
confirmed. -/
theorem transmitted_once_afterTimeout : ∃ s, Reach system Undisturbed s ∧ s.timedOut = [0] ∧
    s.cur = 2 ∧ s.count 1 = 1 := by
  let as := submits 0x000c ++ [.timeout, .giveUp, .leave] ++ submits 0x000c ++ transmits ++
    [.confirm 0, .handle 0, .confirmed, .complete, .leave]
  have hinit : system.init (start []) := ⟨[], rfl⟩
  have hout : (execIf system Undisturbed (start []) as).map (fun s =>
      (s.timedOut, s.cur, s.slot.ptr)) = some ([0], 2, none) := by
    decide +kernel
  obtain ⟨s, hs, hout⟩ := Option.map_eq_some_iff.mp hout
  simp only [Prod.mk.injEq] at hout
  obtain ⟨hto, hcur, hptr⟩ := hout
  have hr := Reach.of_execIf (.init hinit) hs
  refine ⟨s, hr, hto, hcur, (transmitted_once hr).once 1 ?_ ?_ ?_⟩
  · exact Or.inl (by rw [hcur]; decide)
  · rw [hto]
    decide
  · rw [hptr]
    decide

/-- **A timeout in the wrong moment stops the driver**: the sender gives up between the test of
`wsm_cmd.ptr` and the locked section of `wsm_get_tx`. -/
theorem timeout_in_hand : ∃ s, Reach system (fun _ _ => True) s ∧ ¬ Exact s := by
  let as := submits 0x000c ++ [.test false, .timeout, .giveUp, .get]
  have hinit : system.init (start []) := ⟨[], rfl⟩
  have hout : (exec system (start []) as).map (fun s => s.bug) = some (some .getTx) := by
    decide +kernel
  obtain ⟨s, hs, hbug⟩ := Option.map_eq_some_iff.mp hout
  exact ⟨s, Reach.of_exec (.init hinit) hs, fun h => h.noBug.2 hbug⟩

end Atbm6441.Wsm.Cmd
