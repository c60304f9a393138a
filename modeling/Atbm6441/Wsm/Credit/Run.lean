import Atbm6441.Lib.Credit
import Atbm6441.Wsm.Credit.Model
import Mathlib.Data.Int.Init

/-!
# The credits over whole runs

The driver and the device are a sender and a receiver with credits (`Refines`), whose counters the
code keeps modulo 2^32. `credit_safe` : however the steps interleave, no more messages are
outstanding than the device has buffers for, and no `BUG_ON` on the counters is reached.
-/

namespace Atbm6441.Wsm.Credit

open Atbm6441.Lib

/-- What the driver may rely on. -/
structure Safe (s : State) : Prop where
  delivered_le : s.delivered ≤ s.sent
  consumed_le : s.consumed ≤ s.delivered
  /-- the messages counted and not yet consumed -/
  outstanding : s.sent ≤ s.consumed + s.hw.numInpChBufs.toNat
  free_nonneg : 0 ≤ s.hw.hwBufsFree.toInt
  free_le : s.hw.hwBufsFree.toInt + (s.sent - s.consumed : ℕ) ≤ s.hw.numInpChBufs.toNat
  noBug : s.hw.bug = false

/-! ### The counters of the driver -/

/-- The driver's counters are those of a sender with credits, modulo 2^32. -/
structure Counters (h : HwPriv) (c : Credit) : Prop where
  cap : c.cap = h.numInpChBufs.toNat
  nXmits : h.nXmits = BitVec.ofNat 32 c.sent
  hwXmits : h.hwXmits = BitVec.ofNat 32 (c.cap + c.seen)
  hwBufsFree : h.hwBufsFree = BitVec.ofNat 32 c.free
  noBug : h.bug = false

variable {h : HwPriv} {c : Credit}

theorem Counters.congr {c' : Credit} (hc : Counters h c) (hcap : c'.cap = c.cap)
    (hgranted : c'.granted = c.granted) (hseen : c'.seen = c.seen) (hsent : c'.sent = c.sent) :
    Counters h c' := by
  obtain ⟨hcap', hnXmits, hhwXmits, hfree, hbug⟩ := hc
  refine ⟨hcap.trans hcap', ?_, ?_, ?_, hbug⟩
  · rw [hsent, hnXmits]
  · rw [hcap, hseen, hhwXmits]
  · rw [hfree, Credit.free, Credit.free, hcap, hgranted, hsent]

theorem Counters.cap_lt (hc : Counters h c) : c.cap < 65536 := by
  rw [hc.cap]
  exact h.numInpChBufs.isLt

theorem Counters.free_lt (hc : Counters h c) (ho : c.Ok) : c.free < 65536 := by
  have := hc.cap_lt
  have := ho.free_add_le
  omega

theorem ofNat_toInt {n : ℕ} (hn : n < 0x80000000) : (BitVec.ofNat 32 n).toInt = n := by
  rw [BitVec.toInt_ofNat', Int.bmod_def]
  omega

theorem Counters.enough_one (hc : Counters h c) (ho : c.Ok) : h.enough 1 = decide (0 < c.free) := by
  have := hc.free_lt ho
  unfold HwPriv.enough
  rw [hc.hwBufsFree, BitVec.ule, BitVec.toNat_ofNat, Nat.mod_eq_of_lt (by omega)]
  exact decide_eq_decide.mpr Iff.rfl

/-- **`hw_xmits - n_xmits`** is what may be sent once the last event is taken up, however often the
two counters have wrapped. -/
theorem Counters.sub_eq (hc : Counters h c) (ho : c.Ok) :
    h.hwXmits - h.nXmits = BitVec.ofNat 32 c.refresh.free := by
  have hle : c.sent ≤ c.cap + c.seen := ho.refresh.sent_le
  rw [hc.hwXmits, hc.nXmits]
  apply BitVec.eq_of_toNat_eq
  rw [BitVec.toNat_sub, BitVec.toNat_ofNat, BitVec.toNat_ofNat, BitVec.toNat_ofNat]
  show _ = (c.cap + c.seen - c.sent) % 2 ^ 32
  omega

/-- **`atbm_sdio_have_enough_space`** leaves the credits as they are or takes up the last event, and
finds out whether a message may be sent. -/
theorem haveEnough_spec (hc : Counters h c) (ho : c.Ok) :
    ∃ c', (c' = c ∨ c' = c.refresh) ∧ Counters (atbmSdioHaveEnoughSpace h 1).2 c' ∧
      (atbmSdioHaveEnoughSpace h 1).1 = decide (0 < c'.free) := by
  unfold atbmSdioHaveEnoughSpace
  rw [hc.enough_one ho]
  by_cases hfree : 0 < c.free
  · rw [if_pos (decide_eq_true hfree)]
    exact ⟨c, Or.inl rfl, hc, (decide_eq_true hfree).symm⟩
  · rw [if_neg (by simpa using hfree)]
    have hsub := hc.sub_eq ho
    have hcap := hc.cap_lt
    have hadd := ho.refresh.free_add_le
    -- the difference is at most the number of buffers
    have hle : (h.numInpChBufs.zeroExtend 32).slt (h.hwXmits - h.nXmits) = false := by
      have hN := h.numInpChBufs.isLt
      have hle' : c.refresh.free ≤ c.cap := by
        have : c.refresh.cap = c.cap := rfl
        omega
      rw [hsub, BitVec.slt_eq_decide, decide_eq_false_iff_not, ofNat_toInt (by omega)]
      rw [show h.numInpChBufs.zeroExtend 32 = BitVec.ofNat 32 h.numInpChBufs.toNat from
        BitVec.eq_of_toNat_eq (by simp), ofNat_toInt (by omega), ← hc.cap]
      omega
    have hcounters : Counters { h with
        bug := h.bug || (h.numInpChBufs.zeroExtend 32).slt (h.hwXmits - h.nXmits)
        hwBufsFree := h.hwXmits - h.nXmits
        hwBufsFreeInit := h.hwXmits - h.nXmits } c.refresh :=
      ⟨hc.cap, hc.nXmits, hc.hwXmits, hsub, by rw [hle, hc.noBug]; rfl⟩
    exact ⟨c.refresh, Or.inr rfl, hcounters, hcounters.enough_one ho.refresh⟩

/-- **A message is counted** when one may be sent. -/
theorem count_spec (hc : Counters h c) (ho : c.Ok) (hfree : 0 < c.free) :
    Counters h.count c.send := by
  have hlt := hc.free_lt ho
  have hint : h.hwBufsFree.toInt = c.free := by rw [hc.hwBufsFree, ofNat_toInt (by omega)]
  have hsend : c.send.free = c.free - 1 := by
    show c.cap + c.granted - (c.sent + 1) = c.cap + c.granted - c.sent - 1
    omega
  have hdec : h.hwBufsFree - 1 = BitVec.ofNat 32 c.send.free := by
    rw [hc.hwBufsFree, hsend]
    apply BitVec.eq_of_toNat_eq
    rw [BitVec.toNat_sub, BitVec.toNat_ofNat, BitVec.toNat_ofNat]
    show (2 ^ 32 - 1 + c.free % 2 ^ 32) % 2 ^ 32 = _
    omega
  have hpos : h.hwBufsFree.sle 0 = false := by
    rw [BitVec.sle_eq_decide, decide_eq_false_iff_not, hint]
    show ¬ (c.free : ℤ) ≤ 0
    omega
  have hnonneg : (h.hwBufsFree - 1).slt 0 = false := by
    rw [BitVec.slt_eq_decide, decide_eq_false_iff_not, hdec, ofNat_toInt (by omega)]
    show ¬ (c.send.free : ℤ) < 0
    omega
  refine ⟨hc.cap, ?_, hc.hwXmits, hdec, ?_⟩
  · show h.nXmits + 1 = BitVec.ofNat 32 (c.sent + 1)
    rw [hc.nXmits, BitVec.ofNat_add]
    rfl
  · show ((h.bug || h.hwBufsFree.sle 0) || (h.hwBufsFree - 1).slt 0) = false
    rw [hc.noBug, hpos, hnonneg]
    rfl

/-! ### Steps -/

/-- **The driver and the device are a sender and a receiver with credits**; what is in the transfer
buffer has been counted, and a message is got only when it may be sent. -/
structure Refines (s : State) (c : Credit) : Prop where
  counters : Counters s.hw c
  ok : c.Ok
  sent : s.sent = c.sent
  delivered : s.delivered = c.delivered
  consumed : s.consumed = c.consumed
  events : s.events = c.pending.map fun k => BitVec.ofNat 32 (c.cap + k)
  buffered : c.delivered + s.pc.buffered ≤ c.sent
  mayCount : ∀ n, s.pc = .get n ∨ s.pc = .count n → 0 < c.free

theorem refines_init {s : State} (hs : system.init s) : ∃ c, Refines s c := by
  obtain ⟨n, rfl⟩ := hs
  have hn : n.zeroExtend 32 = BitVec.ofNat 32 n.toNat := BitVec.eq_of_toNat_eq (by simp)
  exact ⟨⟨n.toNat, 0, 0, [], 0, 0, 0⟩, ⟨rfl, rfl, hn, hn, rfl⟩, Credit.ok_start _, rfl, rfl, rfl,
    rfl, Nat.le_refl 0, fun _ h => by rcases h with h | h <;> cases h⟩

section

variable {pc pc' : TxPc} {hw hw' : HwPriv} {sent delivered consumed : ℕ}
  {events : List (BitVec 32)}

/-- The bottom half moves on without touching the credits. -/
theorem Refines.goto (h : Refines ⟨pc, hw, sent, delivered, consumed, events⟩ c)
    (hbuf : pc'.buffered ≤ pc.buffered)
    (hget : ∀ n, pc' = .get n ∨ pc' = .count n → 0 < c.free) :
    Refines ⟨pc', hw, sent, delivered, consumed, events⟩ c :=
  ⟨h.counters, h.ok, h.sent, h.delivered, h.consumed, h.events,
    Nat.le_trans (Nat.add_le_add_left hbuf _) h.buffered, hget⟩

theorem Refines.haveEnough (h : Refines ⟨pc, hw, sent, delivered, consumed, events⟩ c)
    (hbuf : pc'.buffered ≤ pc.buffered)
    (hget : ∀ n, pc' = .get n ∨ pc' = .count n → (atbmSdioHaveEnoughSpace hw 1).1 = true) :
    ∃ c', Refines
      ⟨pc', (atbmSdioHaveEnoughSpace hw 1).2, sent, delivered, consumed, events⟩ c' := by
  obtain ⟨c', hc', hcounters, henough⟩ := haveEnough_spec h.counters h.ok
  have hmay : ∀ n, pc' = .get n ∨ pc' = .count n → 0 < c'.free := fun n hn =>
    of_decide_eq_true (henough.symm.trans (hget n hn))
  have hle : c.delivered + pc'.buffered ≤ c.sent :=
    Nat.le_trans (Nat.add_le_add_left hbuf _) h.buffered
  rcases hc' with rfl | rfl
  · exact ⟨_, hcounters, h.ok, h.sent, h.delivered, h.consumed, h.events, hle, hmay⟩
  · exact ⟨_, hcounters, h.ok.refresh, h.sent, h.delivered, h.consumed, h.events, hle, hmay⟩

theorem Refines.arrive (h : Refines ⟨pc, hw, sent, delivered, consumed, events⟩ c) {n : ℕ}
    (hn : n ≤ pc.buffered) (hbuf : pc'.buffered = 0) (hget : ∀ n, pc' ≠ .get n ∧ pc' ≠ .count n) :
    Refines ⟨pc', hw, sent, delivered + n, consumed, events⟩ (c.deliver n) := by
  have hle : c.delivered + n ≤ c.sent := Nat.le_trans (Nat.add_le_add_left hn _) h.buffered
  refine ⟨h.counters.congr rfl rfl rfl rfl, h.ok.deliver hle, h.sent, congrArg (· + n) h.delivered,
    h.consumed, h.events, ?_, fun k hk => ?_⟩
  · rw [hbuf]
    exact hle
  · rcases hk with hk | hk
    · exact absurd hk (hget k).1
    · exact absurd hk (hget k).2

theorem Refines.count {n : ℕ} (h : Refines ⟨.count n, hw, sent, delivered, consumed, events⟩ c)
    (hbuf : pc'.buffered = n + 1) (hget : ∀ k, pc' ≠ .get k ∧ pc' ≠ .count k) :
    Refines ⟨pc', hw.count, sent + 1, delivered, consumed, events⟩ c.send := by
  have hfree := h.mayCount n (Or.inr rfl)
  refine ⟨count_spec h.counters h.ok hfree, h.ok.send hfree, congrArg (· + 1) h.sent,
    h.delivered, h.consumed, h.events, ?_, fun k hk => ?_⟩
  · show c.delivered + pc'.buffered ≤ c.sent + 1
    rw [hbuf]
    exact Nat.succ_le_succ h.buffered
  · rcases hk with hk | hk
    · exact absurd hk (hget k).1
    · exact absurd hk (hget k).2

theorem Refines.announce (h : Refines ⟨pc, hw, sent, delivered, consumed, events⟩ c) :
    Refines ⟨pc, hw, sent, delivered, consumed,
      events ++ [hw.numInpChBufs.zeroExtend 32 + BitVec.ofNat 32 consumed]⟩ c.announce := by
  have hcap : hw.numInpChBufs.zeroExtend 32 = BitVec.ofNat 32 c.cap := by
    rw [h.counters.cap]
    exact BitVec.eq_of_toNat_eq (by simp)
  refine ⟨h.counters.congr rfl rfl rfl rfl, h.ok.announce, h.sent, h.delivered, h.consumed, ?_,
    h.buffered, h.mayCount⟩
  show events ++ [_] = (c.pending ++ [c.consumed]).map fun k => BitVec.ofNat 32 (c.cap + k)
  rw [List.map_append, ← h.events, hcap, ← BitVec.ofNat_add, ← h.consumed]
  rfl

theorem Refines.pending {e : BitVec 32}
    (h : Refines ⟨pc, hw, sent, delivered, consumed, e :: events⟩ c) :
    ∃ k ks, c.pending = k :: ks ∧ e = BitVec.ofNat 32 (c.cap + k) ∧
      events = ks.map fun k => BitVec.ofNat 32 (c.cap + k) := by
  obtain ⟨k, ks, hp, he, hes⟩ := List.map_eq_cons_iff.mp h.events.symm
  exact ⟨k, ks, hp, he.symm, hes.symm⟩

end

/-- **Every step** of the driver or the device is one of the sender or the receiver. -/
theorem refines_step {s t : State} {a : Act} (h : Refines s c) (ht : s.step a = some t) :
    ∃ c', Refines t c' := by
  obtain ⟨pc, hw, sent, delivered, consumed, events⟩ := s
  cases a with
  | start =>
    cases pc <;> cases ht
    exact ⟨c, h.goto (Nat.le_refl 0) (by simp)⟩
  | check =>
    cases pc <;> cases ht
    refine h.haveEnough ?_ fun k hk => ?_
    · split_ifs <;> simp [TxPc.buffered]
    · by_contra hno
      rw [if_neg hno] at hk
      split_ifs at hk <;> rcases hk with hk | hk <;> cases hk
  | get found =>
    cases pc <;> cases ht
    refine ⟨c, h.goto ?_ fun k _ => h.mayCount _ (Or.inl rfl)⟩
    split_ifs <;> simp [TxPc.buffered]
  | count more =>
    cases pc <;> cases ht
    refine ⟨c.send, h.count (by split_ifs <;> rfl) fun k => ?_⟩
    split_ifs <;> exact ⟨nofun, nofun⟩
  | write ok arrived =>
    cases pc <;> try cases ht
    next n enough =>
    have hno : ∀ b k, (if b = true then TxPc.check 0 else TxPc.waitTest) ≠ .get k ∧
        (if b = true then TxPc.check 0 else TxPc.waitTest) ≠ .count k := by
      intro b k
      split_ifs <;> simp
    rw [State.step] at ht
    dsimp only at ht
    by_cases hok : ok = true ∧ arrived = n
    · rw [if_pos hok] at ht
      cases ht
      exact ⟨_, h.arrive (Nat.le_refl n) (by split_ifs <;> rfl) (hno enough)⟩
    · rw [if_neg hok] at ht
      by_cases hfail : ¬ ok = true ∧ arrived ≤ n
      · rw [if_pos hfail] at ht
        cases ht
        exact ⟨_, h.arrive hfail.2 rfl fun k => ⟨nofun, nofun⟩⟩
      · rw [if_neg hfail] at ht
        cases ht
  | waitTest =>
    cases pc <;> cases ht
    refine ⟨c, h.goto ?_ fun k hk => ?_⟩
    · split_ifs <;> simp [TxPc.buffered]
    · split_ifs at hk <;> rcases hk with hk | hk <;> cases hk
  | poll timeout =>
    cases pc <;> cases ht
    refine h.haveEnough ?_ fun k hk => ?_
    · split_ifs <;> simp [TxPc.buffered]
    · split_ifs at hk <;> rcases hk with hk | hk <;> cases hk
  | consume =>
    rw [State.step] at ht
    split_ifs at ht with hlt
    cases ht
    rw [h.consumed, h.delivered] at hlt
    exact ⟨c.consume, h.counters.congr rfl rfl rfl rfl, h.ok.consume hlt, h.sent, h.delivered,
      congrArg (· + 1) h.consumed, h.events, h.buffered, h.mayCount⟩
  | announce =>
    cases ht
    exact ⟨c.announce, h.announce⟩
  | event ignored =>
    rcases events with _ | ⟨e, es⟩
    · cases ht
    obtain ⟨k, ks, hp, rfl, rfl⟩ := h.pending
    cases ignored <;> cases ht
    · exact ⟨c.read k ks, ⟨h.counters.cap, h.counters.nXmits, rfl, h.counters.hwBufsFree,
        h.counters.noBug⟩, h.ok.read hp, h.sent, h.delivered, h.consumed, rfl, h.buffered,
        h.mayCount⟩
    · exact ⟨c.skip ks, h.counters.congr rfl rfl rfl rfl, h.ok.skip hp, h.sent, h.delivered,
        h.consumed, rfl, h.buffered, h.mayCount⟩

theorem Refines.safe {s : State} (h : Refines s c) : Safe s := by
  have hint : s.hw.hwBufsFree.toInt = c.free := by
    have := h.counters.free_lt h.ok
    rw [h.counters.hwBufsFree, ofNat_toInt (by omega)]
  have hcap := h.counters.cap
  have hadd := h.ok.free_add_le
  refine ⟨?_, ?_, ?_, ?_, ?_, h.counters.noBug⟩
  · rw [h.delivered, h.sent]
    exact h.ok.delivered_le
  · rw [h.consumed, h.delivered]
    exact h.ok.consumed_le
  · rw [h.sent, h.consumed, ← hcap]
    exact h.ok.outstanding_le
  · rw [hint]
    exact Int.natCast_nonneg _
  · rw [hint, h.sent, h.consumed, ← hcap]
    omega

/-- **The credits are safe**: in every state reached after the startup indication no more messages
are outstanding than the device has buffers for, and no `BUG_ON` on the counters has been reached. -/
theorem credit_safe {s : State} (h : Reach system (fun _ _ => True) s) : Safe s := by
  have hinv : ∃ c, Refines s c := by
    refine Reach.inv (fun _ => refines_init) ?_ h
    rintro s a t ⟨c, hc⟩ - ht
    exact refines_step hc ht
  obtain ⟨c, hc⟩ := hinv
  exact hc.safe

/-- A device with one buffer: a message is sent and consumed, and its credit is used for the next. -/
theorem credit_safe_oneBuffer : ∃ s, Reach system (fun _ _ => True) s ∧ s.sent = 2 ∧
    s.consumed = 1 ∧ Safe s := by
  let s₀ : State := ⟨.idle, wsmStartupIndication 1, 0, 0, 0, []⟩
  let as : List Act := [.start, .check, .get true, .count true, .check, .write true 1, .waitTest,
    .poll false, .consume, .announce, .event false, .poll false, .check, .get true, .count false]
  have hinit : system.init s₀ := ⟨1, rfl⟩
  have hout : (exec system s₀ as).map (fun s => (s.sent, s.consumed)) = some (2, 1) := by
    decide
  obtain ⟨s, hs, hsent⟩ := Option.map_eq_some_iff.mp hout
  have hr := Reach.of_exec (.init hinit) hs
  exact ⟨s, hr, (Prod.mk.inj hsent).1, (Prod.mk.inj hsent).2, credit_safe hr⟩

end Atbm6441.Wsm.Credit
