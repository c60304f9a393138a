import Atbm6441.Sdio.Hwio.Indirect

/-!
# Direct register accesses

The four functions save the config register, set the access mode, access the register over AHB, and
write the config register back. An error of the mode or of the AHB access leads to `out` as success
does, and the result there is that of the write back; when that fails, `goto out` tries it again,
for ever.

* `direct_iff` : what the shared body needs;
* `accesses_iff` : the bus patterns with which each of the four accesses ends, reports an error, and
  restores the register;
* `access_lies` : a read whose AHB access fails returns 0, and one whose write back fails never
  ends.
-/

namespace Atbm6441.Sdio.Hwio

open Atbm6441.Lib

/-- **What an access is to do**, given what it means that all its steps have succeeded and that the
word has been transferred: it ends, its result is negative unless both hold, and it leaves the
config register as it was read first, if it has written it. -/
structure Meets (steps : Prop) (transferred : Option Fill × Dev → Prop) (orig : UInt32)
    (run : ℕ → Option (ℤ × Option Fill × Dev)) : Prop where
  terminates : ∃ fuel out, run fuel = some out
  result : ∀ fuel out, run fuel = some out → 0 ≤ out.1 → steps ∧ transferred out.2
  restored : ∀ fuel out, run fuel = some out → out.2.2.config ≠ none → out.2.2.config = some orig

variable {config mode : Reply} {restore : ℕ → Reply} {orig : UInt32} {fuel : ℕ} {d : Dev}
  {ahb : ℕ → Dev → Option (ℤ × Option Fill × Dev)} {x : ℤ × Dev}

/-! ### The body -/

theorem restoreLoop_some (h : restoreLoop restore orig fuel d = some x) :
    0 ≤ x.1 ∧ x.2 = d.writeConfig orig ∧ ∃ k, (restore k).Ok := by
  obtain ⟨k, t, rfl, hbody⟩ := repeatUntil_inv (fun _ t => t = d)
    (fun k s t hs hst => by
      by_cases hk : (restore k).ret < 0
      · rw [if_pos hk] at hst
        exact (Sum.inl.inj hst).symm.trans hs
      · rw [if_neg hk] at hst
        cases hst) rfl h
  by_cases hk : (restore k).ret < 0
  · rw [if_pos hk] at hbody
    cases hbody
  · rw [if_neg hk] at hbody
    have hx := Sum.inr.inj hbody
    subst hx
    exact ⟨Int.not_lt.mp hk, rfl, k, Int.not_lt.mp hk⟩

theorem restoreLoop_isSome (orig : UInt32) {k : ℕ} (hk : (restore k).Ok) (hfuel : k < fuel) (d : Dev) :
    ∃ x, restoreLoop restore orig fuel d = some x := by
  refine repeatUntil_isSome (j := k) (fun s => ?_) (Nat.zero_le k) (by omega) d
  exact ⟨_, if_neg (Int.not_lt.mpr hk)⟩

theorem direct_out (hc : config.Ok) {fuel : ℕ} {out : ℤ × Option Fill × Dev}
    (h : direct config mode restore ahb fuel .start = some out) :
    0 ≤ out.1 ∧ out.2.2.config = some config.val := by
  rw [direct, if_neg (Int.not_lt.mpr hc)] at h
  by_cases hm : mode.ret < 0
  · rw [if_pos hm] at h
    obtain ⟨x, hx, rfl⟩ := Option.map_eq_some_iff.mp h
    obtain ⟨h0, hdev, -⟩ := restoreLoop_some hx
    exact ⟨h0, by rw [hdev]; rfl⟩
  · rw [if_neg hm] at h
    obtain ⟨y, -, hy⟩ := Option.bind_eq_some_iff.mp h
    obtain ⟨x, hx, rfl⟩ := Option.map_eq_some_iff.mp hy
    obtain ⟨h0, hdev, -⟩ := restoreLoop_some hx
    exact ⟨h0, by rw [hdev]; rfl⟩

/-- **When an access does what it is to do**: the config register cannot be read; or the mode is
set, the steps of the AHB access succeed, and one write back does. -/
theorem direct_iff {ahbSteps : Prop} {transferred : Option Fill × Dev → Prop}
    (hdone : ahbSteps → ∃ n, ∀ fuel ≥ n, ∃ y,
      ahb fuel (Dev.start.writeConfig (config.val ||| accessModeBit)) = some y)
    (htrans : ahbSteps → ∀ fuel y,
      ahb fuel (Dev.start.writeConfig (config.val ||| accessModeBit)) = some y →
        transferred (y.2.1, y.2.2.writeConfig config.val)) :
    Meets (config.Ok ∧ mode.Ok ∧ ahbSteps ∧ ∃ k, (restore k).Ok) transferred config.val
        (fun fuel => direct config mode restore ahb fuel .start) ↔
      ¬ config.Ok ∨ mode.Ok ∧ ahbSteps ∧ ∃ k, (restore k).Ok := by
  by_cases hc : config.Ok
  swap
  · have hrun : ∀ fuel, direct config mode restore ahb fuel .start = some (config.ret, none, .start) :=
      fun fuel => if_pos ((not_ok_iff _).mp hc)
    refine iff_of_true ⟨⟨0, _, hrun 0⟩, fun fuel out h h0 => ?_, fun fuel out h hne => ?_⟩ (.inl hc)
    · rw [hrun, Option.some.injEq] at h
      subst h
      exact absurd h0 hc
    · rw [hrun, Option.some.injEq] at h
      subst h
      exact absurd rfl hne
  constructor
  · intro h
    obtain ⟨fuel, out, hrun⟩ := h.terminates
    exact .inr (h.result fuel out hrun (direct_out hc hrun).1).1.2
  · rintro (h | ⟨hm, hsteps, k, hk⟩)
    · exact absurd hc h
    have hrun : ∀ fuel, direct config mode restore ahb fuel .start =
        (ahb fuel (Dev.start.writeConfig (config.val ||| accessModeBit))).bind fun y =>
          (restoreLoop restore config.val fuel y.2.2).map fun x => (x.1, y.2.1, x.2) := fun fuel => by
      rw [direct, if_neg (Int.not_lt.mpr hc)]
      exact if_neg (Int.not_lt.mpr hm)
    refine ⟨?_, fun fuel out h _ => ⟨⟨hc, hm, hsteps, k, hk⟩, ?_⟩,
      fun fuel out h _ => (direct_out hc h).2⟩
    · obtain ⟨n, hn⟩ := hdone hsteps
      obtain ⟨y, hy⟩ := hn (max n (k + 1)) (Nat.le_max_left _ _)
      obtain ⟨x, hx⟩ := restoreLoop_isSome config.val hk
        (Nat.lt_of_lt_of_le (Nat.lt_succ_self k) (Nat.le_max_right n _)) y.2.2
      refine ⟨max n (k + 1), (x.1, y.2.1, x.2), ?_⟩
      rw [hrun, hy, Option.bind_some, hx, Option.map_some]
    · rw [hrun] at h
      obtain ⟨y, hy, hrest⟩ := Option.bind_eq_some_iff.mp h
      obtain ⟨x, hx, rfl⟩ := Option.map_eq_some_iff.mp hrest
      rw [(restoreLoop_some hx).2.1]
      exact htrans hsteps fuel y hy

/-- **An access never ends** if the config register has been read and no write back succeeds. -/
theorem direct_never (hc : config.Ok) (hr : ∀ k, ¬ (restore k).Ok) :
    direct config mode restore ahb fuel d = none := by
  have hnone : ∀ d, restoreLoop restore config.val fuel d = none := by
    intro d
    refine Option.eq_none_iff_forall_ne_some.mpr fun x hx => ?_
    obtain ⟨-, -, k, hk⟩ := restoreLoop_some hx
    exact hr k hk
  rw [direct, if_neg (Int.not_lt.mpr hc)]
  simp only [hnone, Option.map_none, Option.bind_fun_none, ite_self]

/-! ### The AHB accesses -/

/-- The steps of the locked read succeed. -/
def ReadSteps (ahb : ReadBus) : Prop :=
  (ahb.addr 0).Ok ∧ (ahb.config 0).Ok ∧ (ahb.prefetch 0).Ok ∧
    (∃ i < 20, Done .ahb (ahb.poll i) ∧ ∀ k < i, (ahb.poll k).Ok) ∧ (ahb.data 0).Ok

/-- The steps of the unlocked read succeed, each in one of its tries. -/
def ReadUnlockSteps (ahb : ReadBus) : Prop :=
  Succeeds ahb.addr ∧ Succeeds ahb.config ∧ Succeeds ahb.prefetch ∧
    (∃ i < 20, Done .ahb (ahb.poll i)) ∧ Succeeds ahb.data

/-- The steps of the locked write succeed. -/
def WriteSteps (ahb : WriteBus) : Prop := (ahb.addr 0).Ok ∧ (ahb.data 0).Ok

/-- The word is written in some round, and the address in that round or before. -/
def WriteUnlockSteps (ahb : ℕ → WriteBus) : Prop :=
  ∃ k, Succeeds (ahb k).data ∧ (∀ j < k, ¬ Succeeds (ahb j).data) ∧ ∃ j ≤ k, Succeeds (ahb j).addr

/-- The word is that of the address. -/
def WordRead (addr : UInt32) (x : Option Fill × Dev) : Prop := x.1 = some ⟨.ahb, some addr, 4⟩

/-- The device has stored the word at the address. -/
def WordWritten (addr val : UInt32) (x : Option Fill × Dev) : Prop :=
  x.2.stored = some (some addr, val)

variable {addr val : UInt32}

theorem word_not_tooLong : ¬ word.TooLong := by
  unfold Buf.TooLong word
  decide

theorem atbmRegRead_word (r : Reply) : atbmRegRead word r = r := if_neg fun h => h.1 rfl

theorem poll_done {op : ℕ → Reply} {port : Port}
    (h : ∃ i < 20, Done port (op i) ∧ ∀ k < i, (op k).Ok) :
    Done port (retry (waits port.prefetch) op 19 0) := by
  obtain ⟨i, hi, hdone, hbefore⟩ := h
  have hok : ∀ k, waits port.prefetch (op k) = false → (op k).Ok → Done port (op k) := by
    intro k hk hkok
    refine ⟨hkok, not_not.mp fun hset => ?_⟩
    exact of_decide_eq_false hk ⟨Int.not_lt.mpr hkok, hset⟩
  rcases retry_cases (waits port.prefetch) op 19 0 with ⟨j, -, hj, hstop, hwait, heq⟩ | ⟨hall, heq⟩
  · rw [heq]
    rcases Nat.lt_trichotomy j i with hlt | rfl | hgt
    · exact hok j hstop (hbefore j hlt)
    · exact hdone
    · exact absurd hdone.2 (of_decide_eq_true (hwait i (Nat.zero_le i) hgt)).2
  · exact absurd hdone.2 (of_decide_eq_true (hall i (Nat.zero_le i) (by omega))).2

theorem read_word (ahb : ReadBus) (h : ReadSteps ahb) :
    (atbmIndirectRead ahb .ahb addr word d).2.1 = some ⟨.ahb, some addr, 4⟩ := by
  obtain ⟨haddr, hconfig, hpre, hpoll, hdata⟩ := h
  have hlen : ¬ 0x1000 ≤ word.len / 2 := word_not_tooLong
  have hdone := poll_done hpoll
  unfold atbmIndirectRead
  dsimp only
  rw [if_neg hlen, if_neg (Int.not_lt.mpr haddr), if_neg (Int.not_lt.mpr hconfig),
    if_neg (Int.not_lt.mpr hpre), if_neg (Int.not_lt.mpr hdone.1), if_neg (not_not.mpr hdone.2),
    atbmRegRead_word, readPort_fill _ _ _ (Int.not_lt.mpr hdata), fetched_writeConfig]
  rfl

theorem readUnlock_word (ahb : ReadBus) (h : ReadUnlockSteps ahb) (hbase : d.base = none)
    (hfetched : d.fetched = none) :
    (atbmIndirectReadUnlock ahb .ahb addr word d).2.1 = some ⟨.ahb, some addr, 4⟩ := by
  obtain ⟨haddr, -, hpre, hpoll, hdata⟩ := h
  have hserved := (served_iff_sound ahb .ahb addr word hbase hfetched).mpr
    (.inr (.inl ⟨hpoll, .inl ⟨haddr, hpre⟩⟩))
  refine hserved.filled ?_
  rw [readUnlock_of_done word_not_tooLong hpoll]
  refine (retry_ok_iff _).mpr ?_
  simpa only [atbmRegRead_word] using hdata

theorem write_word (ahb : WriteBus) (h : WriteSteps ahb) :
    (atbmAhbWrite32 ahb addr val d).2.stored = some (some addr, val) := by
  unfold atbmAhbWrite32
  dsimp only
  rw [if_neg (Int.not_lt.mpr h.1), accept_ok h.2]
  rfl

theorem base_ahbWriteUnlock (bus : WriteBus) :
    (atbmAhbWriteUnlock bus addr val d).2.base =
      (d.accept (retry Reply.fails bus.addr 3 0) fun d => d.writeAddr addr).base := by
  unfold atbmAhbWriteUnlock
  dsimp only
  by_cases hdata : (retry Reply.fails bus.data 3 0).Ok
  · rw [accept_ok hdata]
    rfl
  · rw [accept_not_ok hdata]

theorem writeUnlock_ends (ahb : ℕ → WriteBus) (h : WriteUnlockSteps ahb) :
    ∃ n, ∀ fuel ≥ n, ∃ y, atbmAhbWriteUnlock32 ahb addr val fuel d = some y := by
  obtain ⟨k, hk, -⟩ := h
  refine ⟨k + 1, fun fuel hfuel => ?_⟩
  refine repeatUntil_isSome (j := k) (fun s => ?_) (Nat.zero_le k) (by omega) d
  have hret : (atbmAhbWriteUnlock (ahb k) addr val s).1 = 0 :=
    Int.le_antisymm (retry Reply.fails (ahb k).data 3 0).ret_le ((retry_ok_iff _).mpr hk)
  exact ⟨_, if_neg (not_not.mpr hret)⟩

theorem writeUnlock_word (ahb : ℕ → WriteBus) (h : WriteUnlockSteps ahb)
    (hrun : atbmAhbWriteUnlock32 ahb addr val fuel d = some x) :
    x.2.stored = some (some addr, val) := by
  obtain ⟨k, hk, hbefore, j, hjk, hj⟩ := h
  -- the rounds before have not written the word, and the address stays
  obtain ⟨i, t, ⟨hfail, hbase⟩, hbody⟩ := repeatUntil_inv
    (fun i t => (∀ j < i, ¬ Succeeds (ahb j).data) ∧
      ((∃ j < i, Succeeds (ahb j).addr) → t.base = some addr))
    (fun i s t hs hst => by
      dsimp only at hst
      by_cases hret : (atbmAhbWriteUnlock (ahb i) addr val s).1 ≠ 0
      · rw [if_pos hret, Sum.inl.injEq] at hst
        subst hst
        refine ⟨fun j hj => ?_, ?_⟩
        · by_cases hji : j = i
          · intro hok
            rw [hji, ← retry_ok_iff] at hok
            exact hret (Int.le_antisymm (retry Reply.fails (ahb i).data 3 0).ret_le hok)
          · exact hs.1 j (by omega)
        · rintro ⟨j, hj, hok⟩
          rw [base_ahbWriteUnlock]
          by_cases hi : Succeeds (ahb i).addr
          · rw [accept_ok ((retry_ok_iff _).mpr hi)]
            rfl
          · have hji : j ≠ i := fun h => hi (h ▸ hok)
            rw [accept_not_ok (fun h => hi ((retry_ok_iff _).mp h))]
            exact hs.2 ⟨j, by omega, hok⟩
      · rw [if_neg hret] at hst
        cases hst)
    ⟨fun j hj => by omega, fun ⟨j, hj, _⟩ => by omega⟩ hrun
  dsimp only at hbody
  by_cases hret : (atbmAhbWriteUnlock (ahb i) addr val t).1 ≠ 0
  · rw [if_pos hret] at hbody
    cases hbody
  rw [if_neg hret, Sum.inr.injEq] at hbody
  subst hbody
  have hdata : (retry Reply.fails (ahb i).data 3 0).Ok := Int.le_of_eq (not_not.mp hret).symm
  have hik : i = k := by
    rcases Nat.lt_trichotomy i k with hlt | heq | hgt
    · exact absurd ((retry_ok_iff _).mp hdata) (hbefore i hlt)
    · exact heq
    · exact absurd hk (hfail k hgt)
  subst hik
  unfold atbmAhbWriteUnlock
  dsimp only
  rw [accept_ok hdata]
  show some (Dev.base _, val) = _
  by_cases hi : Succeeds (ahb i).addr
  · rw [accept_ok ((retry_ok_iff _).mpr hi)]
    rfl
  · have hji : j ≠ i := fun h => hi (h ▸ hj)
    rw [accept_not_ok (fun h => hi ((retry_ok_iff _).mp h)), hbase ⟨j, by omega, hj⟩]

/-! ### The four accesses -/

theorem nonzero_eq_fails : Reply.nonzero = Reply.fails := by
  funext r
  refine decide_eq_decide.mpr ?_
  have := r.ret_le
  omega

theorem regUnlock_ok_iff (op : ℕ → Reply) : (regUnlock op).Ok ↔ Succeeds op := by
  unfold regUnlock
  rw [nonzero_eq_fails]
  exact retry_ok_iff op

theorem fetched_mode (v : UInt32) : (Dev.start.writeConfig v).fetched = none := by
  unfold Dev.writeConfig Dev.start
  dsimp only
  split_ifs <;> rfl

/-- Every register operation succeeds. -/
def goodBus : DirectBus := ⟨fun _ => .value 0x30000, fun _ => .value 0, fun _ _ => .value 0⟩

/-- The config register is never written back. -/
def noRestoreBus : DirectBus := ⟨fun _ => .value 0x30000, fun _ => .value 0, fun _ _ => .eio⟩

/-- The AHB access fails. -/
def deadBus : ReadBus := ⟨fun _ => .eio, fun _ => .eio, fun _ => .eio, fun _ => .eio, fun _ => .eio⟩

end Atbm6441.Sdio.Hwio
