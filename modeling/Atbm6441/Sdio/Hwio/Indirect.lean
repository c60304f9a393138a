import Atbm6441.Sdio.Hwio.Model

/-!
# Indirect reads

An indirect read is served if it fills the buffer with the data at the address, or returns an error,
and returns one when the address cannot be written or the prefetch does not complete (`Served`).

The locked read misses that in one way: the bit is still set in the last poll, and the result is
that of the poll, which has succeeded. The unlocked one goes on after any step that has failed four
times.

* `served_iff` : the bus patterns with which the locked read is served, and those with which the
  unlocked read is;
* `unserved` : a prefetch that never completes, and an address that is never written, both with
  result 0.
-/

namespace Atbm6441.Sdio.Hwio

open Atbm6441.Lib

/-- The port has the data: a poll that succeeds shows the bit cleared. -/
def Done (port : Port) (r : Reply) : Prop := r.Ok ∧ r.val &&& port.prefetch = 0

instance (port : Port) (r : Reply) : Decidable (Done port r) := inferInstanceAs (Decidable (_ ∧ _))

/-- **What a read is to do**, with its result and what it has put into the buffer. -/
structure Served (bus : ReadBus) (port : Port) (addr : UInt32) (buf : Buf) (tries : ℕ)
    (out : ℤ × Option Fill × Dev) : Prop where
  filled : 0 ≤ out.1 → out.2.1 = some ⟨port, some addr, buf.len⟩
  address : (∀ i < tries, ¬ (bus.addr i).Ok) → out.1 < 0
  completes : (∀ i < 20, ¬ Done port (bus.poll i)) → out.1 < 0

/-- The length that both reads refuse. -/
def Buf.TooLong (buf : Buf) : Prop := 0x1000 ≤ buf.len / 2

/-- The bus pattern with which the locked read goes wrong: everything succeeds, and the bit stays
set. -/
def Exhausted (bus : ReadBus) (port : Port) (buf : Buf) : Prop :=
  ¬ buf.TooLong ∧ (bus.addr 0).Ok ∧ (bus.config 0).Ok ∧ (bus.prefetch 0).Ok ∧
    ∀ i < 20, (bus.poll i).Ok ∧ (bus.poll i).val &&& port.prefetch ≠ 0

/-- One of four tries succeeds. -/
def Succeeds (op : ℕ → Reply) : Prop := ∃ i < 4, (op i).Ok

/-- The bit has been seen set: in a poll, or in the config register as it has been read first. -/
def SeenSet (bus : ReadBus) (port : Port) : Prop :=
  (∃ i < 20, (bus.poll i).Ok) ∨
    (∃ j < 4, (bus.config j).Ok ∧ (∀ k < j, ¬ (bus.config k).Ok) ∧
      (bus.config j).val &&& port.prefetch ≠ 0)

/-- The port is read in one of four tries. -/
def DataRead (bus : ReadBus) (buf : Buf) : Prop := Succeeds fun i => atbmRegRead buf (bus.data i)

/-- **The condition of the unlocked read.** If the prefetch completes, the address and the prefetch
bit have been written, or the port cannot be read; if not, the port cannot be read either, or the
bit has been seen set and the last poll fails. -/
def Sound (bus : ReadBus) (port : Port) (buf : Buf) : Prop :=
  buf.TooLong ∨
  ((∃ i < 20, Done port (bus.poll i)) ∧
    (Succeeds bus.addr ∧ Succeeds bus.prefetch ∨ ¬ DataRead bus buf)) ∨
  ((∀ i < 20, ¬ Done port (bus.poll i)) ∧
    (SeenSet bus port ∧ ¬ (bus.poll 19).Ok ∨ ¬ SeenSet bus port ∧ ¬ DataRead bus buf))

variable {bus : ReadBus} {port : Port} {addr : UInt32} {buf : Buf} {d : Dev} {op : ℕ → Reply}

/-! ### The device -/

theorem or_and_distrib (c p m : UInt32) : (c ||| p) &&& m = (c &&& m) ||| (p &&& m) := by
  apply UInt32.toBitVec_inj.mp
  ext i hi
  simp [Bool.and_or_distrib_right]

/-- A prefetch bit starts a prefetch, whatever else is written. -/
theorem fetched_writeConfig (d : Dev) (c : UInt32) (port : Port) :
    (d.writeConfig (c ||| port.prefetch)).fetched = d.base := by
  refine if_pos fun h => ?_
  rw [or_and_distrib, UInt32.or_eq_zero_iff] at h
  cases port <;> exact absurd h.2 (by decide)

theorem fails_iff (r : Reply) : r.fails = false ↔ r.Ok := by
  unfold Reply.fails Reply.Ok
  rw [decide_eq_false_iff_not, Int.not_lt]

theorem not_ok_iff (r : Reply) : ¬ r.Ok ↔ r.ret < 0 := Int.not_le

theorem retry_ok_iff (op : ℕ → Reply) : (retry Reply.fails op 3 0).Ok ↔ Succeeds op := by
  rw [← fails_iff, retry_iff]
  exact exists_congr fun j => and_congr_right fun _ => fails_iff _

theorem retry_neg_iff (op : ℕ → Reply) : (retry Reply.fails op 3 0).ret < 0 ↔ ¬ Succeeds op := by
  rw [← retry_ok_iff, not_ok_iff]

theorem accept_ok {r : Reply} (h : r.Ok) (f : Dev → Dev) : d.accept r f = f d :=
  if_neg (Int.not_lt.mpr h)

theorem accept_not_ok {r : Reply} (h : ¬ r.Ok) (f : Dev → Dev) : d.accept r f = d :=
  if_pos (Int.not_le.mp h)

theorem readPort_fill (d : Dev) (port : Port) (buf : Buf) {r : Reply} (h : ¬ r.ret < 0) :
    (d.readPort port buf r).2.1 = some ⟨port, d.fetched, buf.len⟩ := if_neg h

/-! ### The locked read -/

theorem poll_cases (op : ℕ → Reply) (port : Port) :
    ((retry (waits port.prefetch) op 19 0).ret < 0 ∧ ∃ i < 20, ¬ (op i).Ok) ∨
    (Done port (retry (waits port.prefetch) op 19 0) ∧ ∃ i < 20, Done port (op i)) ∨
    ((retry (waits port.prefetch) op 19 0).Ok ∧
      (retry (waits port.prefetch) op 19 0).val &&& port.prefetch ≠ 0 ∧
      ∀ i < 20, (op i).Ok ∧ (op i).val &&& port.prefetch ≠ 0) := by
  have hwaits : ∀ i, waits port.prefetch (op i) = true ↔
      (op i).Ok ∧ (op i).val &&& port.prefetch ≠ 0 := fun i => by
    unfold waits Reply.Ok
    rw [decide_eq_true_iff, Int.not_lt]
  rcases retry_cases (waits port.prefetch) op 19 0 with ⟨j, -, hj, hstop, -, heq⟩ | ⟨hall, heq⟩
  · rw [heq]
    by_cases hok : (op j).Ok
    · have hdone : Done port (op j) := by
        refine ⟨hok, not_not.mp fun hset => ?_⟩
        rw [(hwaits j).mpr ⟨hok, hset⟩] at hstop
        cases hstop
      exact .inr (.inl ⟨hdone, j, by omega, hdone⟩)
    · exact .inl ⟨(not_ok_iff _).mp hok, j, by omega, hok⟩
  · rw [heq]
    have hset : ∀ i < 20, (op i).Ok ∧ (op i).val &&& port.prefetch ≠ 0 := fun i hi =>
      (hwaits i).mp (hall i (Nat.zero_le i) (by omega))
    exact .inr (.inr ⟨(hset 19 (by omega)).1, (hset 19 (by omega)).2, hset⟩)

theorem served_of_neg {out : ℤ × Option Fill × Dev} {tries : ℕ} (h : out.1 < 0) :
    Served bus port addr buf tries out :=
  ⟨fun h0 => absurd h (Int.not_lt.mpr h0), fun _ => h, fun _ => h⟩

theorem served_iff_not_exhausted (bus : ReadBus) (port : Port) (addr : UInt32) (buf : Buf) (d : Dev) :
    Served bus port addr buf 1 (atbmIndirectRead bus port addr buf d) ↔
      ¬ Exhausted bus port buf := by
  unfold atbmIndirectRead
  by_cases hlen : 0x1000 ≤ buf.len / 2
  · rw [if_pos hlen]
    exact iff_of_true (served_of_neg (by decide : -einval < 0)) fun h => h.1 hlen
  rw [if_neg hlen]
  by_cases haddr : (bus.addr 0).ret < 0
  · rw [if_pos haddr]
    exact iff_of_true (served_of_neg haddr) fun h => Int.not_lt.mpr h.2.1 haddr
  rw [if_neg haddr]
  by_cases hconfig : (bus.config 0).ret < 0
  · dsimp only
    rw [if_pos hconfig]
    exact iff_of_true (served_of_neg hconfig) fun h => Int.not_lt.mpr h.2.2.1 hconfig
  dsimp only
  rw [if_neg hconfig]
  by_cases hpre : (bus.prefetch 0).ret < 0
  · rw [if_pos hpre]
    exact iff_of_true (served_of_neg hpre) fun h => Int.not_lt.mpr h.2.2.2.1 hpre
  rw [if_neg hpre]
  rcases poll_cases bus.poll port with ⟨hneg, i, hi, hfail⟩ | ⟨hdone, i, hi, hdonei⟩ |
    ⟨hok, hset, hall⟩
  · rw [if_pos hneg]
    exact iff_of_true (served_of_neg hneg) fun h => hfail (h.2.2.2.2 i hi).1
  · rw [if_neg (Int.not_lt.mpr hdone.1), if_neg (not_not.mpr hdone.2)]
    refine iff_of_true ⟨fun h0 => ?_, fun h => ?_, fun h => ?_⟩ fun h =>
      (h.2.2.2.2 i hi).2 hdonei.2
    · -- the port is read, and has the data
      have hdata : ¬ (atbmRegRead buf (bus.data 0)).ret < 0 := Int.not_lt.mpr h0
      rw [readPort_fill _ _ _ hdata, fetched_writeConfig]
      rfl
    · exact absurd (Int.not_lt.mp haddr) (h 0 (by omega))
    · exact absurd hdonei (h i hi)
  · rw [if_neg (Int.not_lt.mpr hok), if_pos hset]
    refine iff_of_false (fun h => ?_) (not_not.mpr ⟨hlen, Int.not_lt.mp haddr, Int.not_lt.mp hconfig,
      Int.not_lt.mp hpre, hall⟩)
    have hnone := h.filled hok
    exact absurd hnone (Option.some_ne_none _).symm

/-! ### The unlocked read -/

theorem pollUnlock_done {n i : ℕ} {x : ℤ × UInt32}
    (h : ∃ j, i ≤ j ∧ j < i + n ∧ Done port (op j)) :
    0 ≤ (pollUnlock op port.prefetch n i x).1 ∧
      (pollUnlock op port.prefetch n i x).2 &&& port.prefetch = 0 := by
  induction n generalizing i x with
  | zero =>
    obtain ⟨j, hij, hj, -⟩ := h
    omega
  | succ n ih =>
    have hnext : ¬ Done port (op i) → ∃ j, i + 1 ≤ j ∧ j < i + 1 + n ∧ Done port (op j) := by
      intro hi
      obtain ⟨j, hij, hj, hd⟩ := h
      have hne : j ≠ i := fun hji => hi (hji ▸ hd)
      exact ⟨j, by omega, by omega, hd⟩
    rw [pollUnlock]
    by_cases hret : (op i).ret < 0
    · rw [if_pos hret]
      exact ih (hnext fun hd => Int.not_lt.mpr hd.1 hret)
    · rw [if_neg hret]
      by_cases hclear : (op i).val &&& port.prefetch = 0
      · rw [if_pos hclear]
        exact ⟨Int.not_lt.mp hret, hclear⟩
      · rw [if_neg hclear]
        exact ih (hnext fun hd => hclear hd.2)

theorem pollUnlock_not_done (op : ℕ → Reply) (port : Port) {n i : ℕ} {x : ℤ × UInt32}
    (h : ∀ j, i ≤ j → j < i + n → ¬ Done port (op j)) :
    (pollUnlock op port.prefetch n i x).1 = (if n = 0 then x.1 else (op (i + n - 1)).ret) ∧
      ((pollUnlock op port.prefetch n i x).2 &&& port.prefetch ≠ 0 ↔
        (∃ j, i ≤ j ∧ j < i + n ∧ (op j).Ok) ∨ x.2 &&& port.prefetch ≠ 0) := by
  induction n generalizing i x with
  | zero =>
    have hnone : ¬ ∃ j, i ≤ j ∧ j < i + 0 ∧ (op j).Ok := by
      rintro ⟨j, hij, hj, -⟩
      omega
    exact ⟨rfl, (or_iff_right hnone).symm⟩
  | succ n ih =>
    have hret : ∀ y : ℤ × UInt32, y.1 = (op i).ret →
        (if n = 0 then y.1 else (op (i + 1 + n - 1)).ret) =
          if n + 1 = 0 then x.1 else (op (i + (n + 1) - 1)).ret := by
      intro y hy
      rw [if_neg (Nat.succ_ne_zero n)]
      by_cases hn : n = 0
      · rw [if_pos hn, hy, hn]
        rfl
      · rw [if_neg hn]
        congr 2
        omega
    have hih := fun y => ih (i := i + 1) (x := y) fun j hij hj => h j (by omega) (by omega)
    rw [pollUnlock]
    by_cases hneg : (op i).ret < 0
    · rw [if_pos hneg]
      obtain ⟨h1, h2⟩ := hih ((op i).ret, x.2)
      refine ⟨h1.trans (hret _ rfl), h2.trans (or_congr_left ⟨?_, ?_⟩)⟩
      · rintro ⟨j, hij, hj, hok⟩
        exact ⟨j, by omega, by omega, hok⟩
      · rintro ⟨j, hij, hj, hok⟩
        have hne : j ≠ i := fun hji => Int.not_lt.mpr (hji ▸ hok) hneg
        exact ⟨j, by omega, by omega, hok⟩
    · have hset : (op i).val &&& port.prefetch ≠ 0 := fun hclear =>
        h i (Nat.le_refl i) (by omega) ⟨Int.not_lt.mp hneg, hclear⟩
      rw [if_neg hneg, if_neg hset]
      obtain ⟨h1, h2⟩ := hih ((op i).ret, (op i).val)
      refine ⟨h1.trans (hret _ rfl), iff_of_true (h2.mpr (.inr hset)) (.inl ?_)⟩
      exact ⟨i, Nat.le_refl i, by omega, Int.not_lt.mp hneg⟩

theorem config_set_iff (op : ℕ → Reply) (port : Port) :
    (if (retry Reply.fails op 3 0).ret < 0 then 0 else (retry Reply.fails op 3 0).val) &&&
        port.prefetch ≠ 0 ↔
      ∃ j < 4, (op j).Ok ∧ (∀ k < j, ¬ (op k).Ok) ∧ (op j).val &&& port.prefetch ≠ 0 := by
  have hfails : ∀ k, (op k).fails = true → ¬ (op k).Ok := fun k hk hok => by
    rw [(fails_iff _).mpr hok] at hk
    cases hk
  rcases retry_cases Reply.fails op 3 0 with ⟨j, -, hj, hstop, hbefore, heq⟩ | ⟨hall, heq⟩
  · have hok : (op j).Ok := (fails_iff _).mp hstop
    rw [heq, if_neg (Int.not_lt.mpr hok)]
    refine ⟨fun hset => ⟨j, by omega, hok, fun k hk => hfails k (hbefore k (by omega) hk), hset⟩, ?_⟩
    rintro ⟨k, hk, hkok, hkbefore, hset⟩
    have hkj : k = j := by
      rcases Nat.lt_trichotomy k j with hlt | heq | hgt
      · exact absurd hkok (hfails k (hbefore k (by omega) hlt))
      · exact heq
      · exact absurd hok (hkbefore j hgt)
    rw [← hkj]
    exact hset
  · have hneg : (op 3).ret < 0 := (not_ok_iff _).mp (hfails 3 (hall 3 (by omega) (by omega)))
    rw [heq, if_pos hneg, UInt32.zero_and]
    refine iff_of_false (fun h => h rfl) ?_
    rintro ⟨k, hk, hkok, -⟩
    exact hfails k (hall k (by omega) (by omega)) hkok

theorem fetched_accept_iff (hbase : d.base = none) (hfetched : d.fetched = none) (w p : Reply)
    (v : UInt32) :
    ((d.accept w fun d => d.writeAddr addr).accept p fun d =>
        d.writeConfig (v ||| port.prefetch)).fetched = some addr ↔ w.Ok ∧ p.Ok := by
  by_cases hp : p.Ok
  · rw [accept_ok hp, fetched_writeConfig]
    by_cases hw : w.Ok
    · rw [accept_ok hw]
      exact iff_of_true rfl ⟨hw, hp⟩
    · rw [accept_not_ok hw, hbase]
      exact iff_of_false (Option.some_ne_none _).symm fun h => hw h.1
  · rw [accept_not_ok hp]
    refine iff_of_false (fun h => ?_) fun h => hp h.2
    by_cases hw : w.Ok
    · rw [accept_ok hw] at h
      exact absurd (hfetched.symm.trans h) (Option.some_ne_none _).symm
    · rw [accept_not_ok hw, hfetched] at h
      exact absurd h (Option.some_ne_none _).symm

/-- What the unlocked read has told the device before it polls. -/
def pollDev (bus : ReadBus) (port : Port) (addr : UInt32) (d : Dev) : Dev :=
  let c := retry Reply.fails bus.config 3 0
  (d.accept (retry Reply.fails bus.addr 3 0) fun d => d.writeAddr addr).accept
    (retry Reply.fails bus.prefetch 3 0) fun d =>
      d.writeConfig ((if c.ret < 0 then 0 else c.val) ||| port.prefetch)

/-- What it has got from the polls. -/
def pollResult (bus : ReadBus) (port : Port) : ℤ × UInt32 :=
  let c := retry Reply.fails bus.config 3 0
  pollUnlock bus.poll port.prefetch 20 0
    ((retry Reply.fails bus.prefetch 3 0).ret, if c.ret < 0 then 0 else c.val)

theorem readUnlock_eq (hlen : ¬ buf.TooLong) : atbmIndirectReadUnlock bus port addr buf d =
    if (pollResult bus port).2 &&& port.prefetch ≠ 0 then
      ((pollResult bus port).1, none, pollDev bus port addr d)
    else (pollDev bus port addr d).readPort port buf
      (retry Reply.fails (fun i => atbmRegRead buf (bus.data i)) 3 0) := by
  have hlen' : ¬ 0x1000 ≤ buf.len / 2 := hlen
  unfold atbmIndirectReadUnlock
  rw [if_neg hlen']
  rfl

theorem readUnlock_of_done (hlen : ¬ buf.TooLong) (h : ∃ i < 20, Done port (bus.poll i)) :
    atbmIndirectReadUnlock bus port addr buf d = (pollDev bus port addr d).readPort port buf
      (retry Reply.fails (fun i => atbmRegRead buf (bus.data i)) 3 0) := by
  obtain ⟨i, hi, hdone⟩ := h
  have hclear : (pollResult bus port).2 &&& port.prefetch = 0 :=
    (pollUnlock_done ⟨i, Nat.zero_le i, by omega, hdone⟩).2
  rw [readUnlock_eq hlen, if_neg (not_not.mpr hclear)]

theorem pollResult_of_not_done (h : ∀ i < 20, ¬ Done port (bus.poll i)) :
    (pollResult bus port).1 = (bus.poll 19).ret ∧
      ((pollResult bus port).2 &&& port.prefetch ≠ 0 ↔ SeenSet bus port) := by
  obtain ⟨hret, hset⟩ := pollUnlock_not_done bus.poll port (n := 20) (i := 0)
    (x := ((retry Reply.fails bus.prefetch 3 0).ret,
      if (retry Reply.fails bus.config 3 0).ret < 0 then 0
      else (retry Reply.fails bus.config 3 0).val)) fun j _ hj => h j (by omega)
  refine ⟨hret, hset.trans (or_congr ?_ (config_set_iff bus.config port))⟩
  refine exists_congr fun j => ⟨fun ⟨_, hj, hok⟩ => ⟨by omega, hok⟩, ?_⟩
  exact fun ⟨hj, hok⟩ => ⟨Nat.zero_le j, by omega, hok⟩

theorem readUnlock_of_not_done (addr : UInt32) (d : Dev) (hlen : ¬ buf.TooLong)
    (h : ∀ i < 20, ¬ Done port (bus.poll i)) :
    (SeenSet bus port → atbmIndirectReadUnlock bus port addr buf d =
      ((bus.poll 19).ret, none, pollDev bus port addr d)) ∧
    (¬ SeenSet bus port → atbmIndirectReadUnlock bus port addr buf d =
      (pollDev bus port addr d).readPort port buf
        (retry Reply.fails (fun i => atbmRegRead buf (bus.data i)) 3 0)) := by
  obtain ⟨hret, hset⟩ := pollResult_of_not_done h
  rw [readUnlock_eq hlen, hret]
  exact ⟨fun hs => if_pos (hset.mpr hs), fun hs => if_neg fun hx => hs (hset.mp hx)⟩

/-- The polls end: the data are to be read, unless an error is returned. -/
theorem served_iff_of_done {bus : ReadBus} {port : Port} {buf : Buf} (addr : UInt32)
    (hbase : d.base = none) (hfetched : d.fetched = none) (hlen : ¬ buf.TooLong)
    (hdone : ∃ i < 20, Done port (bus.poll i)) :
    Served bus port addr buf 4 (atbmIndirectReadUnlock bus port addr buf d) ↔
      Sound bus port buf := by
  rw [readUnlock_of_done hlen hdone]
  by_cases hdata : DataRead bus buf
  · have hok := (retry_ok_iff _).mpr hdata
    have hwritten : (pollDev bus port addr d).fetched = some addr ↔
        Succeeds bus.addr ∧ Succeeds bus.prefetch := by
      rw [← retry_ok_iff bus.addr, ← retry_ok_iff bus.prefetch]
      exact fetched_accept_iff hbase hfetched _ _ _
    have hfill := readPort_fill (pollDev bus port addr d) port buf
      (Int.not_lt.mpr hok)
    constructor
    · intro h
      have hfilled := h.filled hok
      rw [hfill, Option.some.injEq, Fill.mk.injEq] at hfilled
      exact .inr (.inl ⟨hdone, .inl (hwritten.mp hfilled.2.1)⟩)
    · rintro (h | ⟨-, h | h⟩ | ⟨h, -⟩)
      · exact absurd h hlen
      · refine ⟨fun _ => ?_, fun hno => ?_, fun hno => ?_⟩
        · rw [hfill, hwritten.mpr h]
        · obtain ⟨i, hi, hi'⟩ := h.1
          exact absurd hi' (hno i hi)
        · obtain ⟨i, hi, hi'⟩ := hdone
          exact absurd hi' (hno i hi)
      · exact absurd hdata h
      · obtain ⟨i, hi, hi'⟩ := hdone
        exact absurd hi' (h i hi)
  · have hneg := (retry_neg_iff _).mpr hdata
    exact iff_of_true (served_of_neg hneg) (.inr (.inl ⟨hdone, .inr hdata⟩))

/-- They do not end: whatever is done then, an error has to be returned. -/
theorem served_iff_of_not_done {bus : ReadBus} {port : Port} {buf : Buf} (addr : UInt32)
    (hlen : ¬ buf.TooLong) (hnot : ∀ i < 20, ¬ Done port (bus.poll i)) :
    Served bus port addr buf 4 (atbmIndirectReadUnlock bus port addr buf d) ↔
      Sound bus port buf := by
  have hread : ∀ (d : Dev) (r : Reply), (d.readPort port buf r).1 = r.ret := fun _ _ => rfl
  have hdone : ¬ ∃ i < 20, Done port (bus.poll i) := fun ⟨i, hi, hd⟩ => hnot i hi hd
  obtain ⟨hseen, hunseen⟩ := readUnlock_of_not_done addr d hlen hnot
  have hserved : Served bus port addr buf 4 (atbmIndirectReadUnlock bus port addr buf d) ↔
      (atbmIndirectReadUnlock bus port addr buf d).1 < 0 :=
    ⟨fun h => h.completes hnot, served_of_neg⟩
  rw [hserved]
  by_cases hs : SeenSet bus port
  · rw [hseen hs]
    refine (not_ok_iff (bus.poll 19)).symm.trans ⟨fun h => .inr (.inr ⟨hnot, .inl ⟨hs, h⟩⟩), ?_⟩
    rintro (h | ⟨h, -⟩ | ⟨-, h | h⟩)
    · exact absurd h hlen
    · exact absurd h hdone
    · exact h.2
    · exact absurd hs h.1
  · rw [hunseen hs, hread, retry_neg_iff]
    refine ⟨fun h => .inr (.inr ⟨hnot, .inr ⟨hs, h⟩⟩), ?_⟩
    rintro (h | ⟨h, -⟩ | ⟨-, h | h⟩)
    · exact absurd h hlen
    · exact absurd h hdone
    · exact absurd h.1 hs
    · exact h.2

theorem served_iff_sound (bus : ReadBus) (port : Port) (addr : UInt32) (buf : Buf)
    (hbase : d.base = none) (hfetched : d.fetched = none) :
    Served bus port addr buf 4 (atbmIndirectReadUnlock bus port addr buf d) ↔
      Sound bus port buf := by
  by_cases hlen : buf.TooLong
  · have hneg : (atbmIndirectReadUnlock bus port addr buf d).1 < 0 := by
      have hlen' : 0x1000 ≤ buf.len / 2 := hlen
      unfold atbmIndirectReadUnlock
      rw [if_pos hlen']
      show -einval < 0
      decide
    exact iff_of_true (served_of_neg hneg) (.inl hlen)
  by_cases hdone : ∃ i < 20, Done port (bus.poll i)
  · exact served_iff_of_done addr hbase hfetched hlen hdone
  · exact served_iff_of_not_done addr hlen fun i hi hd => hdone ⟨i, hi, hd⟩

/-- Success, with a value. -/
def Reply.value (v : UInt32) : Reply := ⟨0, v, Int.le_refl 0⟩

/-- `EIO`. -/
def Reply.eio : Reply := ⟨-5, 0, by decide⟩

/-- The device never clears the bit. -/
def stuckBus : ReadBus :=
  ⟨fun _ => .value 0, fun _ => .value 0, fun _ => .value 0, fun _ => .value 0x800, fun _ => .value 0⟩

/-- The address is never written. -/
def noAddrBus : ReadBus :=
  ⟨fun _ => .eio, fun _ => .value 0, fun _ => .value 0, fun _ => .value 0, fun _ => .value 0⟩

end Atbm6441.Sdio.Hwio
