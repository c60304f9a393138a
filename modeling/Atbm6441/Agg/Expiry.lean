import Atbm6441.Agg.Teardown

/-!
# Whose timeout tears a session down

The callback of a session timer records the expiry in a bit of the TID, and the BA work stops later
the session that the TID then has; an ADDBA request that replaces the session in between leaves the
bit as it is. `Watched` : a station and the history of its bits. `only_idle` : the work stops only
sessions whose own timer has expired, as long as no bit outlives its session (`NoStaleBit`).
`replacement_stopped` : otherwise it stops the session that a new ADDBA request has set up.
-/

namespace Atbm6441.Agg

open Atbm6441.Lib

/-! ### The history of the bits -/

/-- A station and the history of its expired bits. -/
structure Watched where
  state : State
  /-- the sessions whose timers have raised the bit of a TID since it was last clear -/
  raised : ℕ → List ℕ
  /-- the sessions that the BA work has stopped because of a bit, each with those that had raised
  it -/
  torn : List (ℕ × List ℕ)

namespace Watched

/-- What a step adds to the history. -/
def note (w : Watched) (a : Act) (t : State) : Watched :=
  match a with
  | .sessionExpired n =>
    let tid := (w.state.sess n).tid
    { w with state := t, raised := Function.update w.raised tid (n :: w.raised tid) }
  | .workTid =>
    match w.state.work with
    | .scan i =>
      if w.state.expired i then
        { state := t
          raised := Function.update w.raised i []
          torn := match w.state.tidRx i with
            | none => w.torn
            | some m => (m, w.raised i) :: w.torn }
      else { w with state := t }
    | _ => { w with state := t }
  | _ => { w with state := t }

/-- **A timeout stops only the session that was idle**: the timer of each session that the BA work
has stopped because of a bit had raised that bit, and no other session had. -/
def OnlyIdle (w : Watched) : Prop := ∀ e ∈ w.torn, e.1 ∈ e.2 ∧ ∀ n ∈ e.2, n = e.1

end Watched

/-- Runs of a station, with the history of its bits. -/
def watched : System Watched Act where
  init w := w = ⟨start, fun _ => [], []⟩
  step w a := (w.state.step a).map (w.note a)

/-- **No bit outlives its session**: an ADDBA request publishes a session on a TID only while the
bit of the TID is clear, and the callback of a session timer raises the bit only while no other
session has been published there. -/
def NoStaleBit (w : Watched) : Act → Prop
  | .publish true => ∀ tid ∈ w.state.mgmt.target, w.state.expired tid = false
  | .sessionExpired n => ∀ m ∈ w.state.tidRx (w.state.sess n).tid, m = n
  | _ => True

instance (w : Watched) (a : Act) : Decidable (NoStaleBit w a) :=
  match a with
  | .publish true =>
    inferInstanceAs (Decidable (∀ tid ∈ w.state.mgmt.target, w.state.expired tid = false))
  | .sessionExpired n =>
    inferInstanceAs (Decidable (∀ m ∈ w.state.tidRx (w.state.sess n).tid, m = n))
  | .publish false | .rxEnter | .rxLoad _ | .rxSession | .rxReorder _ | .rxLeave | .sessionFire _
  | .reorderFire _ | .reorderLoad _ | .reorderRelease _ _ | .workStart | .workTest | .workLock
  | .workTid | .workUnlock | .addba _ _ | .delba _ | .mgmtStop | .arm | .delbaDone | .destroy
  | .cancelWork | .tearDownTid | .tearDownDone | .remove | .synchronize | .freeSta | .delSession
  | .delReorder | .callRcu | .rcuFree _ => .isTrue trivial

variable {s t : State} {w w' : Watched} {a : Act} {n : ℕ}

theorem watched_state (w : Watched) (a : Act) :
    (watched.step w a).map Watched.state = system.step w.state a := by
  have hnote : ∀ t, (w.note a t).state = t := by
    intro t
    unfold Watched.note
    repeat' split
    all_goals rfl
  simp [watched, system, Option.map_map, Function.comp_def, hnote]

/-! ### What the steps do to the bits and the pointers -/

/-- The expired bits after a step. -/
def State.bits (s : State) : Act → ℕ → Bool
  | .sessionExpired n => Function.update s.expired (s.sess n).tid true
  | .workTid =>
    match s.work with
    | .scan i => Function.update s.expired i false
    | _ => s.expired
  | _ => s.expired

/-- A step changes the bits as `bits` says, and only `publish` adds a session. -/
structure Touches (s : State) (a : Act) (t : State) : Prop where
  expired : t.expired = s.bits a
  tidRx : ∀ i m, t.tidRx i = some m →
    s.tidRx i = some m ∨ a = .publish true ∧ s.mgmt.target = some i

theorem Touches.same (hexp : t.expired = s.bits a) (htid : t.tidRx = s.tidRx) : Touches s a t :=
  ⟨hexp, fun _ _ hm => Or.inl (htid ▸ hm)⟩

theorem expired_clear (s : State) (i : ℕ) : (s.clear i).expired = s.expired := by
  unfold State.clear
  split <;> rfl

theorem tidRx_of_clear {i j m : ℕ} (hm : (s.clear i).tidRx j = some m) : s.tidRx j = some m := by
  unfold State.clear at hm
  split at hm
  · exact hm
  · by_cases hij : j = i
    · simp [hij] at hm
    · simpa [hij] using hm

theorem touches_rxStep (ht : s.rxStep a = some t) : Touches s a t := by
  cases a <;> simp only [State.rxStep] at ht <;> (repeat' split at ht) <;> cases ht <;>
    exact .same rfl rfl

theorem touches_timerStep (ht : s.timerStep a = some t) : Touches s a t := by
  cases a <;> simp only [State.timerStep] at ht <;> (repeat' split at ht) <;> cases ht <;>
    exact .same rfl rfl

theorem touches_stopStep (ht : s.stopStep a = some t) : Touches s a t := by
  cases a <;> simp only [State.stopStep] at ht <;> (repeat' split at ht) <;> cases ht <;>
    exact .same rfl rfl

theorem touches_workStep (ht : s.workStep a = some t) : Touches s a t := by
  cases a <;> simp only [State.workStep] at ht <;> try cases ht
  case workTid =>
    split at ht <;> try cases ht
    next i hpc =>
    split_ifs at ht with hi hexp <;> cases ht
    · refine ⟨by simp [expired_clear, State.bits, hpc], fun j m hm => ?_⟩
      have hm' := tidRx_of_clear hm
      exact Or.inl hm'
    · rw [Bool.not_eq_true] at hexp
      exact .same (by simp [State.bits, hpc, ← hexp]) rfl
  all_goals
    repeat' split at ht
    all_goals cases ht
    all_goals exact .same rfl rfl

theorem touches_mgmtStep (ht : s.mgmtStep a = some t) : Touches s a t := by
  cases a <;> simp only [State.mgmtStep] at ht <;> try cases ht
  case mgmtStop =>
    split at ht <;> try cases ht
    next tid _ =>
    split_ifs at ht with hstop
    cases ht
    exact ⟨expired_clear s tid, fun j m hm => Or.inl (tidRx_of_clear hm)⟩
  case publish ok =>
    split at ht <;> try cases ht
    next tid timeout hpc =>
    split_ifs at ht with hfree hok <;> cases ht
    · refine ⟨rfl, fun j m hm => ?_⟩
      by_cases hj : j = tid
      · exact Or.inr ⟨by rw [hok], by rw [hpc, hj]; rfl⟩
      · exact Or.inl (by simpa [tidRx_allocate, hj] using hm)
    · exact .same rfl rfl
  all_goals
    repeat' split at ht
    all_goals cases ht
    all_goals exact .same rfl rfl

theorem touches_step (ht : s.step a = some t) : Touches s a t := by
  rcases Option.or_eq_some_iff.mp ht with ht | ⟨-, ht⟩
  · exact touches_rxStep ht
  rcases Option.or_eq_some_iff.mp ht with ht | ⟨-, ht⟩
  · exact touches_timerStep ht
  rcases Option.or_eq_some_iff.mp ht with ht | ⟨-, ht⟩
  · exact touches_workStep ht
  rcases Option.or_eq_some_iff.mp ht with ht | ⟨-, ht⟩
  · exact touches_mgmtStep ht
  · exact touches_stopStep ht

/-! ### The invariant -/

/-- **The invariant**: a bit is set when somebody has raised it, and only the session of the TID
has. -/
structure Raised (w : Watched) : Prop where
  bit : ∀ i, w.state.expired i = true ↔ w.raised i ≠ []
  own : ∀ i m, w.state.tidRx i = some m → ∀ n ∈ w.raised i, n = m
  onlyIdle : w.OnlyIdle

namespace Raised

theorem start : Raised ⟨start, fun _ => [], []⟩ :=
  ⟨fun _ => by simp [Agg.start], nofun, nofun⟩

theorem keep (h : Raised w) (ht : Touches w.state a t) (hbits : w.state.bits a = w.state.expired)
    (hpub : a = .publish true → ∀ tid ∈ w.state.mgmt.target, w.state.expired tid = false) :
    Raised { w with state := t } := by
  refine ⟨fun i => ?_, fun i m hm n hn => ?_, h.onlyIdle⟩
  · change t.expired i = true ↔ _
    rw [ht.expired, hbits]
    exact h.bit i
  · rcases ht.tidRx i m hm with hold | ⟨ha, htarget⟩
    · exact h.own i m hold n hn
    · -- nobody has raised the bit before the session is published
      have hset := (h.bit i).mpr (List.ne_nil_of_mem hn)
      rw [hpub ha i htarget] at hset
      simp at hset

theorem sessionExpired (h : Raised w) (ht : Touches w.state (.sessionExpired n) t)
    (hown : ∀ m ∈ w.state.tidRx (w.state.sess n).tid, m = n) :
    Raised (w.note (.sessionExpired n) t) := by
  refine ⟨fun i => ?_, fun i m hm k hk => ?_, h.onlyIdle⟩
  · change t.expired i = true ↔ Function.update w.raised (w.state.sess n).tid _ i ≠ []
    rw [ht.expired, State.bits]
    by_cases hi : i = (w.state.sess n).tid
    · simp [hi]
    · simpa [hi] using h.bit i
  · have hm' : w.state.tidRx i = some m := by simpa using ht.tidRx i m hm
    change k ∈ Function.update w.raised (w.state.sess n).tid _ i at hk
    by_cases hi : i = (w.state.sess n).tid
    · subst hi
      rw [Function.update_self, List.mem_cons] at hk
      rcases hk with rfl | hk
      · exact (hown m hm').symm
      · exact h.own _ m hm' k hk
    · rw [Function.update_of_ne hi] at hk
      exact h.own i m hm' k hk

/-- **The work stops the session of a TID**, whose timer has raised the bit. -/
theorem workTid (h : Raised w) (ht : Touches w.state .workTid t) :
    Raised (w.note .workTid t) := by
  have htid : ∀ i m, t.tidRx i = some m → w.state.tidRx i = some m := by
    intro i m hm
    simpa using ht.tidRx i m hm
  by_cases hscan : ∃ i, w.state.work = .scan i ∧ w.state.expired i = true
  · obtain ⟨i, hpc, hexp⟩ := hscan
    have hne : w.raised i ≠ [] := (h.bit i).mp hexp
    have hnote : w.note .workTid t = ⟨t, Function.update w.raised i [],
        match w.state.tidRx i with
        | none => w.torn
        | some m => (m, w.raised i) :: w.torn⟩ := by
      simp [Watched.note, hpc, hexp]
    rw [hnote]
    refine ⟨fun j => ?_, fun j m hm k hk => ?_, ?_⟩
    · rw [ht.expired]
      by_cases hj : j = i
      · simp [State.bits, hpc, hj]
      · simpa [State.bits, hpc, hj] using h.bit j
    · by_cases hj : j = i
      · simp [hj] at hk
      · exact h.own j m (htid j m hm) k (by simpa [hj] using hk)
    · intro e he
      rcases hm : w.state.tidRx i with _ | m
      · simp only [hm] at he
        exact h.onlyIdle e he
      · simp only [hm, List.mem_cons] at he
        rcases he with rfl | he
        · obtain ⟨n, hn⟩ := List.exists_mem_of_ne_nil _ hne
          have hnm := h.own i m hm n hn
          subst hnm
          exact ⟨hn, h.own i n hm⟩
        · exact h.onlyIdle e he
  · -- the bit of the TID is clear
    have hnote : w.note .workTid t = { w with state := t } := by
      unfold Watched.note
      dsimp only
      split
      · next i hpc => rw [if_neg fun hexp => hscan ⟨i, hpc, hexp⟩]
      · rfl
    have hbits : w.state.bits .workTid = w.state.expired := by
      unfold State.bits
      dsimp only
      split
      · next i hpc =>
        have hexp : w.state.expired i = false := by
          rw [← Bool.not_eq_true]
          exact fun hexp => hscan ⟨i, hpc, hexp⟩
        rw [← hexp, Function.update_eq_self]
      · rfl
    rw [hnote]
    exact h.keep ht hbits nofun

/-- **Every step that meets the condition keeps the invariant.** -/
theorem step (h : Raised w) (hok : NoStaleBit w a) (hs : watched.step w a = some w') :
    Raised w' := by
  obtain ⟨t, ht, rfl⟩ := Option.map_eq_some_iff.mp hs
  have ht := touches_step ht
  cases a with
  | sessionExpired n => exact h.sessionExpired ht hok
  | workTid => exact h.workTid ht
  | publish ok =>
    refine h.keep ht rfl fun heq => ?_
    cases heq
    exact hok
  | _ => exact h.keep ht rfl nofun

end Raised

/-- **A timeout stops only the session that was idle**, in every run in which no bit outlives its
session. -/
theorem only_idle (h : Reach watched NoStaleBit w) : w.OnlyIdle := by
  have hinv : Raised w := by
    refine h.inv_of_start (I := Raised) (fun _ => id) .start ?_
    intro w a w' hI hok hs
    exact hI.step hok hs
  exact hinv.onlyIdle

/-- As long as the RX thread arms no timer that the teardown has deleted, the callback of a session
timer finds no other session on its TID: then only ADDBA requests can break the condition. -/
theorem expired_own (h : Reach system InTime s) (hrun : (s.sessionTimer n).running = true) :
    ∀ m ∈ s.tidRx (s.sess n).tid, m = n := by
  intro m hm
  have hinv : Owned s := owned_reach h
  exact hinv.alone (Phase.reorderOff_of_sessionOff (hinv.session_on (Or.inr hrun))) hm

/-! ### Runs -/

/-- The timer of session `n` expires. -/
def expires (n : ℕ) : List Act := [.sessionFire n, .sessionExpired n]

/-- The BA work finds the bit of TID 0. -/
def worked : List Act := [.workStart, .workTest, .workLock, .workTid]

/-- A session times out, is stopped and is replaced by another that times out as well. -/
theorem only_idle_twice : ∃ w, Reach watched NoStaleBit w ∧ w.torn = [(1, [1]), (0, [0])] ∧
    w.OnlyIdle := by
  let as : List Act := setUp 0 ++ expires 0 ++ worked ++ [.delSession, .delReorder, .callRcu] ++
    List.replicate 15 .workTid ++ [.workUnlock] ++ setUp 0 ++ expires 1 ++ worked
  have hout : (execIf watched NoStaleBit ⟨start, fun _ => [], []⟩ as).map Watched.torn =
      some [(1, [1]), (0, [0])] := by
    decide +kernel
  obtain ⟨w, hw, hout⟩ := Option.map_eq_some_iff.mp hout
  have hr := Reach.of_execIf (.init rfl) hw
  exact ⟨w, hr, hout, only_idle hr⟩

/-- **The session that replaces an idle one is stopped**: the timer of session 0 expires, an ADDBA
request replaces it by session 1, and the BA work finds the bit of session 0. -/
theorem replacement_stopped : ∃ w, Reach watched (fun _ _ => True) w ∧ w.torn = [(1, [0])] ∧
    ¬ w.OnlyIdle := by
  let as : List Act := setUp 0 ++ expires 0 ++ [.addba 0 true] ++ stops ++ [.publish true, .arm] ++
    worked
  have hout : (exec watched ⟨start, fun _ => [], []⟩ as).map Watched.torn = some [(1, [0])] := by
    decide +kernel
  obtain ⟨w, hw, hout⟩ := Option.map_eq_some_iff.mp hout
  refine ⟨w, Reach.of_exec (.init rfl) hw, hout, fun h => ?_⟩
  have := (h (1, [0]) (by rw [hout]; simp)).1
  simp at this

end Atbm6441.Agg
