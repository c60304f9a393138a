import Atbm6441.Agg.Owned

/-!
# Teardown against timers

`clean_teardown` : when a session has been freed its timers are not armed and nobody can arm them,
and when the station has been freed its work and the timers of its sessions are quiet, as long as the
RX thread arms no timer that the teardown has deleted and no session timer queues the BA work that
the destruction has cancelled (`InTime`). `freed_armed` : otherwise a session is freed with an armed
timer.
-/

namespace Atbm6441.Agg

open Atbm6441.Lib

/-- Someone still holds session `n` and may arm its timers. -/
def State.Rearmable (s : State) (n : ℕ) : Prop :=
  s.rx.session = some n ∨ (∃ m, (s.reorderTimer m).callback = .loaded n) ∨
    ∃ timeout, s.mgmt = .published n timeout

/-- **What is freed is not used any more.** -/
structure Clean (s : State) : Prop where
  session : ∀ n, (s.sess n).phase = .freed → (s.sessionTimer n).armed = false ∧
    (s.reorderTimer n).armed = false ∧ ¬ s.Rearmable n
  station : s.mgmt = .freed → s.workQueued = false ∧ s.work = .idle ∧
    ∀ n, s.sessionTimer n = ⟨false, false⟩ ∧ s.reorderTimer n = ⟨false, .idle⟩

/-- **The steps in time**: the RX thread arms a timer of its session only before the teardown has
deleted that timer, and the callback of a session timer queues the BA work only before the
destruction of the station has cancelled it. -/
def InTime (s : State) : Act → Prop
  | .rxSession =>
    match s.rx.session with
    | some n => (s.sess n).timeout = true → (s.sess n).phase.sessionOff = false
    | none => True
  | .rxReorder op =>
    match s.rx.session with
    | some n => op = .mod → (s.sess n).phase.reorderOff = false
    | none => True
  | .sessionExpired _ => s.mgmt.cancelled = false
  | _ => True

instance (s : State) (a : Act) : Decidable (InTime s a) :=
  match a with
  | .rxSession =>
    match h : s.rx.session with
    | some n =>
      decidable_of_iff ((s.sess n).timeout = true → (s.sess n).phase.sessionOff = false)
        (by rw [InTime, h])
    | none => .isTrue (by rw [InTime, h]; trivial)
  | .rxReorder op =>
    match h : s.rx.session with
    | some n =>
      decidable_of_iff (op = .mod → (s.sess n).phase.reorderOff = false) (by rw [InTime, h])
    | none => .isTrue (by rw [InTime, h]; trivial)
  | .sessionExpired _ => inferInstanceAs (Decidable (s.mgmt.cancelled = false))
  | .rxEnter | .rxLoad _ | .rxLeave | .sessionFire _ | .reorderFire _ | .reorderLoad _
  | .reorderRelease _ _ | .workStart | .workTest | .workLock | .workTid | .workUnlock | .addba _ _
  | .delba _ | .mgmtStop | .publish _ | .arm | .delbaDone | .destroy | .cancelWork | .tearDownTid
  | .tearDownDone | .remove | .synchronize | .freeSta | .delSession | .delReorder | .callRcu
  | .rcuFree _ => .isTrue trivial

variable {s t : State} {a : Act}

/-! ### The steps -/

theorem owned_rxStep (h : Owned s) (hon : InTime s a) (ht : s.rxStep a = some t) : Owned t := by
  cases a <;> simp only [State.rxStep] at ht <;> try cases ht
  case rxEnter =>
    split_ifs at ht with hpc
    cases ht
    exact h.setRx nofun
  case rxLoad tid =>
    split_ifs at ht with hpc
    split at ht <;> cases ht
    · exact h
    · next n hn =>
      refine h.setRx ?_
      rintro m ⟨⟩
      rw [(h.pub tid n hn).1]
      exact ⟨nofun, nofun⟩
  case rxSession =>
    split at ht <;> cases ht
    next n hrx =>
    have hsess : s.rx.session = some n := by rw [hrx]; rfl
    have hpassed : Owned { s with rx := .passed n } := by
      refine h.setRx ?_
      rintro m ⟨⟩
      exact h.rx n hsess
    split_ifs with htimeout
    · refine hpassed.setSessionTimer fun hoff => ?_
      rw [InTime, hsess] at hon
      have hon := hon htimeout
      change (s.sess n).phase.sessionOff = true at hoff
      rw [hoff] at hon
      cases hon
    · exact hpassed
  case rxReorder op =>
    split at ht <;> cases ht
    next n hrx =>
    have hsess : s.rx.session = some n := by rw [hrx]; rfl
    have hinside : Owned { s with rx := .inside } := h.setRx nofun
    refine hinside.setReorderTimer (fun hoff => ?_) fun m hm => ?_
    · change (s.sess n).phase.reorderOff = true at hoff
      have hquiet := h.reorderOff n hoff
      cases op with
      | keep => exact hquiet
      | del =>
        rw [TimerOp.apply, hquiet]
      | mod =>
        rw [InTime, hsess] at hon
        have hon := hon rfl
        rw [hoff] at hon
        cases hon
    · refine h.callback n m ?_
      cases op <;> exact hm
  case rxLeave =>
    split_ifs at ht with hpc
    cases ht
    exact h.setRx nofun

theorem owned_timerStep (h : Owned s) (hon : InTime s a) (ht : s.timerStep a = some t) :
    Owned t := by
  cases a <;> simp only [State.timerStep] at ht <;> try cases ht
  case sessionFire n =>
    split_ifs at ht with hpc
    cases ht
    refine h.setSessionTimer fun hoff => ?_
    rw [h.session_on (Or.inl hpc.1)] at hoff
    cases hoff
  case sessionExpired n =>
    split_ifs at ht with hpc
    cases ht
    refine (h.queue hon _).setSessionTimer fun hoff => ?_
    have hoff' : (s.sess n).phase.sessionOff = true := hoff
    rw [h.session_on (Or.inr hpc)] at hoff'
    cases hoff'
  case reorderFire n =>
    split_ifs at ht with hpc
    cases ht
    refine h.setReorderTimer (fun hoff => ?_) nofun
    rw [h.reorder_on (Or.inl hpc.1)] at hoff
    cases hoff
  case reorderLoad n =>
    split_ifs at ht with hpc
    cases ht
    have hne : (s.reorderTimer n).callback ≠ .idle := by rw [hpc]; nofun
    refine h.setReorderTimer (fun hoff => ?_) fun m hm => ?_
    · rw [h.reorder_on (Or.inr hne)] at hoff
      cases hoff
    · dsimp only at hm
      split at hm <;> cases hm
      exact h.load hpc ‹_›
  case reorderRelease n op =>
    split at ht <;> cases ht
    next m hpc =>
    obtain rfl : m = n := h.callback n m hpc
    have hne : (s.reorderTimer m).callback ≠ .idle := by rw [hpc]; nofun
    have hop : Owned (s.setReorderTimer m (op.apply (s.reorderTimer m))) := by
      refine h.setReorderTimer (fun hoff => ?_) fun k hk => ?_
      · rw [h.reorder_on (Or.inr hne)] at hoff
        cases hoff
      · refine h.callback m k ?_
        cases op <;> exact hk
    refine hop.setReorderTimer (fun hoff => ?_) nofun
    have hoff' : (s.sess m).phase.reorderOff = true := hoff
    rw [h.reorder_on (Or.inr hne)] at hoff'
    cases hoff'

theorem owned_workStep (h : Owned s) (ht : s.workStep a = some t) : Owned t := by
  cases a <;> simp only [State.workStep] at ht <;> try cases ht
  case workStart =>
    split_ifs at ht with hpc
    cases ht
    refine h.setWork (Or.inl hpc.1) _ (fun _ hin => ?_) fun _ _ => rfl
    rw [hpc.2] at hin
    cases hin
  case workTest =>
    split_ifs at ht with hpc <;> cases ht
    all_goals
      refine h.setWork (Or.inr (by rw [hpc]; nofun)) _ (fun _ hin => ?_) fun _ _ => rfl
      rw [hpc] at hin
      cases hin
  case workLock =>
    split_ifs at ht with hpc
    cases ht
    refine h.setWork (Or.inr (by rw [hpc.1]; nofun)) _ (fun _ _ => rfl) fun hin _ => ?_
    rw [(Owned.not_inMtx hpc.2).1] at hin
    cases hin
  case workTid =>
    split at ht <;> try cases ht
    next i hpc =>
    have hscan : Owned { s with work := .scan (i + 1) } := by
      refine h.setWork (Or.inr (by rw [hpc]; nofun)) _ (fun _ _ => rfl) fun _ hin => ?_
      rw [hpc] at hin
      cases hin
    split_ifs at ht with hi hexp <;> cases ht
    · have hbit : Owned { s with
          work := .scan (i + 1), expired := Function.update s.expired i false } :=
        { hscan with unborn := hscan.unborn }
      exact hbit.clear hi.2 (Or.inr rfl)
    · exact hscan
  case workUnlock =>
    split at ht <;> try cases ht
    next i hpc =>
    split_ifs at ht with hi
    cases ht
    refine h.setWork (Or.inr (by rw [hpc]; nofun)) _ (fun hne _ => ?_) fun _ _ => rfl
    exact absurd hi.2 hne

theorem Owned.onward (h : Owned s) {mgmt : MgmtPc} (hstop : s.stop = none ∨ s.mgmt.target = none)
    (hmtx : mgmt.inMtx = true → s.work.inMtx = false)
    (hpub : ∀ n timeout, mgmt ≠ .published n timeout)
    (haddba : ∀ t timeout, mgmt = .addba t timeout → t < staTidNum)
    (hcancelled : s.mgmt.cancelled = true) (htorn : mgmt.tornDown ≤ s.mgmt.tornDown) :
    Owned { s with mgmt := mgmt } :=
  h.setMgmt hstop hmtx hpub haddba (fun _ => h.cancelled hcancelled)
    fun t ht => h.tornDown t (Nat.lt_of_lt_of_le ht htorn)

theorem owned_mgmtStep (h : Owned s) (ht : s.mgmtStep a = some t) : Owned t := by
  cases a <;> simp only [State.mgmtStep] at ht <;> try cases ht
  case addba tid timeout =>
    split_ifs at ht with hpc
    cases ht
    refine h.setMgmt (Or.inr (by rw [hpc.1]; rfl)) (fun _ => (Owned.not_inMtx hpc.2).2) nofun ?_
      nofun nofun
    rintro t timeout ⟨⟩
    exact tid.isLt
  case delba tid =>
    split_ifs at ht with hpc
    cases ht
    exact h.setMgmt (Or.inr (by rw [hpc.1]; rfl)) (fun _ => (Owned.not_inMtx hpc.2).2) nofun nofun
      nofun nofun
  case mgmtStop =>
    split at ht <;> try cases ht
    next tid htarget =>
    split_ifs at ht with hstop
    cases ht
    exact h.clear hstop (Or.inl (by rw [htarget]; nofun))
  case publish ok =>
    split at ht <;> try cases ht
    next tid timeout hpc =>
    split_ifs at ht with hfree hok <;> cases ht
    · exact h.allocate hpc hfree.1 hfree.2
    · exact h.setMgmt (Or.inl hfree.1) nofun nofun nofun nofun nofun
  case arm =>
    split at ht <;> cases ht
    next n timeout hpc =>
    have hidle : Owned { s with mgmt := .idle } :=
      h.setMgmt (Or.inr (by rw [hpc]; rfl)) nofun nofun nofun nofun nofun
    split_ifs
    · refine hidle.setSessionTimer fun hoff => ?_
      change (s.sess n).phase.sessionOff = true at hoff
      rw [h.published n timeout hpc] at hoff
      cases hoff
    · exact hidle
  case delbaDone =>
    split at ht <;> try cases ht
    split_ifs at ht with hfree
    cases ht
    exact h.setMgmt (Or.inl hfree.1) nofun nofun nofun nofun nofun
  case destroy =>
    split_ifs at ht with hpc
    cases ht
    exact h.setMgmt (Or.inr (by rw [hpc]; rfl)) nofun nofun nofun nofun nofun
  case cancelWork =>
    split_ifs at ht with hpc
    cases ht
    have hq : Owned { s with workQueued := false } :=
      { h with cancelled := fun hc => ⟨rfl, (h.cancelled hc).2⟩ }
    exact hq.setMgmt (Or.inr (by rw [hpc.1]; rfl)) nofun nofun nofun (fun _ => ⟨rfl, hpc.2⟩) nofun
  case tearDownTid =>
    split at ht <;> try cases ht
    next i hpc =>
    split_ifs at ht with hfree
    cases ht
    exact h.onward (Or.inr (by rw [hpc]; rfl)) (fun _ => (Owned.not_inMtx hfree.2).2) nofun nofun
      (by rw [hpc]; rfl) (by rw [hpc]; exact Nat.le_refl _)
  case tearDownDone =>
    split at ht <;> try cases ht
    next i hpc =>
    split_ifs at ht with hfree
    cases ht
    refine h.setMgmt (Or.inl hfree.1) nofun nofun nofun (fun _ => h.cancelled (by rw [hpc]; rfl))
      fun t ht => ?_
    rcases Nat.lt_succ_iff_lt_or_eq.mp ht with hlt | rfl
    · exact h.tornDown t (by rw [hpc]; exact hlt)
    · exact hfree.2
  case remove =>
    split_ifs at ht with hpc
    cases ht
    exact h.onward (Or.inr (by rw [hpc]; rfl)) nofun nofun nofun (by rw [hpc]; rfl)
      (by rw [hpc]; exact Nat.le_refl _)
  case synchronize =>
    split_ifs at ht with hpc
    cases ht
    exact h.onward (Or.inr (by rw [hpc.1]; rfl)) nofun nofun nofun (by rw [hpc.1]; rfl)
      (by rw [hpc.1]; exact Nat.le_refl _)
  case freeSta =>
    split_ifs at ht with hpc
    cases ht
    exact h.onward (Or.inr (by rw [hpc]; rfl)) nofun nofun nofun (by rw [hpc]; rfl)
      (by rw [hpc]; exact Nat.le_refl _)

theorem owned_stopStep (h : Owned s) (ht : s.stopStep a = some t) : Owned t := by
  cases a <;> simp only [State.stopStep] at ht <;> try cases ht
  case delSession =>
    split at ht <;> try cases ht
    next n hstop =>
    split_ifs at ht with hpc
    cases ht
    have hoff : Owned (s.setSessionTimer n ⟨false, false⟩) := h.setSessionTimer fun _ => rfl
    have hphase : ((s.setSessionTimer n ⟨false, false⟩).sess n).phase = .cleared := hpc.1
    refine hoff.setPhase n .sessionDeleted s.stop (by rw [hphase]; nofun) (by rw [hphase]; nofun)
      ⟨nofun, nofun⟩ (Or.inl rfl) (fun _ => hstop) (fun _ => ?_) nofun nofun
    exact Function.update_self ..
  case delReorder =>
    split at ht <;> try cases ht
    next n hstop =>
    split_ifs at ht with hpc
    cases ht
    have hoff : Owned (s.setReorderTimer n ⟨false, .idle⟩) := h.setReorderTimer (fun _ => rfl) nofun
    have hphase : ((s.setReorderTimer n ⟨false, .idle⟩).sess n).phase = .sessionDeleted := hpc.1
    refine hoff.setPhase n .reorderDeleted s.stop (by rw [hphase]; nofun) (by rw [hphase]; nofun)
      ⟨nofun, nofun⟩ (Or.inl rfl) (fun _ => hstop) (fun _ => ?_) (fun _ => ?_) nofun
    · exact h.sessionOff n (by rw [hpc.1]; rfl)
    · exact Function.update_self ..
  case callRcu =>
    split at ht <;> try cases ht
    next n hstop =>
    split_ifs at ht with hpc
    cases ht
    exact h.setPhase n .rcu none (by rw [hpc]; nofun) (by rw [hpc]; nofun) ⟨nofun, nofun⟩
      (Or.inr ⟨rfl, hstop⟩) nofun (fun _ => h.sessionOff n (by rw [hpc]; rfl))
      (fun _ => h.reorderOff n (by rw [hpc]; rfl)) nofun
  case rcuFree n =>
    split_ifs at ht with hpc
    cases ht
    exact h.setPhase n .freed s.stop (by rw [hpc.1]; nofun) (by rw [hpc.1]; nofun) ⟨nofun, nofun⟩
      (Or.inl rfl) nofun (fun _ => h.sessionOff n (by rw [hpc.1]; rfl))
      (fun _ => h.reorderOff n (by rw [hpc.1]; rfl)) fun _ => hpc.2.1

/-- **Every step in time keeps the invariant.** -/
theorem owned_step (h : Owned s) (hon : InTime s a) (ht : s.step a = some t) : Owned t := by
  rcases Option.or_eq_some_iff.mp ht with ht | ⟨-, ht⟩
  · exact owned_rxStep h hon ht
  rcases Option.or_eq_some_iff.mp ht with ht | ⟨-, ht⟩
  · exact owned_timerStep h hon ht
  rcases Option.or_eq_some_iff.mp ht with ht | ⟨-, ht⟩
  · exact owned_workStep h ht
  rcases Option.or_eq_some_iff.mp ht with ht | ⟨-, ht⟩
  · exact owned_mgmtStep h ht
  · exact owned_stopStep h ht

theorem Owned.clean (h : Owned s) : Clean s := by
  refine ⟨fun n hn => ?_, fun hm => ?_⟩
  · have hsession := h.sessionOff n (by rw [hn]; rfl)
    have hreorder := h.reorderOff n (by rw [hn]; rfl)
    refine ⟨by rw [hsession], by rw [hreorder], ?_⟩
    rintro (hrx | ⟨m, hm⟩ | ⟨timeout, hm⟩)
    · exact (h.rx n hrx).2 hn
    · obtain rfl := h.callback m n hm
      rw [hreorder] at hm
      cases hm
    · have := h.published n timeout hm
      rw [hn] at this
      cases this
  · obtain ⟨hqueued, hwork⟩ := h.cancelled (by rw [hm]; rfl)
    have hstop : s.stop = none := by
      by_contra hne
      rcases h.stopper hne with htarget | hin
      · rw [hm] at htarget
        exact htarget rfl
      · rw [hwork] at hin
        cases hin
    -- every session has been torn down
    have hphase : ∀ n, (s.sess n).phase ≠ .live ∧ (s.sess n).phase.stopping = false := by
      intro n
      refine ⟨fun hlive => ?_, ?_⟩
      · have hpub := h.live n hlive
        rw [h.tornDown _ (by rw [hm]; exact (h.pub _ n hpub).2.2)] at hpub
        cases hpub
      · cases hst : (s.sess n).phase.stopping with
        | false => rfl
        | true =>
          have := h.stopping n hst
          rw [hstop] at this
          cases this
    refine ⟨hqueued, hwork, fun n => ⟨h.sessionOff n ?_, h.reorderOff n ?_⟩⟩
    all_goals
      obtain ⟨hlive, hst⟩ := hphase n
      cases hp : (s.sess n).phase <;> rw [hp] at hlive hst <;>
        first | rfl | exact absurd rfl hlive | cases hst

theorem owned_reach (h : Reach system InTime s) : Owned s := by
  refine h.inv_of_start (I := Owned) (fun _ => id) owned_start ?_
  intro s a t hI hon ht
  exact owned_step hI hon ht

/-- **Nothing that is freed is used any more**, in every run whose steps are in time. -/
theorem clean_teardown (h : Reach system InTime s) : Clean s := (owned_reach h).clean

/-! ### Runs -/

/-- An ADDBA request sets up a session on a TID. -/
def setUp (tid : Fin 16) : List Act := [.addba tid true, .publish true, .arm]

/-- The session of a TID is stopped and waits for RCU. -/
def stops : List Act := [.mgmtStop, .delSession, .delReorder, .callRcu]

/-- The station is destroyed; there is one session, on TID 0. -/
def destroys : List Act :=
  [.tearDownTid] ++ stops ++ [.tearDownDone] ++
    (List.replicate 15 [.tearDownTid, .tearDownDone]).flatten ++ [.remove, .synchronize, .freeSta]

/-- A frame, an expiry that reaches the work, a new session, and the end of the station. -/
theorem clean_teardown_twoSessions : ∃ s, Reach system InTime s ∧ s.mgmt = .freed ∧
    (s.sess 0).phase = .freed ∧ (s.sess 1).phase = .rcu ∧ s.workQueued = false := by
  let expires : List Act := [.rxEnter, .rxLoad 0, .rxSession, .rxReorder .mod, .rxLeave,
    .reorderFire 0, .reorderLoad 0, .reorderRelease 0 .del, .sessionFire 0, .sessionExpired 0]
  let works : List Act := [.workStart, .workTest, .workLock, .workTid, .delSession, .delReorder,
    .callRcu]
  let ends : List Act := [.workUnlock, .rcuFree 0]
  let flushes : List Act := [.destroy, .cancelWork]
  let as := setUp 0 ++ expires ++ works ++ List.replicate 15 .workTid ++ ends ++ setUp 0 ++ flushes ++
    destroys
  have hout : (execIf system InTime start as).map (fun s =>
      (s.mgmt, (s.sess 0).phase, (s.sess 1).phase)) = some (.freed, .freed, .rcu) := by
    decide +kernel
  obtain ⟨s, hs, hout⟩ := Option.map_eq_some_iff.mp hout
  simp only [Prod.mk.injEq] at hout
  have hr := Reach.of_execIf (.init rfl) hs
  exact ⟨s, hr, hout.1, hout.2.1, hout.2.2, ((clean_teardown hr).station hout.1).1⟩

/-- **A session is freed with an armed timer**: the RX thread has found the session, a DELBA frame
stops it, and the RX thread arms its session timer. -/
theorem freed_armed : ∃ s, Reach system (fun _ _ => True) s ∧ ¬ Clean s := by
  let loads : List Act := [.rxEnter, .rxLoad 0, .delba 0]
  let arms : List Act := [.rxSession, .rxReorder .keep, .rxLeave, .rcuFree 0]
  let as := setUp 0 ++ loads ++ stops ++ arms
  have hout : (exec system start as).map (fun s => ((s.sess 0).phase, (s.sessionTimer 0).armed)) =
      some (.freed, true) := by
    decide +kernel
  obtain ⟨s, hs, hout⟩ := Option.map_eq_some_iff.mp hout
  obtain ⟨hphase, harmed⟩ := Prod.mk.inj hout
  refine ⟨s, Reach.of_exec (.init rfl) hs, fun h => ?_⟩
  have := (h.session 0 hphase).1
  rw [harmed] at this
  cases this

/- The station is freed with a queued work: a session timer expires between `cancel_work_sync` and
the teardown of its session. -/
example : (exec system start (setUp 0 ++ [.destroy, .cancelWork, .sessionFire 0, .sessionExpired 0] ++
    destroys)).map (fun s => (s.mgmt, s.workQueued)) = some (.freed, true) := by
  decide +kernel

end Atbm6441.Agg
