import Atbm6441.Agg.Model

/-!
# Who owns a session

`Owned` : the pointers, the timers and the threads of a station agree on how far each session has
come. The lemmas say which updates keep it, one for each field of the state that a step changes.
-/

namespace Atbm6441.Agg

/-! ### Updates of the state -/

@[simp] theorem tid_setPhase (s : State) (n : ℕ) (p : Phase) (m : ℕ) :
    ((s.setPhase n p).sess m).tid = (s.sess m).tid := by
  by_cases hmn : m = n
  · subst hmn
    simp [State.setPhase]
  · simp [State.setPhase, hmn]

@[simp] theorem phase_setPhase (s : State) (n : ℕ) (p : Phase) (m : ℕ) :
    ((s.setPhase n p).sess m).phase = if m = n then p else (s.sess m).phase := by
  by_cases hmn : m = n
  · subst hmn
    simp [State.setPhase]
  · simp [State.setPhase, hmn]

theorem sess_allocate (s : State) (tid : ℕ) (timeout : Bool) (m : ℕ) :
    (s.allocate tid timeout).sess m = if m = s.next then ⟨tid, timeout, .live⟩ else s.sess m :=
  Function.update_apply ..

theorem sessionTimer_allocate (s : State) (tid : ℕ) (timeout : Bool) (m : ℕ) :
    (s.allocate tid timeout).sessionTimer m =
      if m = s.next then ⟨false, false⟩ else s.sessionTimer m :=
  Function.update_apply ..

theorem reorderTimer_allocate (s : State) (tid : ℕ) (timeout : Bool) (m : ℕ) :
    (s.allocate tid timeout).reorderTimer m =
      if m = s.next then ⟨false, .idle⟩ else s.reorderTimer m :=
  Function.update_apply ..

theorem tidRx_allocate (s : State) (tid : ℕ) (timeout : Bool) (t : ℕ) :
    (s.allocate tid timeout).tidRx t = if t = tid then some s.next else s.tidRx t :=
  Function.update_apply ..

/-! ### The invariant -/

/-- **The invariant of a station.** -/
structure Owned (s : State) : Prop where
  unborn : ∀ n, s.next ≤ n → (s.sess n).phase = .unborn
  pub : ∀ t n, s.tidRx t = some n →
    (s.sess n).phase = .live ∧ (s.sess n).tid = t ∧ t < staTidNum
  live : ∀ n, (s.sess n).phase = .live → s.tidRx (s.sess n).tid = some n
  /-- one session at a time is being stopped, and its TID has no other -/
  stopping : ∀ n, (s.sess n).phase.stopping = true → s.stop = some n
  stopped : ∀ n, s.stop = some n → s.tidRx (s.sess n).tid = none
  stopper : s.stop ≠ none → s.mgmt.target ≠ none ∨ s.work.inMtx = true
  mtx : s.mgmt.inMtx = true → s.work.inMtx = false
  published : ∀ n timeout, s.mgmt = .published n timeout → (s.sess n).phase = .live
  addba : ∀ t timeout, s.mgmt = .addba t timeout → t < staTidNum
  rx : ∀ n, s.rx.session = some n → (s.sess n).phase ≠ .unborn ∧ (s.sess n).phase ≠ .freed
  /-- a callback finds no other session than its own -/
  callback : ∀ n m, (s.reorderTimer n).callback = .loaded m → m = n
  sessionOff : ∀ n, (s.sess n).phase.sessionOff = true → s.sessionTimer n = ⟨false, false⟩
  reorderOff : ∀ n, (s.sess n).phase.reorderOff = true → s.reorderTimer n = ⟨false, .idle⟩
  cancelled : s.mgmt.cancelled = true → s.workQueued = false ∧ s.work = .idle
  tornDown : ∀ t < s.mgmt.tornDown, s.tidRx t = none

variable {s t : State} {a : Act} {n : ℕ}

theorem Phase.reorderOff_of_sessionOff {p : Phase} (h : p.sessionOff = false) :
    p.reorderOff = false := by
  cases p <;> first | rfl | cases h

theorem owned_start : Owned start :=
  ⟨fun _ _ => rfl, nofun, nofun, nofun, nofun, fun h => absurd rfl h, nofun, nofun, nofun, nofun,
    nofun, fun _ _ => rfl, fun _ _ => rfl, nofun, fun _ _ => rfl⟩

namespace Owned

/-! ### The RX thread and the timers -/

theorem setRx (h : Owned s) {rx : RxPc} (hrx : ∀ n, rx.session = some n →
    (s.sess n).phase ≠ .unborn ∧ (s.sess n).phase ≠ .freed) : Owned { s with rx := rx } :=
  { h with rx := hrx }

theorem setSessionTimer (h : Owned s) {tm : SessionTimer}
    (htm : (s.sess n).phase.sessionOff = true → tm = ⟨false, false⟩) :
    Owned (s.setSessionTimer n tm) := by
  refine { h with sessionOff := fun m hm => ?_ }
  change Function.update s.sessionTimer n tm m = _
  by_cases hmn : m = n
  · subst hmn
    rw [Function.update_self]
    exact htm hm
  · rw [Function.update_of_ne hmn]
    exact h.sessionOff m hm

theorem setReorderTimer (h : Owned s) {tm : ReorderTimer}
    (htm : (s.sess n).phase.reorderOff = true → tm = ⟨false, .idle⟩)
    (hown : ∀ m, tm.callback = .loaded m → m = n) : Owned (s.setReorderTimer n tm) := by
  refine { h with callback := fun k m hm => ?_, reorderOff := fun m hm => ?_ }
  · change (Function.update s.reorderTimer n tm k).callback = _ at hm
    by_cases hkn : k = n
    · subst hkn
      rw [Function.update_self] at hm
      exact hown m hm
    · rw [Function.update_of_ne hkn] at hm
      exact h.callback k m hm
  · change Function.update s.reorderTimer n tm m = _
    by_cases hmn : m = n
    · subst hmn
      rw [Function.update_self]
      exact htm hm
    · rw [Function.update_of_ne hmn]
      exact h.reorderOff m hm

theorem session_on (h : Owned s)
    (hon : (s.sessionTimer n).armed = true ∨ (s.sessionTimer n).running = true) :
    (s.sess n).phase.sessionOff = false := by
  cases hoff : (s.sess n).phase.sessionOff with
  | false => rfl
  | true =>
    rw [h.sessionOff n hoff] at hon
    rcases hon with hon | hon <;> cases hon

theorem reorder_on (h : Owned s)
    (hon : (s.reorderTimer n).armed = true ∨ (s.reorderTimer n).callback ≠ .idle) :
    (s.sess n).phase.reorderOff = false := by
  cases hoff : (s.sess n).phase.reorderOff with
  | false => rfl
  | true =>
    rw [h.reorderOff n hoff] at hon
    rcases hon with hon | hon
    · cases hon
    · exact absurd rfl hon

theorem alone (h : Owned s) (hon : (s.sess n).phase.reorderOff = false) {m : ℕ}
    (hm : s.tidRx (s.sess n).tid = some m) : m = n := by
  cases hphase : (s.sess n).phase with
  | live =>
    rw [h.live n hphase] at hm
    exact (Option.some.inj hm).symm
  | cleared | sessionDeleted =>
    have hstop := h.stopping n (by rw [hphase]; rfl)
    rw [h.stopped n hstop] at hm
    cases hm
  | unborn | reorderDeleted | rcu | freed =>
    rw [hphase] at hon
    cases hon

/-- **A callback finds its own session.** -/
theorem load (h : Owned s) (hpc : (s.reorderTimer n).callback = .entered) {m : ℕ}
    (hm : s.tidRx (s.sess n).tid = some m) : m = n :=
  h.alone (h.reorder_on (Or.inr (by rw [hpc]; nofun))) hm

/-! ### The work and the holder of `sta_mtx` -/

theorem queue (h : Owned s) (hc : s.mgmt.cancelled = false) (expired : ℕ → Bool) :
    Owned { s with expired := expired, workQueued := true } := by
  refine { h with cancelled := fun hm => ?_ }
  change s.mgmt.cancelled = true at hm
  rw [hc] at hm
  cases hm

theorem not_cancelled (h : Owned s) (hw : s.workQueued = true ∨ s.work ≠ .idle) :
    s.mgmt.cancelled = false := by
  cases hc : s.mgmt.cancelled with
  | false => rfl
  | true =>
    rw [(h.cancelled hc).1, (h.cancelled hc).2] at hw
    rcases hw with hw | hw
    · cases hw
    · exact absurd rfl hw

theorem setWork (h : Owned s) (hw : s.workQueued = true ∨ s.work ≠ .idle) (queued : Bool)
    {work : WorkPc} (hstop : s.stop ≠ none → s.work.inMtx = true → work.inMtx = true)
    (hmtx : s.mgmt.inMtx = true → s.work.inMtx = false → work.inMtx = false) :
    Owned { s with workQueued := queued, work := work } := by
  refine { h with
    stopper := fun hne => (h.stopper hne).imp_right (hstop hne)
    mtx := fun hm => hmtx hm (h.mtx hm)
    cancelled := fun hm => ?_ }
  change s.mgmt.cancelled = true at hm
  rw [h.not_cancelled hw] at hm
  cases hm

/-- The holder of `sta_mtx` moves on, without a session in its hands. -/
theorem setMgmt (h : Owned s) {mgmt : MgmtPc}
    (hstop : s.stop = none ∨ s.mgmt.target = none)
    (hmtx : mgmt.inMtx = true → s.work.inMtx = false)
    (hpub : ∀ n timeout, mgmt ≠ .published n timeout)
    (haddba : ∀ t timeout, mgmt = .addba t timeout → t < staTidNum)
    (hcancel : mgmt.cancelled = true → s.workQueued = false ∧ s.work = .idle)
    (htorn : ∀ t < mgmt.tornDown, s.tidRx t = none) : Owned { s with mgmt := mgmt } := by
  refine { h with
    stopper := fun hne => ?_
    mtx := hmtx
    published := fun n timeout hm => absurd hm (hpub n timeout)
    addba := haddba
    cancelled := hcancel
    tornDown := htorn }
  rcases hstop with hstop | htarget
  · exact absurd hstop hne
  · exact (h.stopper hne).imp_left fun hne' => absurd htarget hne'

theorem not_inMtx (hfree : s.mtxFree = true) : s.mgmt.inMtx = false ∧ s.work.inMtx = false := by
  rw [State.mtxFree, Bool.and_eq_true, Bool.not_eq_true', Bool.not_eq_true'] at hfree
  exact hfree

/-! ### The teardown of a session -/

/-- **The pointer is cleared**, by whoever holds the mutex. -/
theorem clear (h : Owned s) {tid : ℕ} (hstop : s.stop = none)
    (hholder : s.mgmt.target ≠ none ∨ s.work.inMtx = true) : Owned (s.clear tid) := by
  unfold State.clear
  split
  · exact h
  next n htid =>
  obtain ⟨hlive, htidn, hlt⟩ := h.pub tid n htid
  refine ⟨?_, ?_, ?_, ?_, ?_, fun _ => hholder, h.mtx, ?_, h.addba, ?_, h.callback, ?_, ?_,
    h.cancelled, ?_⟩
  all_goals simp only [phase_setPhase, tid_setPhase]
  · intro m hm
    split_ifs with hmn
    · have := h.unborn m hm
      rw [hmn, hlive] at this
      cases this
    · exact h.unborn m hm
  · intro t m hm
    by_cases ht : t = tid
    · rw [ht, Function.update_self] at hm
      cases hm
    · rw [Function.update_of_ne ht] at hm
      have hmn : m ≠ n := by
        rintro rfl
        exact ht ((h.pub t m hm).2.1.symm.trans htidn)
      rw [if_neg hmn]
      exact h.pub t m hm
  · intro m hm
    split_ifs at hm with hmn
    rw [Function.update_of_ne]
    · exact h.live m hm
    · intro htm
      have := h.live m hm
      rw [htm, htid] at this
      exact hmn (Option.some.inj this).symm
  · intro m hm
    split_ifs at hm with hmn
    · rw [hmn]
    · have := h.stopping m hm
      rw [hstop] at this
      cases this
  · rintro m ⟨⟩
    rw [htidn, Function.update_self]
  · intro m timeout hm
    -- the session that is just being set up cannot be stopped
    rcases hholder with htarget | hwork
    · rw [show s.mgmt = _ from hm] at htarget
      exact absurd rfl htarget
    · have := h.mtx (by rw [show s.mgmt = _ from hm]; rfl)
      rw [hwork] at this
      cases this
  · intro m hm
    split_ifs
    · exact ⟨nofun, nofun⟩
    · exact h.rx m hm
  · intro m hm
    split_ifs at hm
    · cases hm
    · exact h.sessionOff m hm
  · intro m hm
    split_ifs at hm
    · cases hm
    · exact h.reorderOff m hm
  · intro t ht
    by_cases heq : t = tid
    · rw [heq, Function.update_self]
    · rw [Function.update_of_ne heq]
      exact h.tornDown t ht

theorem setPhase (h : Owned s) (n : ℕ) (p : Phase) (stop : Option ℕ)
    (hborn : (s.sess n).phase ≠ .unborn) (hlive : (s.sess n).phase ≠ .live)
    (hp : p ≠ .unborn ∧ p ≠ .live)
    (hstop : stop = s.stop ∨ stop = none ∧ s.stop = some n)
    (hstopping : p.stopping = true → stop = some n)
    (hsession : p.sessionOff = true → s.sessionTimer n = ⟨false, false⟩)
    (hreorder : p.reorderOff = true → s.reorderTimer n = ⟨false, .idle⟩)
    (hrx : p = .freed → s.rx.session ≠ some n) :
    Owned { s.setPhase n p with stop := stop } := by
  have hle : ∀ m, stop = some m → s.stop = some m := by
    intro m hm
    rcases hstop with rfl | ⟨rfl, -⟩
    · exact hm
    · cases hm
  refine ⟨?_, ?_, ?_, ?_, ?_, ?_, h.mtx, ?_, h.addba, ?_, h.callback, ?_, ?_, h.cancelled,
    h.tornDown⟩
  all_goals simp only [phase_setPhase, tid_setPhase]
  · intro m hm
    split_ifs with hmn
    · have := h.unborn m hm
      rw [hmn] at this
      exact absurd this hborn
    · exact h.unborn m hm
  · intro t m hm
    have hpub := h.pub t m hm
    have hmn : m ≠ n := by
      rintro rfl
      exact hlive hpub.1
    rw [if_neg hmn]
    exact hpub
  · intro m hm
    split_ifs at hm
    · exact absurd hm hp.2
    · exact h.live m hm
  · intro m hm
    split_ifs at hm with hmn
    · rw [hmn]
      exact hstopping hm
    · have hm' := h.stopping m hm
      rcases hstop with rfl | ⟨-, hn⟩
      · exact hm'
      · rw [hn] at hm'
        exact absurd (Option.some.inj hm').symm hmn
  · intro m hm
    exact h.stopped m (hle m hm)
  · intro hne
    obtain ⟨m, hm⟩ := Option.ne_none_iff_exists'.mp hne
    exact h.stopper (by rw [hle m hm]; nofun)
  · intro m timeout hm
    have hm' := h.published m timeout hm
    have hmn : m ≠ n := by
      rintro rfl
      exact hlive hm'
    rw [if_neg hmn]
    exact hm'
  · intro m hm
    split_ifs with hmn
    · refine ⟨hp.1, fun hf => hrx hf ?_⟩
      rw [← hmn]
      exact hm
    · exact h.rx m hm
  · intro m hm
    split_ifs at hm with hmn
    · rw [hmn]
      exact hsession hm
    · exact h.sessionOff m hm
  · intro m hm
    split_ifs at hm with hmn
    · rw [hmn]
      exact hreorder hm
    · exact h.reorderOff m hm

/-- **A session is set up and published.** -/
theorem allocate (h : Owned s) {tid : ℕ} {timeout : Bool} (hpc : s.mgmt = .addba tid timeout)
    (hstop : s.stop = none) (htid : s.tidRx tid = none) :
    Owned { s.allocate tid timeout with mgmt := .published s.next timeout } := by
  have hnext := h.unborn s.next (Nat.le_refl _)
  refine ⟨?_, ?_, ?_, ?_, ?_, ?_, fun _ => h.mtx (by rw [hpc]; rfl), ?_, nofun, ?_, ?_, ?_, ?_,
    nofun, nofun⟩
  all_goals
    simp only [sess_allocate, sessionTimer_allocate, reorderTimer_allocate, tidRx_allocate]
  · intro m hm
    change s.next + 1 ≤ m at hm
    rw [if_neg (by omega)]
    exact h.unborn m (by omega)
  · intro t m hm
    split_ifs at hm with ht
    · obtain rfl := Option.some.inj hm
      rw [if_pos rfl]
      exact ⟨rfl, ht.symm, ht ▸ h.addba _ _ hpc⟩
    · have hpub := h.pub t m hm
      rw [if_neg]
      · exact hpub
      · rintro rfl
        rw [hnext] at hpub
        cases hpub.1
  · intro m hm
    by_cases hmn : m = s.next
    · rw [if_pos hmn, if_pos rfl, hmn]
    · rw [if_neg hmn] at hm ⊢
      have hlive := h.live m hm
      rw [if_neg]
      · exact hlive
      · intro htm
        rw [htm, htid] at hlive
        cases hlive
  · intro m hm
    split_ifs at hm
    · cases hm
    · exact h.stopping m hm
  · intro m hm
    change s.stop = some m at hm
    rw [hstop] at hm
    cases hm
  · intro hne
    exact absurd hstop hne
  · rintro m _ ⟨⟩
    rw [if_pos rfl]
  · intro m hm
    have hrx := h.rx m hm
    rw [if_neg]
    · exact hrx
    · rintro rfl
      exact hrx.1 hnext
  · intro k m hm
    split_ifs at hm
    exact h.callback k m hm
  · intro m hm
    split_ifs with hmn
    · rfl
    · rw [if_neg hmn] at hm
      exact h.sessionOff m hm
  · intro m hm
    split_ifs with hmn
    · rfl
    · rw [if_neg hmn] at hm
      exact h.reorderOff m hm

end Owned

end Atbm6441.Agg
