import Atbm6441.Wsm.Event.Model

/-!
# No event is lost between the push and the splice

The RX thread queues the handler's work only for an event that it has put into an empty queue.
`events_delivered` : all the same the events are dispatched in the order in which they were queued,
none twice, and whenever there are events in the queue the handler is about to take them; in a fair
run each of them is dispatched.
-/

namespace Atbm6441.Wsm.Event

open Atbm6441.Lib Atbm6441.Wsm.Rx

variable {s t : State} {a : Act}

theorem indication_eq (h : Host) (interfaceLinkId : ℕ) {vif : Option Bool}
    (hvif : h.vif interfaceLinkId = hwprivToVifpriv vif interfaceLinkId) :
    (wsmEventIndication vif h.alloc interfaceLinkId >>= fun _ => return 0) =
      Rx.wsmEventIndication h interfaceLinkId := by
  unfold wsmEventIndication Rx.wsmEventIndication
  rw [hvif]
  refine (Get.bind_assoc _ _ _).trans (congrArg (Get.num 4 >>= ·) (funext fun eventid => ?_))
  split_ifs <;> rfl

theorem event_spec {m : Message} {vif : Option Bool} {e : AtbmWsmEvent}
    (h : m.indication vif = some (.event e)) :
    e.eventId ∈ hostEvents ∨ hwprivToVifpriv vif e.ifId ≠ none := by
  have hlink : m.interfaceLinkId % 256 = m.interfaceLinkId := by
    have hle : m.interfaceLinkId ≤ 0xf := Nat.and_le_right
    omega
  unfold Message.indication wsmEventIndication at h
  simp only [Get.num, Get.bytes, Get.get_bind, Get.done_bind, Get.pure_eq, Get.run] at h
  split_ifs at h with hfit hvif hcredits halloc
  · cases h
  · simp only [Get.run] at h
    split_ifs at h
    cases h
  · simp only [Get.run] at h
    split_ifs at h
    · obtain rfl := Indication.event.inj (Option.some.inj h)
      refine (Classical.em _).imp_right fun hid => ?_
      have hsome : hwprivToVifpriv vif m.interfaceLinkId = some true := by
        by_contra hne
        exact hvif ⟨hid, hne⟩
      show hwprivToVifpriv vif (m.interfaceLinkId % 256) ≠ none
      rw [hlink, hsome]
      exact Option.some_ne_none _
  · cases h

/-! ### Steps -/

/-- **What a step does.** -/
theorem step_cases (h : s.step a = some t) :
    (∃ m, a = .indicate m ∧ s.rx = .idle ∧
      ((∃ e, m.indication s.vif = some (.event e) ∧ t = { s with rx := .push e }) ∨
        ∃ hwXmits, t = { s with hwXmits := hwXmits })) ∨
    (∃ e, a = .push ∧ s.rx = .push e ∧ t = { s with
      eventQueue := s.eventQueue ++ [e]
      rx := if s.eventQueue.isEmpty then .queueWork else .idle
      queued := s.queued ++ [e] }) ∨
    (a = .queueWork ∧ s.rx = .queueWork ∧ t = { s with rx := .idle, pending := true }) ∨
    (∃ specified, a = .interface specified ∧ t = { s with vif := some specified }) ∨
    (a = .start ∧ s.handler = .idle ∧ s.pending = true ∧
      t = { s with handler := .splice, pending := false }) ∨
    (a = .splice ∧ s.handler = .splice ∧
      t = { s with eventQueue := [], handler := .dispatch s.eventQueue }) ∨
    (∃ e list, a = .dispatch ∧ s.handler = .dispatch (e :: list) ∧ t = s.dispatch e list) ∨
    (a = .finish ∧ s.handler = .dispatch [] ∧ t = { s with handler := .idle }) := by
  cases a with
  | indicate m =>
    refine Or.inl ⟨m, rfl, ?_⟩
    unfold State.step at h
    dsimp only at h
    split at h
    · next hrx =>
      refine ⟨hrx, ?_⟩
      split at h
      · next e he => exact Or.inl ⟨e, he, (Option.some.inj h).symm⟩
      · next v _ => exact Or.inr ⟨v, (Option.some.inj h).symm⟩
      all_goals exact Or.inr ⟨s.hwXmits, (Option.some.inj h).symm⟩
    · cases h
  | push =>
    refine Or.inr (Or.inl ?_)
    unfold State.step at h
    dsimp only at h
    split at h
    · next e hrx => exact ⟨e, rfl, hrx, (Option.some.inj h).symm⟩
    · cases h
  | queueWork =>
    refine Or.inr (Or.inr (Or.inl ?_))
    unfold State.step at h
    dsimp only at h
    split at h
    · next hrx => exact ⟨rfl, hrx, (Option.some.inj h).symm⟩
    · cases h
  | interface specified =>
    exact Or.inr (Or.inr (Or.inr (Or.inl ⟨specified, rfl, (Option.some.inj h).symm⟩)))
  | start =>
    refine Or.inr (Or.inr (Or.inr (Or.inr (Or.inl ?_))))
    unfold State.step at h
    dsimp only at h
    split at h
    · next hpc hpending => exact ⟨rfl, hpc, hpending, (Option.some.inj h).symm⟩
    · cases h
  | splice =>
    refine Or.inr (Or.inr (Or.inr (Or.inr (Or.inr (Or.inl ?_)))))
    unfold State.step at h
    dsimp only at h
    split at h
    · next hpc => exact ⟨rfl, hpc, (Option.some.inj h).symm⟩
    · cases h
  | dispatch =>
    refine Or.inr (Or.inr (Or.inr (Or.inr (Or.inr (Or.inr (Or.inl ?_))))))
    unfold State.step at h
    dsimp only at h
    split at h
    · next e list hpc => exact ⟨e, list, rfl, hpc, (Option.some.inj h).symm⟩
    · cases h
  | finish =>
    refine Or.inr (Or.inr (Or.inr (Or.inr (Or.inr (Or.inr (Or.inr ?_))))))
    unfold State.step at h
    dsimp only at h
    split at h
    · next hpc => exact ⟨rfl, hpc, (Option.some.inj h).symm⟩
    · cases h

/-! ### What is kept -/

/-- The events that the handler has taken and not yet come to. -/
def HandlerPc.list : HandlerPc → List AtbmWsmEvent
  | .dispatch list => list
  | .idle | .splice => []

/-- **The handler will come**: its work is pending, or it is before its splice, or the RX thread is
before `queue_work`. -/
def State.Covered (s : State) : Prop :=
  s.pending = true ∨ s.handler = .splice ∨ s.rx = .queueWork

/-- The events are somewhere, in their order. -/
structure Inv (s : State) : Prop where
  order : s.queued = s.dispatched ++ s.handler.list ++ s.eventQueue
  covered : s.eventQueue ≠ [] → s.Covered
  known : ∀ e ∈ s.handler.list ++ s.eventQueue, s.Known e
  pushed : ∀ e, s.rx = .push e → s.Known e

theorem inv_init (h : system.init s) : Inv s := by
  obtain ⟨hqueue, hpending, hrx, hpc, hqueued, hdispatched⟩ := h
  refine ⟨?_, fun hne => absurd hqueue hne, ?_, ?_⟩
  · rw [hqueued, hdispatched, hpc, hqueue]
    rfl
  · rw [hpc, hqueue]
    exact fun e he => absurd he List.not_mem_nil
  · rw [hrx]
    exact nofun

theorem State.Covered.of_rx (h : s.Covered) (hrx : s.rx ≠ .queueWork) :
    s.pending = true ∨ s.handler = .splice := by
  rcases h with h | h | h
  · exact Or.inl h
  · exact Or.inr h
  · exact absurd h hrx

theorem State.Covered.of_handler (h : s.Covered) (hpc : s.handler ≠ .splice) :
    s.pending = true ∨ s.rx = .queueWork := by
  rcases h with h | h | h
  · exact Or.inl h
  · exact absurd h hpc
  · exact Or.inr h

theorem Inv.store (h : Inv s) {m : Message} {e : AtbmWsmEvent} (hrx : s.rx = .idle)
    (he : m.indication s.vif = some (.event e)) : Inv { s with rx := .push e } where
  order := h.order
  covered hne := by
    rcases (h.covered hne).of_rx (by rw [hrx]; exact nofun) with hp | hp
    · exact Or.inl hp
    · exact Or.inr (Or.inl hp)
  known := h.known
  pushed f hf := by
    obtain rfl := RxPc.push.inj hf
    exact event_spec he

/-- **The push**: if the queue was not empty, someone was to come for what was in it. -/
theorem Inv.push (h : Inv s) {e : AtbmWsmEvent} (hrx : s.rx = .push e) :
    Inv { s with
      eventQueue := s.eventQueue ++ [e]
      rx := if s.eventQueue.isEmpty then .queueWork else .idle
      queued := s.queued ++ [e] } where
  order := by
    show s.queued ++ [e] = s.dispatched ++ s.handler.list ++ (s.eventQueue ++ [e])
    rw [h.order, List.append_assoc]
  covered _ := by
    show s.pending = true ∨ s.handler = .splice ∨
      (if s.eventQueue.isEmpty then RxPc.queueWork else .idle) = .queueWork
    by_cases hempty : s.eventQueue.isEmpty
    · exact Or.inr (Or.inr (if_pos hempty))
    · have hne : s.eventQueue ≠ [] := fun h => hempty (h ▸ rfl)
      rcases (h.covered hne).of_rx (by rw [hrx]; exact nofun) with hp | hp
      · exact Or.inl hp
      · exact Or.inr (Or.inl hp)
  known f hf := by
    rw [← List.append_assoc] at hf
    rcases List.mem_append.mp hf with hf | hf
    · exact h.known f hf
    · rw [List.mem_singleton.mp hf]
      exact h.pushed e hrx
  pushed f hf := by
    have hidle : (if s.eventQueue.isEmpty then RxPc.queueWork else .idle) = .push f := hf
    split_ifs at hidle

theorem Inv.interface (h : Inv s) (specified : Bool) : Inv { s with vif := some specified } := by
  have hkept : ∀ e, s.Known e → State.Known { s with vif := some specified } e := by
    intro e he
    refine he.imp_right fun hvif => ?_
    unfold hwprivToVifpriv at hvif ⊢
    split_ifs at hvif ⊢
    · exact absurd rfl hvif
    · exact Option.some_ne_none _
  exact ⟨h.order, h.covered, fun e he => hkept e (h.known e he),
    fun e he => hkept e (h.pushed e he)⟩

/-- The handler takes all events, so that no one has to come for them. -/
theorem Inv.splice (h : Inv s) (hpc : s.handler = .splice) :
    Inv { s with eventQueue := [], handler := .dispatch s.eventQueue } where
  order := by
    show s.queued = s.dispatched ++ s.eventQueue ++ []
    rw [h.order, hpc]
    simp [HandlerPc.list]
  covered hne := absurd rfl hne
  known e he := h.known e (by
    rw [hpc]
    exact (List.append_nil s.eventQueue).symm ▸ he)
  pushed := h.pushed

theorem Inv.dispatch (h : Inv s) {e : AtbmWsmEvent} {list : List AtbmWsmEvent}
    (hpc : s.handler = .dispatch (e :: list)) : Inv (s.dispatch e list) := by
  have he : s.Known e := h.known e (by rw [hpc]; exact List.mem_cons_self)
  unfold State.dispatch
  rw [if_pos he]
  refine ⟨?_, fun hne => ?_, fun f hf => h.known f ?_, h.pushed⟩
  · show s.queued = s.dispatched ++ [e] ++ list ++ s.eventQueue
    rw [h.order, hpc]
    simp [HandlerPc.list]
  · rcases (h.covered hne).of_handler (by rw [hpc]; exact nofun) with hp | hp
    · exact Or.inl hp
    · exact Or.inr (Or.inr hp)
  · rw [hpc]
    exact List.mem_cons_of_mem e hf

theorem Inv.finish (h : Inv s) (hpc : s.handler = .dispatch []) :
    Inv { s with handler := .idle } where
  order := by
    have horder := h.order
    rw [hpc] at horder
    exact horder
  covered hne := by
    rcases (h.covered hne).of_handler (by rw [hpc]; exact nofun) with hp | hp
    · exact Or.inl hp
    · exact Or.inr (Or.inr hp)
  known e he := h.known e (by
    rw [hpc]
    exact he)
  pushed := h.pushed

/-- **Every step keeps it.** -/
theorem Inv.step (h : Inv s) (ht : s.step a = some t) : Inv t := by
  obtain ⟨m, rfl, hrx, ⟨e, he, rfl⟩ | ⟨hwXmits, rfl⟩⟩ | ⟨e, rfl, hrx, rfl⟩ | ⟨rfl, hrx, rfl⟩ |
    ⟨specified, rfl, rfl⟩ | ⟨rfl, hpc, hpending, rfl⟩ | ⟨rfl, hpc, rfl⟩ |
    ⟨e, list, rfl, hpc, rfl⟩ | ⟨rfl, hpc, rfl⟩ := step_cases ht
  · exact h.store hrx he
  · exact ⟨h.order, h.covered, h.known, h.pushed⟩
  · exact h.push hrx
  · exact ⟨h.order, fun _ => Or.inl rfl, h.known, nofun⟩
  · exact h.interface specified
  -- the handler starts, and is before its splice
  · obtain ⟨horder, -, hknown, hpushed⟩ := h
    rw [hpc] at horder hknown
    exact ⟨horder, fun _ => Or.inr (Or.inl rfl), hknown, hpushed⟩
  · exact h.splice hpc
  · exact h.dispatch hpc
  · exact h.finish hpc

theorem inv_of_reach (h : Reach system (fun _ _ => True) s) : Inv s :=
  h.inv (fun _ => inv_init) fun _ _ _ hi _ ht => hi.step ht

/-! ### Progress -/

/-- The handler's work can take a step. -/
def State.Ready (s : State) : Prop := s.handler ≠ .idle ∨ s.pending = true

theorem State.Ready.enabled (h : s.Ready) : ∃ a, a.isHandler = true ∧ s.step a ≠ none := by
  rcases hpc : s.handler with _ | _ | ⟨_ | ⟨e, list⟩⟩
  · rcases h with h | h
    · exact absurd hpc h
    · refine ⟨.start, rfl, ?_⟩
      unfold State.step
      rw [hpc, h]
      exact Option.some_ne_none _
  · refine ⟨.splice, rfl, ?_⟩
    unfold State.step
    rw [hpc]
    exact Option.some_ne_none _
  · refine ⟨.finish, rfl, ?_⟩
    unfold State.step
    rw [hpc]
    exact Option.some_ne_none _
  · refine ⟨.dispatch, rfl, ?_⟩
    unfold State.step
    rw [hpc]
    exact Option.some_ne_none _

theorem other_cases (ha : a.isHandler = false) (h : s.step a = some t) :
    t.handler = s.handler ∧ t.dispatched = s.dispatched ∧
      (s.pending = true → t.pending = true) := by
  obtain ⟨m, rfl, -, ⟨e, -, rfl⟩ | ⟨hwXmits, rfl⟩⟩ | ⟨e, rfl, -, rfl⟩ | ⟨rfl, -, rfl⟩ |
    ⟨specified, rfl, rfl⟩ | ⟨rfl, -⟩ | ⟨rfl, -⟩ | ⟨e, list, rfl, -⟩ | ⟨rfl, -⟩ := step_cases h
  · exact ⟨rfl, rfl, id⟩
  · exact ⟨rfl, rfl, id⟩
  · exact ⟨rfl, rfl, id⟩
  · exact ⟨rfl, rfl, fun _ => rfl⟩
  · exact ⟨rfl, rfl, id⟩
  all_goals cases ha

theorem dispatch_frame (s : State) (e : AtbmWsmEvent) (list : List AtbmWsmEvent) :
    (s.dispatch e list).queued = s.queued ∧ (s.dispatch e list).rx = s.rx ∧
      (s.dispatch e list).handler = .dispatch list := by
  unfold State.dispatch
  split_ifs
  · exact ⟨rfl, rfl, rfl⟩
  · exact ⟨rfl, rfl, rfl⟩

theorem step_frame (h : s.step a = some t) :
    s.queued <+: t.queued ∧ (s.rx = .queueWork → a ≠ .queueWork → t.rx = .queueWork) := by
  obtain ⟨m, rfl, hrx, ⟨e, -, rfl⟩ | ⟨hwXmits, rfl⟩⟩ | ⟨e, rfl, hrx, rfl⟩ | ⟨rfl, -, rfl⟩ |
    ⟨specified, rfl, rfl⟩ | ⟨rfl, -, -, rfl⟩ | ⟨rfl, -, rfl⟩ | ⟨e, list, rfl, -, rfl⟩ |
    ⟨rfl, -, rfl⟩ := step_cases h
  · refine ⟨List.prefix_rfl, fun h => ?_⟩
    rw [hrx] at h
    cases h
  · exact ⟨List.prefix_rfl, fun h _ => h⟩
  · refine ⟨List.prefix_append _ _, fun h => ?_⟩
    rw [hrx] at h
    cases h
  · exact ⟨List.prefix_rfl, fun _ hne => absurd rfl hne⟩
  · exact ⟨List.prefix_rfl, fun h _ => h⟩
  · exact ⟨List.prefix_rfl, fun h _ => h⟩
  · exact ⟨List.prefix_rfl, fun h _ => h⟩
  · obtain ⟨hqueued, hrx, -⟩ := dispatch_frame s e list
    rw [hqueued, hrx]
    exact ⟨List.prefix_rfl, fun h _ => h⟩
  · exact ⟨List.prefix_rfl, fun h _ => h⟩

theorem queueWork_enabled (h : s.rx = .queueWork) : s.step .queueWork ≠ none := by
  unfold State.step
  rw [h]
  exact Option.some_ne_none _

theorem queueWork_pending (h : s.step .queueWork = some t) : t.pending = true := by
  unfold State.step at h
  dsimp only at h
  split at h
  · obtain rfl := Option.some.inj h
    rfl
  · cases h

/-- The `k`-th event is queued and not dispatched. -/
def State.Waits (s : State) (k : ℕ) : Prop := s.dispatched.length ≤ k ∧ k < s.queued.length

/-- How many steps of the handler's work there are up to the next splice. -/
def HandlerPc.toSplice : HandlerPc → ℕ
  | .splice => 1
  | .idle => 2
  | .dispatch _ => 3

/-- How many there are up to the `k`-th event, less those for events before it in `list`. -/
def State.toDispatch (s : State) (k : ℕ) : ℕ :=
  k - s.dispatched.length +
    if k < s.dispatched.length + s.handler.list.length then 0 else s.handler.toSplice

theorem State.toDispatch_of_lt {k : ℕ} (h : k < s.dispatched.length + s.handler.list.length) :
    s.toDispatch k = k - s.dispatched.length := by
  unfold State.toDispatch
  rw [if_pos h, Nat.add_zero]

theorem State.toDispatch_of_le {k : ℕ} (h : s.dispatched.length + s.handler.list.length ≤ k) :
    s.toDispatch k = k - s.dispatched.length + s.handler.toSplice := by
  unfold State.toDispatch
  rw [if_neg (Nat.not_lt.mpr h)]

theorem Inv.length_queued (h : Inv s) :
    s.queued.length = s.dispatched.length + s.handler.list.length + s.eventQueue.length := by
  rw [h.order, List.length_append, List.length_append]

theorem Inv.dispatch_length (h : Inv s) (ht : s.step .dispatch = some t) :
    t.dispatched.length = s.dispatched.length + 1 := by
  obtain ⟨m, ha, -⟩ | ⟨e, ha, -⟩ | ⟨ha, -⟩ | ⟨specified, ha, -⟩ | ⟨ha, -⟩ | ⟨ha, -⟩ |
    ⟨e, list, -, hpc, rfl⟩ | ⟨ha, -⟩ := step_cases ht
  iterate 6 cases ha
  · have he : s.Known e := h.known e (by rw [hpc]; exact List.mem_cons_self)
    unfold State.dispatch
    rw [if_pos he, List.length_append, List.length_singleton]
  · cases ha

theorem State.Waits.nearer {k : ℕ} (hw : s.Waits k) (h : Inv s) (ha : a.isHandler = true)
    (ht : s.step a = some t) (hno : ¬ (a = .dispatch ∧ s.dispatched.length = k)) :
    t.Waits k ∧ t.toDispatch k < s.toDispatch k := by
  obtain ⟨hle, hlt⟩ := hw
  have hlen := h.length_queued
  obtain ⟨m, rfl, -⟩ | ⟨e, rfl, -⟩ | ⟨rfl, -⟩ | ⟨specified, rfl, -⟩ | ⟨rfl, hpc, hpending, rfl⟩ |
    ⟨rfl, hpc, rfl⟩ | ⟨e, list, rfl, hpc, rfl⟩ | ⟨rfl, hpc, rfl⟩ := step_cases ht
  iterate 4 cases ha
  · refine ⟨⟨hle, hlt⟩, ?_⟩
    rw [State.toDispatch_of_le (s := s) (by rw [hpc]; exact hle), State.toDispatch_of_le hle, hpc]
    exact Nat.lt_succ_self _
  · refine ⟨⟨hle, hlt⟩, ?_⟩
    have hin : k < s.dispatched.length + s.eventQueue.length := by
      rw [hpc] at hlen
      simp only [HandlerPc.list, List.length_nil] at hlen
      omega
    rw [State.toDispatch_of_le (s := s) (by rw [hpc]; exact hle), State.toDispatch_of_lt hin, hpc]
    exact Nat.lt_succ_self _
  · have hne : s.dispatched.length ≠ k := fun heq => hno ⟨rfl, heq⟩
    have hmore := h.dispatch_length ht
    obtain ⟨hqueued, -, hlist⟩ := dispatch_frame s e list
    refine ⟨⟨by omega, hqueued ▸ hlt⟩, ?_⟩
    unfold State.toDispatch
    rw [hmore, hlist, hpc, HandlerPc.list, HandlerPc.list, List.length_cons,
      Nat.add_right_comm _ 1, ← Nat.add_assoc]
    show k - (s.dispatched.length + 1) + (if _ then 0 else 3) <
      k - s.dispatched.length + if _ then 0 else 3
    omega
  · refine ⟨⟨hle, hlt⟩, ?_⟩
    rw [State.toDispatch_of_le (s := s) (by rw [hpc]; exact hle), State.toDispatch_of_le hle, hpc]
    exact Nat.lt_succ_self _

/-- **A step of the handler's work comes nearer**, and no other step goes back. -/
theorem State.Waits.step {k : ℕ} (hw : s.Waits k) (h : Inv s) (ht : s.step a = some t)
    (hno : ¬ (a = .dispatch ∧ s.dispatched.length = k)) :
    t.Waits k ∧ t.toDispatch k ≤ s.toDispatch k ∧
      (a.isHandler = true → t.toDispatch k < s.toDispatch k) := by
  by_cases ha : a.isHandler = true
  · obtain ⟨hwaits, hnear⟩ := hw.nearer h ha ht hno
    exact ⟨hwaits, Nat.le_of_lt hnear, fun _ => hnear⟩
  · obtain ⟨hpc, hdispatched, -⟩ := other_cases (Bool.eq_false_iff.mpr ha) ht
    have hqueued := (step_frame ht).1.length_le
    unfold State.toDispatch
    rw [hpc, hdispatched]
    exact ⟨⟨hdispatched ▸ hw.1, Nat.lt_of_lt_of_le hw.2 hqueued⟩, Nat.le_refl _,
      fun h => absurd h ha⟩

section

variable {E : Execution system}

theorem inv_state (E : Execution system) (n : ℕ) : Inv (E.state n) :=
  inv_of_reach (E.reach (fun _ _ _ => trivial) n)

theorem State.Ready.taken (hhandler : E.Fair (·.isHandler)) {n : ℕ} (h : (E.state n).Ready) :
    ∃ m, n ≤ m ∧ E.Takes (·.isHandler) m := by
  refine hhandler.taken (fun m => (E.state m).Ready) h (fun m hm => hm.enabled) fun m _ hm hno => ?_
  rcases hl : E.label m with _ | a
  · rw [E.idle m hl]
    exact hm
  · have ha : a.isHandler = false := Bool.eq_false_iff.mpr fun h => hno ⟨a, hl, h⟩
    obtain ⟨hpc, -, hpending⟩ := other_cases ha (E.step m a hl)
    exact hm.imp (fun h => hpc ▸ h) hpending

/-- **As long as an event waits the handler goes on.** -/
theorem State.Waits.taken (hhandler : E.Fair (·.isHandler)) (hqueue : E.Fair (· = .queueWork))
    {n k : ℕ} (h : (E.state n).Waits k) : ∃ m, n ≤ m ∧ E.Takes (·.isHandler) m := by
  by_cases hready : (E.state n).Ready
  · exact hready.taken hhandler
  -- the handler is idle, and the RX thread is to queue it
  have hinv := inv_state E n
  have hpc : (E.state n).handler = .idle := by
    by_contra hne
    exact hready (Or.inl hne)
  have hrx : (E.state n).rx = .queueWork := by
    have hlen := hinv.length_queued
    have hwaits := h.2
    have hle := h.1
    rw [hpc] at hlen
    have hne : (E.state n).eventQueue ≠ [] := by
      intro hnil
      rw [hnil] at hlen
      simp only [HandlerPc.list, List.length_nil] at hlen
      omega
    rcases hinv.covered hne with hp | hp | hp
    · exact absurd (Or.inr hp) hready
    · rw [hpc] at hp
      cases hp
    · exact hp
  obtain ⟨m, hm, a, hl, rfl⟩ := hqueue.taken (fun m => (E.state m).rx = .queueWork) hrx
    (fun m hm => ⟨_, rfl, queueWork_enabled hm⟩) fun m _ hm hno => by
      rcases hl : E.label m with _ | a
      · rw [E.idle m hl]
        exact hm
      · exact (step_frame (E.step m a hl)).2 hm fun h => hno ⟨a, hl, h⟩
  obtain ⟨j, hj, htake⟩ := State.Ready.taken hhandler (n := m + 1)
    (Or.inr (queueWork_pending (E.step m _ hl)))
  exact ⟨j, by omega, htake⟩

theorem queued_grows (E : Execution system) {n m : ℕ} (h : n ≤ m) :
    (E.state n).queued <+: (E.state m).queued := by
  induction m, h using Nat.le_induction with
  | base => exact List.prefix_rfl
  | succ m _ ih =>
    rcases hl : E.label m with _ | a
    · rw [E.idle m hl]
      exact ih
    · exact ih.trans (step_frame (E.step m a hl)).1

/-- **An event that waits is dispatched**. -/
theorem State.Waits.dispatched (hhandler : E.Fair (·.isHandler)) (hqueue : E.Fair (· = .queueWork))
    {n k : ℕ} (h : (E.state n).Waits k) : ∃ m, n ≤ m ∧ k < (E.state m).dispatched.length := by
  obtain ⟨m, hm, hl, hlen⟩ := leadsTo (Q := fun m => (E.state m).Waits k)
    (A := E.Takes (·.isHandler))
    (G := fun m => E.label m = some .dispatch ∧ (E.state m).dispatched.length = k)
    (μ := fun m => (E.state m).toDispatch k) (fun m hw hno => by
      rcases hl : E.label m with _ | a
      · rw [E.idle m hl]
        refine ⟨hw, Nat.le_refl _, fun ⟨a, ha, _⟩ => ?_⟩
        rw [hl] at ha
        cases ha
      · obtain ⟨hwaits, hle, hlt⟩ := hw.step (inv_state E m) (E.step m a hl)
          fun h => hno ⟨h.1 ▸ hl, h.2⟩
        refine ⟨hwaits, hle, fun ⟨b, hb, hhandler⟩ => hlt ?_⟩
        obtain rfl := Option.some.inj (hl.symm.trans hb)
        exact hhandler) (fun m hw => hw.taken hhandler hqueue) h
  refine ⟨m + 1, Nat.le_succ_of_le hm, ?_⟩
  rw [(inv_state E m).dispatch_length (E.step m _ hl), hlen]
  exact Nat.lt_succ_self k

end

/-- **Every event is dispatched, once and in the order in which it was queued**: those dispatched,
those that the handler has taken and those in the queue are those queued, one after the other; when
there are events in the queue the handler will come; and in a run in which the work queue and the RX
thread do what they can all that was queued at any time is dispatched. -/
theorem events_delivered :
    (∀ s, Reach system (fun _ _ => True) s →
      s.queued = s.dispatched ++ s.handler.list ++ s.eventQueue ∧
        (s.eventQueue ≠ [] → s.Covered)) ∧
    ∀ E : Execution system, E.Fair (·.isHandler) → E.Fair (· = .queueWork) →
      ∀ n, ∃ m, n ≤ m ∧ (E.state n).queued <+: (E.state m).dispatched := by
  refine ⟨fun s hs => ⟨(inv_of_reach hs).order, (inv_of_reach hs).covered⟩,
    fun E hhandler hqueue n => ?_⟩
  -- the last of them is the one to wait for
  obtain ⟨m, hm, hlen⟩ : ∃ m, n ≤ m ∧
      (E.state n).queued.length ≤ (E.state m).dispatched.length := by
    by_cases hle : (E.state n).queued.length ≤ (E.state n).dispatched.length
    · exact ⟨n, Nat.le_refl n, hle⟩
    · have hwaits : (E.state n).Waits ((E.state n).queued.length - 1) := ⟨by omega, by omega⟩
      obtain ⟨m, hm, hlt⟩ := hwaits.dispatched hhandler hqueue
      exact ⟨m, hm, by omega⟩
  refine ⟨m, hm, List.prefix_of_prefix_length_le (queued_grows E hm) ?_ hlen⟩
  rw [(inv_state E m).order, List.append_assoc]
  exact List.prefix_append _ _

/-! ### A run -/

/-- The event `WSM_EVENT_HOST_RMMOD`. -/
def rmmod : Message where
  mem i := if i = 4 then 10 else 0
  len := 512
  id := 0x0805
  alloc := true

/-- The interface is there, and nothing has come. -/
def quiet : State := ⟨some true, 0, [], false, .idle, .idle, [], []⟩

/-- A second event comes between the start of the handler and its splice, a third one after that. -/
def threeEvents : List Act :=
  [.indicate rmmod, .push, .queueWork, .start, .indicate rmmod, .push, .splice, .indicate rmmod,
    .push, .dispatch, .queueWork, .dispatch, .finish, .start, .splice, .dispatch, .finish]

theorem events_delivered_three : ∃ E : Execution system, (E.state 9).queued.length = 3 ∧
    ∃ m, 9 ≤ m ∧ (E.state 9).queued <+: (E.state m).dispatched := by
  have hquiet : system.init quiet := ⟨rfl, rfl, rfl, rfl, rfl, rfl⟩
  have hrun : exec system quiet threeEvents = some _ := rfl
  refine ⟨.ofRun hquiet (.of_exec hrun), rfl, ?_⟩
  refine events_delivered.2 (.ofRun hquiet (.of_exec hrun))
    (Execution.fair_ofRun hquiet (.of_exec hrun) hrun fun a ha => ?_)
    (Execution.fair_ofRun hquiet (.of_exec hrun) hrun ?_) 9
  · rcases a with _ | _ | _ | _ | _ | _ | _ | _
    iterate 4 cases ha
    all_goals rfl
  · rintro _ rfl
    rfl

end Atbm6441.Wsm.Event
