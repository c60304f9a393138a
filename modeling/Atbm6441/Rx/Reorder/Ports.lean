import Atbm6441.Os.Port
import Atbm6441.Rx.Reorder.Count

/-!
# The life of a session on the two ports

A session starts with the slots that `kcalloc` leaves, and its teardown frees what is stored if
`call_rcu` calls `ieee80211_free_tid_rx`. `places_conserved` : no frame is lost or counted twice, up to
a teardown that frees nothing.
-/

namespace Atbm6441.Rx.Reorder

open Atbm6441.Ieee80211 Atbm6441.Lib Atbm6441.Os

variable {w : ℕ} {port : Port} {t₀ : TidAmpduRx w} {s s' : Life w} {ev : LifeEv w}

/-- `ieee80211_process_addba_request`, for memory with the pointers `found` and the times `times`. -/
def processAddbaRequestOn (port : Port) (found : ℕ → Option SkBuff) (times : ℕ → BitVec w)
    (now : BitVec w) (sta : AddbaSta) (req : AddbaReq) (alloc : Bool) : Option (TidAmpduRx w) :=
  (ieee80211ProcessAddbaRequest now sta req alloc).map fun t =>
    { t with
      reorderBuf := fun i => if i < t.bufSize then port.kcalloc none found i else none
      reorderTime := port.kcalloc 0 times }

/-- A step of a session; a session that is torn down is given to `call_rcu`. -/
def Life.stepOn (port : Port) (s : Life w) : LifeEv w → Option (Life w)
  | .teardown => s.agg.map fun t =>
    { s with
      agg := none
      tornDown := s.tornDown ++ if port.callsRcu then ieee80211FreeTidRx t else [] }
  | .frame skb now => s.step (.frame skb now)
  | .expiry now => s.step (.expiry now)
  | .other skb => s.step (.other skb)

/-- The life of the session `t` on a port. -/
def lifeOn (port : Port) (t : TidAmpduRx w) : System (Life w) (LifeEv w) where
  init := (life t).init
  step := Life.stepOn port

/-- **The condition**: a teardown is on Linux, or finds no frame stored. -/
def Freed (port : Port) (s : Life w) (ev : LifeEv w) : Prop :=
  ev = .teardown → port.callsRcu = true ∨ s.stored = []

theorem addbaOn_linux (found : ℕ → Option SkBuff) (times : ℕ → BitVec w) (now : BitVec w)
    (sta : AddbaSta) (req : AddbaReq) (alloc : Bool) :
    processAddbaRequestOn .linux found times now sta req alloc =
      ieee80211ProcessAddbaRequest now sta req alloc := by
  unfold processAddbaRequestOn ieee80211ProcessAddbaRequest
  dsimp only
  split_ifs <;> simp

theorem stepOn_of_freed (h : Freed port s ev) : s.stepOn port ev = s.step ev := by
  cases ev with
  | frame skb now | expiry now | other skb => rfl
  | teardown =>
    cases hagg : s.agg with
    | none => rw [Life.stepOn, Life.step, hagg]; rfl
    | some t =>
      rw [Life.stepOn, Life.step, hagg, Option.map_some, Option.map_some]
      rcases h rfl with hrcu | hempty
      · rw [if_pos hrcu]
      · have hfree : ieee80211FreeTidRx t = [] := (stored_of_agg hagg).symm.trans hempty
        rw [hfree, ite_self]

theorem lifeOn_linux (t : TidAmpduRx w) : lifeOn .linux t = life t :=
  congrArg (System.mk (life t).init) (funext₂ fun _ _ => stepOn_of_freed fun _ => Or.inl rfl)

/-- **A teardown that frees nothing** loses what is stored. -/
theorem not_conserved_teardown (h : Conserved s) (hno : ¬ Freed port s ev)
    (hs : s.stepOn port ev = some s') : ¬ Conserved s' := by
  rw [Freed, Classical.not_imp, not_or] at hno
  obtain ⟨rfl, hrcu, hstored⟩ := hno
  obtain ⟨t, ht, rfl⟩ := Option.map_eq_some_iff.mp hs
  rw [if_neg hrcu, List.append_nil]
  intro h'
  have hbefore := h.places.length_eq
  have hafter : s.arrived.length = (s.handed ++ s.dropped ++ ([] : List SkBuff) ++ s.tornDown).length :=
    h'.places.length_eq
  simp only [List.length_append, List.length_nil] at hbefore hafter
  exact hstored (List.length_eq_zero_iff.mp (by omega))

/-- A session with empty slots is that of Linux, but for the times of its slots. -/
theorem counted_addbaOn {found : ℕ → Option SkBuff} {times : ℕ → BitVec w} {now : BitVec w}
    {sta : AddbaSta} {req : AddbaReq}
    (h : processAddbaRequestOn port found times now sta req true = some t₀)
    (hempty : ∀ i < t₀.bufSize, t₀.reorderBuf i = none) :
    Counted t₀ ∧ ∀ i, t₀.reorderBuf i = none := by
  obtain ⟨t, ht, rfl⟩ := Option.map_eq_some_iff.mp h
  have hc := counted_addba ht
  have hall : ∀ i, (if i < t.bufSize then port.kcalloc none found i else none) = none := by
    intro i
    by_cases hi : i < t.bufSize
    · exact hempty i hi
    · exact if_neg hi
  refine ⟨⟨hc.size_pos, hc.size_le, hc.head, ?_, fun i _ => hall i⟩, hall⟩
  rw [TidAmpduRx.stored, occupied_empty _ fun i _ => hall i]
  exact (addba_spec ht).2.2.2.2.1

theorem counts_of_reachOn (h₀ : Counted t₀) (hempty : ∀ i, t₀.reorderBuf i = none)
    (hs : Reach (lifeOn port t₀) (Freed port) s) : Counts t₀ s := by
  refine hs.inv (I := Counts t₀)
    (fun s (hi : (lifeOn port t₀).init s) => counts_init h₀ hempty hi) ?_
  intro s ev s' hc hf hst
  have hlinux : s.step ev = some s' := (stepOn_of_freed hf).symm.trans hst
  exact counts_step hc hlinux

/-- **No frame is lost or counted twice** in the life of a session that an ADDBA request sets up with
empty slots, exactly up to a teardown with frames stored where `call_rcu` calls nothing. -/
theorem places_conserved {found : ℕ → Option SkBuff} {times : ℕ → BitVec w} {now : BitVec w}
    {sta : AddbaSta} {req : AddbaReq}
    (h : processAddbaRequestOn port found times now sta req true = some t₀)
    (hempty : ∀ i < t₀.bufSize, t₀.reorderBuf i = none)
    (hs : Reach (lifeOn port t₀) (Freed port) s) :
    Conserved s ∧ ∀ ev s', s.stepOn port ev = some s' → (Conserved s' ↔ Freed port s ev) := by
  obtain ⟨h₀, hall⟩ := counted_addbaOn h hempty
  have hc := counts_of_reachOn h₀ hall hs
  refine ⟨hc.conserved, fun ev s' hstep => ⟨fun hs' => ?_, fun hf => ?_⟩⟩
  · by_contra hno
    exact not_conserved_teardown hc.conserved hno hstep hs'
  · rw [stepOn_of_freed hf] at hstep
    exact (counts_step hc hstep).conserved

/-! ### Lives of a session of 8 slots -/

theorem freshSession_on (port : Port) :
    processAddbaRequestOn port (fun _ => none) (fun _ => 0) 0 ⟨false, 0⟩ ⟨0x0202, 0, 0⟩ true =
      some freshSession := by
  have hsame : ∀ α (zero : α), port.kcalloc zero (fun _ => zero) = fun _ => zero := by
    intro α zero
    funext i
    unfold Port.kcalloc
    cases port <;> simp
  unfold processAddbaRequestOn
  rw [freshSession_eq, Option.map_some, hsame, hsame]
  simp [freshSession, ieee80211ProcessAddbaRequest]

/-- A frame overtakes another and comes twice, the timer expires, and the last frame that comes is
stored when the session is torn down. -/
def shortLife : List (LifeEv 32) :=
  [.frame (qosFrame 1) 10, .frame (qosFrame 1) 11, .expiry 700, .frame (qosFrame 0) 701,
    .frame (qosFrame 5) 702, .teardown]

/-- The start of the life of a session. -/
def shortStart : Life 32 := ⟨reorderTimeoutInit, some freshSession, [], [], [], []⟩

theorem shortStart_init (port : Port) : (lifeOn port freshSession).init shortStart :=
  ⟨rfl, rfl, rfl, rfl, rfl⟩

theorem places_conserved_shortLife :
    ∃ s, Reach (lifeOn .linux freshSession) (Freed .linux) s ∧ s.handed = [qosFrame 1] ∧
      s.dropped = [qosFrame 1, qosFrame 0] ∧ s.tornDown = [qosFrame 5] ∧ Conserved s ∧
      ∀ ev s', s.stepOn .linux ev = some s' → (Conserved s' ↔ Freed .linux s ev) := by
  have hout : (exec (lifeOn .linux freshSession) shortStart shortLife).map
      (fun s => (s.handed, s.dropped, s.tornDown)) =
        some ([qosFrame 1], [qosFrame 1, qosFrame 0], [qosFrame 5]) := by decide +kernel
  obtain ⟨s, hs, hout⟩ := Option.map_eq_some_iff.mp hout
  obtain ⟨h1, h2, h3⟩ : s.handed = _ ∧ s.dropped = _ ∧ s.tornDown = _ := by
    simpa using hout
  have hr : Reach (lifeOn .linux freshSession) (Freed .linux) s :=
    (Reach.of_exec (.init (shortStart_init .linux)) hs).mono fun _ _ _ _ => Or.inl rfl
  exact ⟨s, hr, h1, h2, h3, places_conserved (freshSession_on .linux) (fun _ _ => rfl) hr⟩

/-- **On the RTOS** the frame that is stored at the teardown is in no place; and the slots of a session
may begin with what was in the memory. -/
theorem frame_leaked :
    (∃ s, Reach (lifeOn .rtos freshSession) (fun _ _ => True) s ∧ s.agg = none ∧
      s.arrived = [qosFrame 1, qosFrame 1, qosFrame 0, qosFrame 5] ∧
      s.handed ++ s.dropped ++ s.tornDown = [qosFrame 1, qosFrame 1, qosFrame 0] ∧ ¬ Conserved s) ∧
    ∃ t : TidAmpduRx 32, processAddbaRequestOn .rtos (fun _ => some (qosFrame 7)) (fun _ => 0) 0
        ⟨false, 0⟩ ⟨0x0202, 0, 0⟩ true = some t ∧
      ∀ s, (lifeOn .rtos t).init s → ¬ Conserved s := by
  constructor
  · have hout : (exec (lifeOn .rtos freshSession) shortStart shortLife).map
        (fun s => (s.agg.isNone, s.arrived, s.handed ++ s.dropped ++ s.tornDown)) =
          some (true, [qosFrame 1, qosFrame 1, qosFrame 0, qosFrame 5],
            [qosFrame 1, qosFrame 1, qosFrame 0]) := by decide +kernel
    obtain ⟨s, hs, hout⟩ := Option.map_eq_some_iff.mp hout
    obtain ⟨hnone, harrived, hplaces⟩ : s.agg.isNone = _ ∧ s.arrived = _ ∧ _ ++ _ ++ _ = _ := by
      simpa only [Prod.mk.injEq] using hout
    have hagg := Option.isNone_iff_eq_none.mp hnone
    refine ⟨s, Reach.of_exec (.init (shortStart_init .rtos)) hs, hagg, harrived, hplaces,
      fun hc => ?_⟩
    have hlen := hc.places.length_eq
    rw [Life.stored, hagg, Option.map_none, Option.getD_none, List.append_nil, harrived,
      hplaces] at hlen
    exact absurd hlen (by decide)
  · refine ⟨{ freshSession with
      reorderBuf := fun i => if i < 8 then Port.rtos.kcalloc none (fun _ => some (qosFrame 7)) i
        else none
      reorderTime := Port.rtos.kcalloc 0 fun _ => 0 }, ?_, fun s hs hc => ?_⟩
    · rw [processAddbaRequestOn, freshSession_eq]
      rfl
    · have hcount := hc.count _ hs.1
      exact absurd hcount (by decide +kernel)

end Atbm6441.Rx.Reorder
