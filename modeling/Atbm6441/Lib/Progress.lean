import Atbm6441.Lib.Runs
import Mathlib.Order.Lattice

/-!
# Infinite runs and what they come to

An execution is an infinite run of a system, in which nothing happens at some of the times. It is
fair to some of the labels if none of them stays enabled for ever without being taken. `leadsTo`
is the rule for progress: a measure that never grows, and falls at each step of a kind that comes
again and again, until the goal is met. `Execution.ofRun` makes an execution of a finite run, and
`along_iff` and `along_iff_of_step` are the rules for a property of finite runs that a bad step
spoils for good.
-/

namespace Atbm6441.Lib

universe u v

/-- **An infinite run**; a time without a label changes nothing. -/
structure Execution {σ : Type u} {α : Type v} (S : System σ α) where
  state : ℕ → σ
  label : ℕ → Option α
  init : S.init (state 0)
  idle : ∀ n, label n = none → state (n + 1) = state n
  step : ∀ n a, label n = some a → S.step (state n) a = some (state (n + 1))

variable {σ : Type u} {α : Type v} {S : System σ α}

namespace Execution

/-- All steps meet a condition. -/
def Meets (E : Execution S) (P : σ → α → Prop) : Prop :=
  ∀ n a, E.label n = some a → P (E.state n) a

/-- A label of the kind is taken. -/
def Takes (E : Execution S) (A : α → Prop) (n : ℕ) : Prop := ∃ a, E.label n = some a ∧ A a

/-- **Fair**: again and again a label of the kind is taken, or none is enabled. -/
def Fair (E : Execution S) (A : α → Prop) : Prop :=
  ∀ n, ∃ m, n ≤ m ∧ (E.Takes A m ∨ ∀ a, A a → S.step (E.state m) a = none)

variable {E : Execution S} {A : α → Prop}

theorem reach {P : σ → α → Prop} (h : E.Meets P) (n : ℕ) : Reach S P (E.state n) := by
  induction n with
  | zero => exact .init E.init
  | succ n ih =>
    rcases hl : E.label n with _ | a
    · rw [E.idle n hl]
      exact ih
    · exact ih.step (h n a hl) (E.step n a hl)

/-- **What stays enabled is taken.** -/
theorem Fair.taken (hf : E.Fair A) (en : ℕ → Prop) {n : ℕ} (hn : en n)
    (hen : ∀ m, en m → ∃ a, A a ∧ S.step (E.state m) a ≠ none)
    (hstay : ∀ m, n ≤ m → en m → ¬ E.Takes A m → en (m + 1)) : ∃ m, n ≤ m ∧ E.Takes A m := by
  by_contra hno
  have hall : ∀ k, en (n + k) := by
    intro k
    induction k with
    | zero => exact hn
    | succ k ih => exact hstay _ (Nat.le_add_right n k) ih fun h => hno ⟨_, Nat.le_add_right n k, h⟩
  obtain ⟨m, hm, h | h⟩ := hf n
  · exact hno ⟨m, hm, h⟩
  · obtain ⟨k, rfl⟩ := Nat.exists_eq_add_of_le hm
    obtain ⟨a, ha, hstep⟩ := hen _ (hall k)
    exact hstep (h a ha)

end Execution

/-! ### A finite run -/

/-- The steps of a list of labels can be taken, and each meets the condition. -/
def Along (S : System σ α) (P : σ → α → Prop) : σ → List α → Prop
  | _, [] => True
  | s, a :: as => P s a ∧ ∃ t, S.step s a = some t ∧ Along S P t as

variable {P : σ → α → Prop} {s t : σ} {as : List α}

/-- A run of any steps that can be computed. -/
theorem Along.of_exec (h : exec S s as = some t) : Along S (fun _ _ => True) s as := by
  induction as generalizing s with
  | nil => trivial
  | cons a as ih =>
    obtain ⟨u, hu, hut⟩ := Option.bind_eq_some_iff.mp h
    exact ⟨trivial, u, hu, ih hut⟩

theorem Along.of_execIf [∀ s a, Decidable (P s a)] (h : execIf S P s as = some t) :
    Along S P s as ∧ exec S s as = some t := by
  induction as generalizing s with
  | nil => exact ⟨trivial, h⟩
  | cons a as ih =>
    obtain ⟨hp, h⟩ := Option.ite_none_right_eq_some.mp h
    obtain ⟨u, hu, hut⟩ := Option.bind_eq_some_iff.mp h
    obtain ⟨hal, hex⟩ := ih hut
    exact ⟨⟨hp, u, hu, hal⟩, Option.bind_eq_some_iff.mpr ⟨u, hu, hex⟩⟩

theorem Along.step (h : Along S P s as) {n : ℕ} {a : α} (ha : as[n]? = some a) :
    ∃ u v, exec S s (as.take n) = some u ∧ P u a ∧ S.step u a = some v ∧
      exec S s (as.take (n + 1)) = some v := by
  induction as generalizing s n with
  | nil => simp at ha
  | cons b as ih =>
    obtain ⟨hb, t, ht, h⟩ := h
    cases n with
    | zero =>
      obtain rfl : b = a := by simpa using ha
      exact ⟨s, t, rfl, hb, ht, by simp [exec, ht]⟩
    | succ n =>
      obtain ⟨u, v, hu, hp, hv, hlast⟩ := ih h (by simpa using ha)
      refine ⟨u, v, ?_, hp, hv, ?_⟩
      · rw [List.take_succ_cons, exec, ht]
        exact hu
      · rw [List.take_succ_cons, exec, ht]
        exact hlast

/-- **What the first step without `P` spoils for good**: when such a step ends the run without `G`,
a run keeps `G` exactly when each of its steps meets `P`. -/
theorem along_iff {I G : σ → Prop} (hI : ∀ s, I s → G s)
    (hgood : ∀ s a t, I s → P s a → S.step s a = some t → I t)
    (hbad : ∀ s a t, I s → ¬ P s a → S.step s a = some t → ¬ G t ∧ ∀ b, S.step t b = none)
    (hs : I s) (h : exec S s as = some t) : G t ↔ Along S P s as := by
  induction as generalizing s with
  | nil =>
    obtain rfl := Option.some.inj h
    exact ⟨fun _ => trivial, fun _ => hI s hs⟩
  | cons a as ih =>
    obtain ⟨u, hu, hut⟩ := Option.bind_eq_some_iff.mp h
    by_cases hp : P s a
    · refine (ih (hgood s a u hs hp hu) hut).trans ⟨fun hal => ⟨hp, u, hu, hal⟩, ?_⟩
      rintro ⟨-, v, hv, hal⟩
      obtain rfl := Option.some.inj (hu.symm.trans hv)
      exact hal
    · obtain ⟨hlost, hstop⟩ := hbad s a u hs hp hu
      have hend : t = u := by
        rcases as with _ | ⟨b, bs⟩
        · exact (Option.some.inj hut).symm
        · rw [exec, hstop b] at hut
          cases hut
      rw [hend]
      exact ⟨fun hg => absurd hg hlost, fun hal => absurd hal.1 hp⟩

/-- **What every step without `P` spoils for good**: when `G` holds behind a step exactly if it held
before and the step meets `P`, a run keeps `G` exactly when each of its steps meets `P`. -/
theorem along_iff_of_step {I G : σ → Prop} (hI : ∀ s a t, I s → S.step s a = some t → I t)
    (hG : ∀ s a t, I s → S.step s a = some t → (G t ↔ G s ∧ P s a)) (hs : I s)
    (h : exec S s as = some t) : G t ↔ G s ∧ Along S P s as := by
  induction as generalizing s with
  | nil =>
    obtain rfl := Option.some.inj h
    exact ⟨fun hg => ⟨hg, trivial⟩, fun hg => hg.1⟩
  | cons a as ih =>
    obtain ⟨u, hu, hut⟩ := Option.bind_eq_some_iff.mp h
    rw [ih (hI s a u hs hu) hut, hG s a u hs hu]
    constructor
    · rintro ⟨⟨hg, hp⟩, hal⟩
      exact ⟨hg, hp, u, hu, hal⟩
    · rintro ⟨hg, hp, v, hv, hal⟩
      obtain rfl := Option.some.inj (hu.symm.trans hv)
      exact ⟨⟨hg, hp⟩, hal⟩

namespace Execution

/-- A finite run, and nothing after it. -/
def ofRun (hs : S.init s) (h : Along S P s as) : Execution S where
  state n := (exec S s (as.take n)).getD s
  label n := as[n]?
  init := hs
  idle n hn := by
    have hlen := List.getElem?_eq_none_iff.mp hn
    rw [List.take_of_length_le hlen, List.take_of_length_le (Nat.le_succ_of_le hlen)]
  step n a ha := by
    obtain ⟨u, v, hu, -, hv, hlast⟩ := h.step ha
    rw [hu, hlast]
    exact hv

theorem meets_ofRun (hs : S.init s) (h : Along S P s as) : (ofRun hs h).Meets P := by
  intro n a ha
  obtain ⟨u, v, hu, hp, -, -⟩ := h.step ha
  show P ((exec S s (as.take n)).getD s) a
  rw [hu]
  exact hp

theorem fair_ofRun (hs : S.init s) (h : Along S P s as) (ht : exec S s as = some t) {A : α → Prop}
    (hA : ∀ a, A a → S.step t a = none) : (ofRun hs h).Fair A := by
  intro n
  refine ⟨max n as.length, Nat.le_max_left _ _, Or.inr fun a ha => ?_⟩
  show S.step ((exec S s (as.take (max n as.length))).getD s) a = none
  rw [List.take_of_length_le (Nat.le_max_right _ _), ht]
  exact hA a ha

end Execution

/-- **Progress**: from `Q` on `μ` does not grow until the goal is met, and falls at the times `A`,
which come again and again. -/
theorem leadsTo {Q A G : ℕ → Prop} {μ : ℕ → ℕ}
    (hstep : ∀ n, Q n → ¬ G n → Q (n + 1) ∧ μ (n + 1) ≤ μ n ∧ (A n → μ (n + 1) < μ n))
    (hlive : ∀ n, Q n → ∃ m, n ≤ m ∧ A m) {n : ℕ} (hn : Q n) : ∃ m, n ≤ m ∧ G m := by
  by_contra hno
  have hnot : ∀ m, n ≤ m → ¬ G m := fun m hm hg => hno ⟨m, hm, hg⟩
  have hall : ∀ k m, n ≤ m → Q m → Q (m + k) ∧ μ (m + k) ≤ μ m := by
    intro k m hm hq
    induction k with
    | zero => exact ⟨hq, Nat.le_refl _⟩
    | succ k ih =>
      obtain ⟨hq', hle, -⟩ := hstep (m + k) ih.1 (hnot _ (Nat.le_add_right_of_le hm))
      exact ⟨hq', Nat.le_trans hle ih.2⟩
  -- the measure falls below every bound
  have hfall : ∀ k, ∃ m, n ≤ m ∧ Q m ∧ μ m + k ≤ μ n := by
    intro k
    induction k with
    | zero => exact ⟨n, Nat.le_refl n, hn, Nat.le_refl _⟩
    | succ k ih =>
      obtain ⟨m, hm, hq, hle⟩ := ih
      obtain ⟨j, hj, hA⟩ := hlive m hq
      obtain ⟨i, rfl⟩ := Nat.exists_eq_add_of_le hj
      obtain ⟨hq', hle'⟩ := hall i m hm hq
      have hnj := Nat.le_trans hm hj
      obtain ⟨hq'', -, hlt⟩ := hstep (m + i) hq' (hnot _ hnj)
      have hlt := hlt hA
      exact ⟨m + i + 1, by omega, hq'', by omega⟩
  obtain ⟨m, -, -, hle⟩ := hfall (μ n + 1)
  omega

end Atbm6441.Lib
