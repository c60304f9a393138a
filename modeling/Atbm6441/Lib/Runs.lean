import Mathlib.Data.List.Basic
import Mathlib.Tactic.Common

/-!
# Systems that take labelled steps, and the states their runs reach

A system is a set of initial states and a partial step function on labels. `Reach S P` are the
states reached by runs each of whose steps meets the condition `P`, which may look at the state
before the step and at its label; `Reach S ⊤` are the states of all runs.
-/

namespace Atbm6441.Lib

universe u v

/-- A labelled transition system with a partial step function. -/
structure System (σ : Type u) (α : Type v) where
  init : σ → Prop
  step : σ → α → Option σ

variable {σ : Type u} {α : Type v} (S : System σ α) (P : σ → α → Prop)

/-- **The states reached** by runs all of whose steps meet `P`. -/
inductive Reach : σ → Prop
  | init {s : σ} : S.init s → Reach s
  | step {s t : σ} {a : α} : Reach s → P s a → S.step s a = some t → Reach t

variable {S P}

/-- **The invariant rule**: what holds at the start and is kept by every step that meets `P`
holds in every state reached. -/
theorem Reach.inv {I : σ → Prop} (h0 : ∀ s, S.init s → I s)
    (hs : ∀ s a t, I s → P s a → S.step s a = some t → I t) {s : σ} (h : Reach S P s) : I s := by
  induction h with
  | init h => exact h0 _ h
  | step _ hp hst ih => exact hs _ _ _ ih hp hst

theorem Reach.inv_of_start {I : σ → Prop} {s₀ : σ} (hinit : ∀ s, S.init s → s = s₀) (h0 : I s₀)
    (hs : ∀ s a t, I s → P s a → S.step s a = some t → I t) {s : σ} (h : Reach S P s) : I s := by
  refine h.inv (fun s hi => ?_) hs
  rw [hinit s hi]
  exact h0

theorem Reach.mono {Q : σ → α → Prop} (hpq : ∀ s a, P s a → Q s a) {s : σ} (h : Reach S P s) :
    Reach S Q s := by
  induction h with
  | init h => exact .init h
  | step _ hp hst ih => exact ih.step (hpq _ _ hp) hst

/-- Take the steps of a list of labels, in order. -/
def exec (S : System σ α) : σ → List α → Option σ
  | s, [] => some s
  | s, a :: as => (S.step s a).bind fun t => exec S t as

theorem exec_append (s : σ) (as bs : List α) :
    exec S s (as ++ bs) = (exec S s as).bind fun t => exec S t bs := by
  induction as generalizing s with
  | nil => rfl
  | cons a as ih =>
    rw [List.cons_append, exec, exec, Option.bind_assoc]
    exact congrArg _ (funext fun t => ih t)

theorem eq_of_map {β : Type v} {o : Option σ} {s : σ} (h : o = some s) (f : σ → β) {b : β}
    (hb : o.map f = some b) : f s = b := by
  rw [h] at hb
  exact Option.some.inj hb

/-- Take the steps of a list of labels, as long as each meets `P`. -/
def execIf (S : System σ α) (P : σ → α → Prop) [∀ s a, Decidable (P s a)] :
    σ → List α → Option σ
  | s, [] => some s
  | s, a :: as => if P s a then (S.step s a).bind fun t => execIf S P t as else none

theorem Reach.of_execIf [∀ s a, Decidable (P s a)] {s t : σ} (h : Reach S P s) {as : List α}
    (he : execIf S P s as = some t) : Reach S P t := by
  induction as generalizing s with
  | nil => rw [execIf, Option.some.injEq] at he; exact he ▸ h
  | cons a as ih =>
    rw [execIf] at he
    split at he
    · next hp =>
      obtain ⟨u, hu, hut⟩ := Option.bind_eq_some_iff.mp he
      exact ih (h.step hp hu) hut
    · cases he

theorem Reach.of_exec_forall {s t : σ} (h : Reach S P s) {as : List α}
    (hall : ∀ a ∈ as, ∀ s, P s a) (he : exec S s as = some t) : Reach S P t := by
  induction as generalizing s with
  | nil => rw [exec, Option.some.injEq] at he; exact he ▸ h
  | cons a as ih =>
    obtain ⟨u, hu, hut⟩ := Option.bind_eq_some_iff.mp he
    obtain ⟨ha, has⟩ := List.forall_mem_cons.mp hall
    exact ih (h.step (ha s) hu) has hut

/-- A run of any steps that can be computed reaches its last state. -/
theorem Reach.of_exec {s t : σ} (h : Reach S (fun _ _ => True) s) {as : List α}
    (he : exec S s as = some t) : Reach S (fun _ _ => True) t :=
  h.of_exec_forall (fun _ _ _ => trivial) he

end Atbm6441.Lib
