import Mathlib.Data.List.Basic
import Mathlib.Tactic.Common

/-!
# What a loop over a list leaves in a field

A loop goes over a list and changes a state. `foldl_last` : a field that is overwritten at some of
the items has the value of the last of them; `foldl_first` : one that is written only while it is
unset has the value of the first; `foldl_count` : a counter has grown by their number.
-/

namespace Atbm6441.Lib

universe u v w

variable {σ : Type u} {α : Type v} {β : Type w} {step : σ → α → σ} {p : α → Bool}

theorem getLast?_filter_cons (p : α → Bool) (a : α) (l : List α) :
    ((a :: l).filter p).getLast? =
      if p a then some ((l.filter p).getLast?.getD a) else (l.filter p).getLast? := by
  by_cases ha : p a = true
  · rw [if_pos ha, List.filter_cons_of_pos ha, List.getLast?_cons]
  · rw [if_neg ha, List.filter_cons_of_neg ha]

theorem getLast?_filter_of_imp {q : α → Bool} (hpq : ∀ a, p a = true → q a = true)
    {l : List α} {z : α} (hz : (l.filter q).getLast? = some z) (hp : p z = true) :
    (l.filter p).getLast? = some z := by
  obtain ⟨l', hl'⟩ := List.getLast?_eq_some_iff.mp hz
  have hfilter : l.filter p = (l.filter q).filter p := by
    rw [List.filter_filter]
    refine List.filter_congr fun a _ => ?_
    by_cases ha : p a = true
    · rw [ha, hpq a ha]
      rfl
    · rw [Bool.eq_false_iff.mpr ha, Bool.false_and]
  rw [hfilter, hl', List.filter_append, List.filter_cons_of_pos hp]
  exact List.getLast?_concat

/-- **Overwritten**: the value of the last item that writes it. -/
theorem foldl_last {g : σ → β} {h : α → β} (hstep : ∀ s a, g (step s a) = if p a then h a else g s)
    (l : List α) (s : σ) :
    g (l.foldl step s) = ((l.filter p).getLast?.map h).getD (g s) := by
  induction l generalizing s with
  | nil => rfl
  | cons a l ih =>
    rw [List.foldl_cons, ih, hstep, getLast?_filter_cons]
    by_cases ha : p a = true
    · rw [if_pos ha, if_pos ha]
      cases (l.filter p).getLast? <;> rfl
    · rw [if_neg ha, if_neg ha]

/-- **Written while unset**: the value of the first item that would write it. -/
theorem foldl_first {g : σ → β} {h : α → β} {unset : β → Bool}
    (hstep : ∀ s a, g (step s a) = if p a && unset (g s) then h a else g s)
    (hset : ∀ a, unset (h a) = false) (l : List α) (s : σ) :
    g (l.foldl step s) = if unset (g s) then ((l.filter p).head?.map h).getD (g s) else g s := by
  induction l generalizing s with
  | nil => exact (ite_self _).symm
  | cons a l ih =>
    rw [List.foldl_cons, ih, hstep]
    by_cases hun : unset (g s) = true
    · by_cases ha : p a = true
      · rw [ha, hun, Bool.true_and, if_pos rfl, hset, if_neg Bool.false_ne_true, if_pos rfl,
          List.filter_cons_of_pos ha]
        rfl
      · rw [Bool.eq_false_iff.mpr ha, Bool.false_and, if_neg Bool.false_ne_true,
          List.filter_cons_of_neg ha]
    · rw [Bool.eq_false_iff.mpr hun, Bool.and_false]
      rw [if_neg Bool.false_ne_true, Bool.eq_false_iff.mpr hun]
      rfl

/-- **Counted**, up to `m`: the items that are counted. -/
theorem foldl_count {g : σ → ℕ} {m : ℕ}
    (hstep : ∀ s a, g (step s a) = if p a then (g s + 1) % m else g s) (l : List α) (s : σ)
    (hs : g s < m) : g (l.foldl step s) = (g s + (l.filter p).length) % m := by
  induction l generalizing s with
  | nil => exact (Nat.mod_eq_of_lt hs).symm
  | cons a l ih =>
    rw [List.foldl_cons]
    by_cases ha : p a = true
    · have hnext : g (step s a) = (g s + 1) % m := by rw [hstep, if_pos ha]
      have hlt : g (step s a) < m := by
        rw [hnext]
        exact Nat.mod_lt _ (by omega)
      rw [ih _ hlt, hnext, List.filter_cons_of_pos ha, List.length_cons, Nat.mod_add_mod]
      congr 1
      omega
    · have hnext : g (step s a) = g s := by rw [hstep, if_neg ha]
      rw [ih _ (hnext ▸ hs), hnext, List.filter_cons_of_neg ha]

end Atbm6441.Lib
