import Mathlib.Data.List.Basic
import Mathlib.Data.List.Perm.Basic
import Mathlib.Logic.Function.Basic
import Mathlib.Tactic.Common

/-!
# What a table of slots holds

A table is a partial function on the slots below `n`. `occupied` lists what it holds, slot by slot;
filling a free slot adds one entry to the list and emptying a slot takes one away, up to order.
-/

namespace Atbm6441.Lib

universe u

variable {F : Type u} (f : ℕ → Option F)

/-- The contents of the slots below `n`. -/
def occupied (n : ℕ) : List F := (List.range n).filterMap f

theorem occupied_succ (n : ℕ) : occupied f (n + 1) = occupied f n ++ (f n).toList := by
  unfold occupied
  rw [List.range_succ, List.filterMap_append]
  rcases h : f n with _ | x <;> simp [h]

theorem mem_occupied {n : ℕ} {x : F} : x ∈ occupied f n ↔ ∃ i < n, f i = some x := by
  simp [occupied]

theorem occupied_congr {n : ℕ} {g : ℕ → Option F} (h : ∀ i < n, f i = g i) :
    occupied f n = occupied g n :=
  List.filterMap_congr fun i hi => h i (List.mem_range.mp hi)

theorem occupied_empty {n : ℕ} (h : ∀ i < n, f i = none) : occupied f n = [] := by
  rw [occupied_congr f h, occupied]
  exact List.filterMap_none _

theorem length_occupied (n : ℕ) :
    (occupied f n).length = (List.range n).countP fun i => (f i).isSome := by
  rw [occupied, List.length_filterMap_eq_countP]

theorem length_occupied_le (n : ℕ) : (occupied f n).length ≤ n := by
  rw [length_occupied]
  exact Nat.le_trans List.countP_le_length (Nat.le_of_eq List.length_range)

theorem eq_none_of_occupied {n : ℕ} (h : occupied f n = []) {i : ℕ} (hi : i < n) : f i = none := by
  rcases hx : f i with _ | x
  · rfl
  · have hmem : x ∈ occupied f n := (mem_occupied f).mpr ⟨i, hi, hx⟩
    rw [h] at hmem
    exact absurd hmem (List.not_mem_nil)

/-- **Emptying a slot** takes its entry away. -/
theorem occupied_update_none {n i : ℕ} {x : F} (hi : i < n) (hx : f i = some x) :
    (occupied f n).Perm (x :: occupied (Function.update f i none) n) := by
  induction n with
  | zero => exact absurd hi (Nat.not_lt_zero i)
  | succ n ih =>
    rw [occupied_succ, occupied_succ]
    by_cases hin : i = n
    · subst hin
      have hrest : occupied (Function.update f i none) i = occupied f i :=
        occupied_congr _ fun j hj => Function.update_of_ne (by omega) _ _
      rw [hx, hrest, Function.update_self, Option.toList_none, List.append_nil]
      exact List.perm_append_singleton x _
    · rw [Function.update_of_ne (fun h => hin h.symm)]
      exact (ih (by omega)).append_right _

/-- **Filling a free slot** adds its entry. -/
theorem occupied_update_some {n i : ℕ} {x : F} (hi : i < n) (hfree : f i = none) :
    (occupied (Function.update f i (some x)) n).Perm (x :: occupied f n) := by
  have h := occupied_update_none (Function.update f i (some x)) hi (Function.update_self ..)
  rwa [Function.update_idem, ← hfree, Function.update_eq_self] at h

end Atbm6441.Lib
