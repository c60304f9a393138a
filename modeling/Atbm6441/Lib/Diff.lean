import Mathlib.Data.List.Nodup
import Mathlib.Data.List.Dedup
import Mathlib.Tactic.Common

/-!
# One difference between two lists

`firstNew a b` is the first member of `a` that is not in `b`, and `OneMore a b` says that `a` has the
members of `b` and one more at most. Then, and only then, that one member is the whole difference:
`oneMore_iff_add` if it is added to `b`, `oneMore_iff_remove` if it is taken from `a`.
-/

namespace Atbm6441.Lib

universe u

variable {α : Type u} [DecidableEq α]

/-- The first member of a list that another one does not have. -/
def firstNew (a b : List α) : Option α := a.find? fun m => decide (m ∉ b)

/-- **One member more**, at most, and none less. -/
def OneMore (a b : List α) : Prop := (∀ m ∈ b, m ∈ a) ∧ (a.filter fun m => decide (m ∉ b)).length ≤ 1

instance (a b : List α) : Decidable (OneMore a b) :=
  inferInstanceAs (Decidable ((∀ m ∈ b, m ∈ a) ∧ (a.filter fun m => decide (m ∉ b)).length ≤ 1))

variable {a b : List α}

theorem firstNew_mem {m : α} (h : firstNew a b = some m) : m ∈ a ∧ m ∉ b :=
  ⟨List.mem_of_find?_eq_some h, by simpa using List.find?_some h⟩

theorem firstNew_eq_none : firstNew a b = none ↔ ∀ m ∈ a, m ∈ b := by
  simp [firstNew, List.find?_eq_none]

theorem filter_length_le_one_iff (ha : a.Nodup) :
    (a.filter fun m => decide (m ∉ b)).length ≤ 1 ↔
      ∀ m ∈ a, m ∉ b → firstNew a b = some m := by
  have hhead : firstNew a b = (a.filter fun m => decide (m ∉ b)).head? := (List.head?_filter ..).symm
  have hmem : ∀ m, m ∈ (a.filter fun m => decide (m ∉ b)) ↔ m ∈ a ∧ m ∉ b := fun m => by simp
  have hnodup : (a.filter fun m => decide (m ∉ b)).Nodup := ha.filter _
  rw [hhead]
  generalize (a.filter fun m => decide (m ∉ b)) = l at hmem hnodup ⊢
  rcases l with _ | ⟨x, _ | ⟨y, l⟩⟩
  · simp only [List.length_nil, Nat.zero_le, true_iff]
    exact fun m hm hmb => absurd ((hmem m).mpr ⟨hm, hmb⟩) List.not_mem_nil
  · simp only [List.length_singleton, Nat.le_refl, true_iff, List.head?_cons]
    exact fun m hm hmb => by rw [List.mem_singleton.mp ((hmem m).mpr ⟨hm, hmb⟩)]
  · constructor
    · intro h
      simp at h
    · intro h
      obtain ⟨hy, hyb⟩ := (hmem y).mp (by simp)
      have hxy : x = y := Option.some.inj (h y hy hyb)
      simp [hxy] at hnodup

/-- **Adding** the first new member makes the lists the same if and only if there is one at most. -/
theorem oneMore_iff_add (ha : a.Nodup) :
    OneMore a b ↔ ∀ m, (m ∈ b ∨ firstNew a b = some m) ↔ m ∈ a := by
  unfold OneMore
  rw [filter_length_le_one_iff ha]
  constructor
  · rintro ⟨hsub, hnew⟩ m
    constructor
    · rintro (hm | hm)
      · exact hsub m hm
      · exact (firstNew_mem hm).1
    · intro hm
      by_cases hmb : m ∈ b
      · exact .inl hmb
      · exact .inr (hnew m hm hmb)
  · intro h
    exact ⟨fun m hm => (h m).mp (.inl hm), fun m hm hmb => ((h m).mpr hm).resolve_left hmb⟩

/-- **Taking out** the first missing member makes the lists the same if and only if there is one at
most. -/
theorem oneMore_iff_remove (ha : a.Nodup) :
    OneMore a b ↔ ∀ m, (m ∈ a ∧ firstNew a b ≠ some m) ↔ m ∈ b := by
  unfold OneMore
  rw [filter_length_le_one_iff ha]
  constructor
  · rintro ⟨hsub, hnew⟩ m
    constructor
    · rintro ⟨hm, hne⟩
      by_contra hmb
      exact hne (hnew m hm hmb)
    · exact fun hm => ⟨hsub m hm, fun hf => (firstNew_mem hf).2 hm⟩
  · intro h
    refine ⟨fun m hm => ((h m).mpr hm).1, fun m hm hmb => ?_⟩
    by_contra hne
    exact hmb ((h m).mp ⟨hm, hne⟩)

end Atbm6441.Lib
