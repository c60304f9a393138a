import Mathlib.Data.List.Basic
import Mathlib.Data.List.Pairwise
import Mathlib.Logic.Function.Basic
import Mathlib.Tactic.Common

/-!
# A window that slides over the natural numbers

A window has a head position and holds at most one item at each position. Moving the head by `n`
(`advance n`) hands out the items of the first `n` positions (`front n`). However often and by
however much the head is moved, what is handed out comes in increasing order of its positions:
`Handed` is kept by `advance` (`Handed.advance`).
-/

namespace Atbm6441.Lib

universe u

/-- A sliding window: where it starts, and what it holds at each position. -/
structure Window (F : Type u) where
  head : ℕ
  held : ℕ → Option F

namespace Window

variable {F : Type u} (W : Window F)

/-- Everything held lies among the `N` positions from the head on. -/
def Within (N : ℕ) : Prop := ∀ p f, W.held p = some f → W.head ≤ p ∧ p < W.head + N

/-- The items of the first `n` positions, with their positions. -/
def front (n : ℕ) : List (ℕ × F) :=
  (List.range n).filterMap fun k => (W.held (W.head + k)).map (W.head + k, ·)

/-- Move the head by `n`; what lay before the new head is gone. -/
def advance (n : ℕ) : Window F where
  head := W.head + n
  held p := if p < W.head + n then none else W.held p

/-- Put an item at a position. -/
def put (p : ℕ) (f : F) : Window F where
  head := W.head
  held := Function.update W.held p (some f)

@[simp] theorem advance_head (n : ℕ) : (W.advance n).head = W.head + n := rfl

@[simp] theorem put_head (p : ℕ) (f : F) : (W.put p f).head = W.head := rfl

theorem advance_held (n p : ℕ) :
    (W.advance n).held p = if p < W.head + n then none else W.held p := rfl

theorem advance_held_of_le {n p : ℕ} (h : W.head + n ≤ p) : (W.advance n).held p = W.held p := by
  rw [advance_held, if_neg (by omega)]

@[simp] theorem put_held_self (p : ℕ) (f : F) : (W.put p f).held p = some f := by simp [put]

theorem put_held_of_ne {p q : ℕ} (f : F) (h : q ≠ p) : (W.put p f).held q = W.held q := by
  simp [put, h]

@[simp] theorem front_zero : W.front 0 = [] := rfl

theorem front_succ (n : ℕ) :
    W.front (n + 1) = W.front n ++ ((W.held (W.head + n)).map (W.head + n, ·)).toList := by
  unfold front
  rw [List.range_succ, List.filterMap_append]
  cases h : W.held (W.head + n) <;> simp [h]

theorem front_one : W.front 1 = ((W.held W.head).map (W.head, ·)).toList := by
  rw [front_succ, front_zero, List.nil_append, Nat.add_zero]

theorem put_advance {p n : ℕ} (f : F) (h : p < W.head + n) :
    (W.put p f).advance n = W.advance n := by
  have hheld : ((W.put p f).advance n).held = (W.advance n).held := funext fun q => by
    rw [advance_held, advance_held, put_head]
    by_cases hq : q < W.head + n
    · rw [if_pos hq, if_pos hq]
    · rw [if_neg hq, if_neg hq, put_held_of_ne _ _ (by omega)]
  exact congrArg (Window.mk _) hheld

variable {W}

theorem mem_front {n : ℕ} {x : ℕ × F} :
    x ∈ W.front n ↔ W.head ≤ x.1 ∧ x.1 < W.head + n ∧ W.held x.1 = some x.2 := by
  simp only [front, List.mem_filterMap, List.mem_range, Option.map_eq_some_iff]
  constructor
  · rintro ⟨k, hk, f, hf, rfl⟩
    exact ⟨by omega, by omega, hf⟩
  · rintro ⟨h1, h2, h3⟩
    refine ⟨x.1 - W.head, by omega, x.2, ?_, ?_⟩
    · rw [Nat.add_sub_cancel' h1]; exact h3
    · rw [Nat.add_sub_cancel' h1]

theorem advance_zero (hW : ∀ p f, W.held p = some f → W.head ≤ p) : W.advance 0 = W := by
  obtain ⟨head, held⟩ := W
  simp only [advance, Nat.add_zero, Window.mk.injEq, true_and]
  funext p
  split_ifs with h
  · cases hp : held p with
    | none => rfl
    | some f => have := hW p f hp; simp at this; omega
  · rfl

theorem advance_advance (m n : ℕ) : (W.advance m).advance n = W.advance (m + n) := by
  have hheld : ((W.advance m).advance n).held = (W.advance (m + n)).held := funext fun p => by
    rw [advance_held, advance_held, advance_held, advance_head, ← Nat.add_assoc]
    by_cases h : p < W.head + m + n
    · rw [if_pos h, if_pos h]
    · rw [if_neg h, if_neg h, if_neg (by omega)]
  exact congrArg₂ Window.mk (Nat.add_assoc _ _ _) hheld

/-- **Moving twice** hands out what moving once by the sum hands out. -/
theorem front_add (m n : ℕ) : W.front (m + n) = W.front m ++ (W.advance m).front n := by
  induction n with
  | zero => simp
  | succ n ih =>
    rw [← Nat.add_assoc, front_succ, ih, front_succ, List.append_assoc, advance_head,
      advance_held_of_le _ (by omega), Nat.add_assoc]

theorem front_eq_nil {n : ℕ} (h : ∀ k < n, W.held (W.head + k) = none) : W.front n = [] := by
  induction n with
  | zero => rfl
  | succ n ih => rw [front_succ, ih fun k hk => h k (by omega), h n (by omega)]; rfl

theorem pairwise_front (n : ℕ) : (W.front n).Pairwise fun x y => x.1 < y.1 := by
  induction n with
  | zero => simp
  | succ n ih =>
    rw [front_succ, List.pairwise_append]
    refine ⟨ih, ?_, fun x hx y hy => ?_⟩
    · cases W.held (W.head + n) <;> simp
    · have hx := (mem_front.mp hx).2.1
      obtain ⟨f, -, rfl⟩ := Option.map_eq_some_iff.mp (Option.mem_toList.mp hy)
      exact hx

theorem Within.advance {N : ℕ} (hW : W.Within N) (n : ℕ) : (W.advance n).Within N := by
  intro p f hp
  rw [advance_held] at hp
  split_ifs at hp with h
  have := (hW p f hp).2
  simp only [advance_head]
  omega

theorem Within.put {N p : ℕ} {f : F} (hW : W.Within N) (h1 : W.head ≤ p) (h2 : p < W.head + N) :
    (W.put p f).Within N := by
  intro q g hq
  by_cases hqp : q = p
  · subst hqp; exact ⟨h1, h2⟩
  · rw [put_held_of_ne _ _ hqp] at hq; exact hW q g hq

theorem Within.held_eq_none {N p : ℕ} (hW : W.Within N) (h : W.head + N ≤ p) :
    W.held p = none := by
  cases hp : W.held p with
  | none => rfl
  | some f => have := (hW p f hp).2; omega

theorem Within.held_iff {N : ℕ} (hW : W.Within N) (n : ℕ) (x : ℕ × F) :
    W.held x.1 = some x.2 ↔ x ∈ W.front n ∨ (W.advance n).held x.1 = some x.2 := by
  rw [mem_front, advance_held]
  by_cases h : x.1 < W.head + n
  · rw [if_pos h]
    constructor
    · exact fun hx => Or.inl ⟨(hW _ _ hx).1, h, hx⟩
    · rintro (hx | hx)
      · exact hx.2.2
      · cases hx
  · rw [if_neg h]
    constructor
    · exact Or.inr
    · rintro (hx | hx)
      · exact hx.2.2
      · exact hx

theorem put_held_iff {p : ℕ} (hp : W.held p = none) (f : F) (x : ℕ × F) :
    (W.put p f).held x.1 = some x.2 ↔ x = (p, f) ∨ W.held x.1 = some x.2 := by
  obtain ⟨q, g⟩ := x
  by_cases hq : q = p
  · subst hq
    simp [hp, eq_comm]
  · simp [put_held_of_ne _ _ hq, hq]

/-- **What has been handed out** when the head is at `H`: items in strictly increasing order of
their positions, all before the head. -/
structure Handed (out : List (ℕ × F)) (H : ℕ) : Prop where
  sorted : out.Pairwise fun x y => x.1 < y.1
  before : ∀ x ∈ out, x.1 < H

theorem Handed.nil (H : ℕ) : Handed ([] : List (ℕ × F)) H := ⟨.nil, by simp⟩

/-- **Handing out keeps the order**, whatever has been handed out before. -/
theorem Handed.advance {out : List (ℕ × F)} (h : Handed out W.head) (n : ℕ) :
    Handed (out ++ W.front n) (W.advance n).head := by
  refine ⟨List.pairwise_append.mpr ⟨h.sorted, pairwise_front n, fun x hx y hy => ?_⟩,
    fun x hx => ?_⟩
  · have := h.before x hx
    have := (mem_front.mp hy).1
    omega
  · rcases List.mem_append.mp hx with hx | hx
    · have := h.before x hx
      simp only [advance_head]
      omega
    · exact (mem_front.mp hx).2.1

end Window

end Atbm6441.Lib
