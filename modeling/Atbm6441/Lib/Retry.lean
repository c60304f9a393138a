import Mathlib.Data.Nat.Init
import Mathlib.Tactic.Common

/-!
# Loops that try again

`retry again op n i` makes try `i` and at most `n` more, and stops at the first whose outcome is not
to be tried again (`retry_cases`, `retry_iff`); `tries` does so with a state (`tries_inv`).
`repeatUntil body` goes on until its body gives a result; with the rounds counted, what the body
keeps holds when it does (`repeatUntil_inv`), and it ends if some round ends it whatever the state is
(`repeatUntil_isSome`).
-/

namespace Atbm6441.Lib

universe u v w

variable {α : Type u} {σ : Type v} {ρ : Type w}

/-! ### A bounded number of tries -/

/-- Try `i`, and at most `n` more. -/
def retry (again : α → Bool) (op : ℕ → α) : ℕ → ℕ → α
  | 0, i => op i
  | n + 1, i => if again (op i) then retry again op n (i + 1) else op i

variable {again : α → Bool} {op : ℕ → α}

/-- **The outcome** is that of the first try that is not to be repeated; or all are, and it is that
of the last. -/
theorem retry_cases (again : α → Bool) (op : ℕ → α) (n i : ℕ) :
    (∃ j, i ≤ j ∧ j ≤ i + n ∧ again (op j) = false ∧ (∀ k, i ≤ k → k < j → again (op k) = true) ∧
      retry again op n i = op j) ∨
    (∀ j, i ≤ j → j ≤ i + n → again (op j) = true) ∧ retry again op n i = op (i + n) := by
  induction n generalizing i with
  | zero =>
    by_cases hi : again (op i) = true
    · refine .inr ⟨fun j hij hj => ?_, rfl⟩
      have hji : j = i := by omega
      rw [hji, hi]
    · exact .inl ⟨i, by omega, by omega, Bool.eq_false_iff.mpr hi, fun k _ _ => by omega, rfl⟩
  | succ n ih =>
    by_cases hi : again (op i) = true
    · have hnext : retry again op (n + 1) i = retry again op n (i + 1) := if_pos hi
      have hfirst : ∀ k, i ≤ k → ¬ i + 1 ≤ k → again (op k) = true := by
        intro k hk hk'
        have hki : k = i := by omega
        rw [hki, hi]
      rw [hnext]
      rcases ih (i + 1) with ⟨j, hij, hj, hstop, hbefore, heq⟩ | ⟨hall, heq⟩
      · refine .inl ⟨j, by omega, by omega, hstop, fun k hk hkj => ?_, heq⟩
        by_cases hki : i + 1 ≤ k
        · exact hbefore k hki hkj
        · exact hfirst k hk hki
      · refine .inr ⟨fun j hij hj => ?_, by rw [heq]; congr 1; omega⟩
        by_cases hki : i + 1 ≤ j
        · exact hall j hki (by omega)
        · exact hfirst j hij hki
    · refine .inl ⟨i, by omega, by omega, Bool.eq_false_iff.mpr hi, fun k _ _ => by omega, ?_⟩
      exact if_neg hi

/-- The outcome is not one to be tried again if and only if there is such a try. -/
theorem retry_iff (n : ℕ) :
    again (retry again op n 0) = false ↔ ∃ j < n + 1, again (op j) = false := by
  rcases retry_cases again op n 0 with ⟨j, -, hj, hstop, -, heq⟩ | ⟨hall, heq⟩
  · rw [heq]
    exact iff_of_true hstop ⟨j, by omega, hstop⟩
  · rw [heq, hall _ (Nat.zero_le _) (by omega)]
    refine ⟨fun h => Bool.noConfusion h, fun ⟨j, hj, hstop⟩ => ?_⟩
    rw [hall j (Nat.zero_le _) (by omega)] at hstop
    exact hstop

/-! ### Tries that change a state -/

/-- Try `i`, and at most `n` more, each in the state that the one before has left. -/
def tries (again : ρ → Bool) (op : ℕ → σ → ρ × σ) : ℕ → ℕ → σ → ρ × σ
  | 0, i, s => op i s
  | n + 1, i, s =>
    if again (op i s).1 then tries again op n (i + 1) (op i s).2 else op i s

/-- **The rule of the tries**: what those that are repeated keep holds before the one that is not, or
at the end. -/
theorem tries_inv {again : ρ → Bool} {op : ℕ → σ → ρ × σ} (I : σ → Prop)
    (hagain : ∀ i s, I s → again (op i s).1 = true → I (op i s).2) (n i : ℕ) {s : σ} (hs : I s) :
    (∃ j t, I t ∧ again (op j t).1 = false ∧ tries again op n i s = op j t) ∨
      again (tries again op n i s).1 = true ∧ I (tries again op n i s).2 := by
  induction n generalizing i s with
  | zero =>
    rcases h : again (op i s).1 with _ | _
    · exact .inl ⟨i, s, hs, h, rfl⟩
    · exact .inr ⟨h, hagain i s hs h⟩
  | succ n ih =>
    rcases h : again (op i s).1 with _ | _
    · refine .inl ⟨i, s, hs, h, ?_⟩
      rw [tries, h, if_neg Bool.false_ne_true]
    · have hnext : tries again op (n + 1) i s = tries again op n (i + 1) (op i s).2 := if_pos h
      rw [hnext]
      exact ih (i + 1) (hagain i s hs h)

/-! ### Rounds without a bound -/

/-- Rounds from round `k` on, until the body gives a result; none if that takes more than `fuel`. -/
def repeatUntil (body : ℕ → σ → σ ⊕ ρ) : ℕ → ℕ → σ → Option ρ
  | 0, _, _ => none
  | fuel + 1, k, s =>
    match body k s with
    | .inl s => repeatUntil body fuel (k + 1) s
    | .inr r => some r

variable {body : ℕ → σ → σ ⊕ ρ} {fuel k : ℕ} {s t : σ} {r : ρ}

theorem repeatUntil_next (h : body k s = .inl t) :
    repeatUntil body (fuel + 1) k s = repeatUntil body fuel (k + 1) t := by
  rw [repeatUntil, h]

theorem repeatUntil_done (h : body k s = .inr r) : repeatUntil body (fuel + 1) k s = some r := by
  rw [repeatUntil, h]

/-- **The rule of the loop**: what every round keeps holds in the round that gives the result. -/
theorem repeatUntil_inv (I : ℕ → σ → Prop) (hstep : ∀ k s t, I k s → body k s = .inl t → I (k + 1) t)
    (h0 : I k s) (h : repeatUntil body fuel k s = some r) : ∃ j t, I j t ∧ body j t = .inr r := by
  induction fuel generalizing k s with
  | zero => cases h
  | succ fuel ih =>
    rcases hb : body k s with t | r'
    · rw [repeatUntil_next hb] at h
      exact ih (hstep k s t h0 hb) h
    · rw [repeatUntil_done hb] at h
      exact ⟨k, s, h0, hb.trans (congrArg Sum.inr (Option.some.inj h))⟩

/-- **The loop ends** if there is a round that ends it in every state. -/
theorem repeatUntil_isSome {j : ℕ} (hj : ∀ s, ∃ r, body j s = .inr r) (hk : k ≤ j)
    (hfuel : j - k < fuel) (s : σ) : ∃ r, repeatUntil body fuel k s = some r := by
  induction fuel generalizing k s with
  | zero => omega
  | succ fuel ih =>
    rcases hb : body k s with t | r
    · rw [repeatUntil_next hb]
      have hkj : k ≠ j := by
        rintro rfl
        obtain ⟨r, hr⟩ := hj s
        rw [hr] at hb
        cases hb
      exact ih (by omega) (by omega) t
    · exact ⟨r, repeatUntil_done hb⟩

end Atbm6441.Lib
