import Mathlib.Algebra.BigOperators.Group.List.Basic
import Mathlib.Data.Int.ModEq
import Mathlib.Data.Nat.ModEq
import Mathlib.Tactic.Common

/-!
# Links

Chunks of data are put one behind the other, each padded to a length of its own, and a reader that
learns the length of a chunk from its front takes them apart (`takeApart_flatten`). Messages are
numbered modulo `N` and sent in batches, which arrive or are lost; a reader that expects one number
after the other does not notice a loss exactly when it is a multiple of `N` (`accepts_arrivals_iff`).
-/

namespace Atbm6441.Lib

/-! ### Chunks -/

section Chunks

variable {α : Type} (len : List α → ℕ) (pad : ℕ → ℕ)

/-- The reader: `len` is the length of the chunk in front, which is padded to `pad` of it. It takes
no more than `n` chunks. -/
def takeApart : ℕ → List α → List (List α)
  | 0, _ => []
  | _, [] => []
  | n + 1, a :: l => (a :: l).take (len (a :: l)) :: takeApart n ((a :: l).drop (pad (len (a :: l))))

/-- A place for a chunk: what is behind it has no influence on the length, and it is as long as the
padding asks for. -/
structure Slot (s : List α) : Prop where
  ne_nil : s ≠ []
  len_append : ∀ rest, len (s ++ rest) = len s
  le_length : len s ≤ s.length
  pad_len : pad (len s) = s.length

variable {len pad}

/-- **Chunks are taken apart** as they were put together. -/
theorem takeApart_flatten {slots : List (List α)} (h : ∀ s ∈ slots, Slot len pad s) {n : ℕ}
    (hn : slots.length ≤ n) :
    takeApart len pad n slots.flatten = slots.map fun s => s.take (len s) := by
  induction slots generalizing n with
  | nil => cases n <;> rfl
  | cons s slots ih =>
    have hs := h s List.mem_cons_self
    obtain ⟨n, rfl⟩ := Nat.exists_eq_add_of_le' (Nat.le_trans (Nat.succ_le_succ (Nat.zero_le _)) hn)
    rw [List.flatten_cons, List.map_cons, ← ih (fun t ht => h t (List.mem_cons_of_mem _ ht))
      (Nat.le_of_succ_le_succ hn)]
    obtain ⟨a, s', rfl⟩ := List.exists_cons_of_ne_nil hs.ne_nil
    have hlen := hs.len_append slots.flatten
    rw [List.cons_append] at hlen ⊢
    rw [takeApart, hlen, hs.pad_len, ← List.cons_append, List.drop_left,
      List.take_append_of_le_length hs.le_length]

theorem length_le_flatten {slots : List (List α)} (h : ∀ s ∈ slots, Slot len pad s) :
    slots.length ≤ slots.flatten.length := by
  induction slots with
  | nil => exact Nat.le_refl _
  | cons s slots ih =>
    have hpos := List.length_pos_iff.mpr (h s List.mem_cons_self).ne_nil
    have hrest := ih fun t ht => h t (List.mem_cons_of_mem _ ht)
    rw [List.flatten_cons, List.length_append, List.length_cons]
    omega

end Chunks

/-! ### Numbers -/

section Numbers

variable {M : Type} {N : ℕ}

/-- Messages that are sent together. -/
structure Batch (M : Type) where
  arrives : Bool
  msgs : List M

/-- Messages with their numbers, from `k` on. -/
def numbered (N : ℕ) : ℕ → List M → List (ℕ × M)
  | _, [] => []
  | k, m :: ms => (k % N, m) :: numbered N (k + 1) ms

/-- What arrives; batches that are lost have taken their numbers. -/
def arrivals (N : ℕ) : ℕ → List (Batch M) → List (ℕ × M)
  | _, [] => []
  | k, b :: bs =>
    (if b.arrives then numbered N k b.msgs else []) ++ arrivals N (k + b.msgs.length) bs

/-- The messages of the batches that are lost. -/
def lost (bs : List (Batch M)) : ℕ :=
  (bs.map fun b => if b.arrives then 0 else b.msgs.length).sum

/-- **The reader notices nothing**: the numbers are `e`, `e + 1` and so on. -/
def Accepts (N : ℕ) : ℕ → List ℕ → Prop
  | _, [] => True
  | e, k :: ks => k = e % N ∧ Accepts N (e + 1) ks

theorem accepts_append (e : ℕ) (ks ks' : List ℕ) :
    Accepts N e (ks ++ ks') ↔ Accepts N e ks ∧ Accepts N (e + ks.length) ks' := by
  induction ks generalizing e with
  | nil => exact (true_and _).symm.to_iff
  | cons k ks ih =>
    rw [List.cons_append, Accepts, Accepts, ih, and_assoc, List.length_cons, Nat.add_assoc,
      Nat.add_comm 1]

theorem length_numbered (k : ℕ) (ms : List M) : (numbered N k ms).length = ms.length := by
  induction ms generalizing k with
  | nil => rfl
  | cons m ms ih => rw [numbered, List.length_cons, ih, List.length_cons]

theorem accepts_numbered (e d : ℕ) {ms : List M} (hms : ms ≠ []) :
    Accepts N e ((numbered N (e + d) ms).map Prod.fst) ↔ N ∣ d := by
  have hahead (e : ℕ) : (e + d) % N = e % N ↔ N ∣ d := by
    rw [eq_comm, ← Nat.ModEq, Nat.modEq_iff_dvd' (Nat.le_add_right e d), Nat.add_sub_cancel_left]
  induction ms generalizing e with
  | nil => exact absurd rfl hms
  | cons m ms ih =>
    rw [numbered, List.map_cons, Accepts, hahead]
    rcases ms with _ | ⟨m', ms⟩
    · exact and_iff_left trivial
    · have hnext := ih (e + 1) (List.cons_ne_nil _ _)
      rw [Nat.add_right_comm] at hnext
      exact (and_congr_right' hnext).trans and_self_iff

theorem accepts_arrivals_add (e d : ℕ) (bs : List (Batch M)) :
    Accepts N e ((arrivals N (e + d) bs).map Prod.fst) ↔
      ∀ pre b post, bs = pre ++ b :: post → b.arrives = true → b.msgs ≠ [] → N ∣ d + lost pre := by
  induction bs generalizing e d with
  | nil =>
    refine iff_of_true trivial fun pre b post h => ?_
    simp at h
  | cons c bs ih =>
    -- a batch of the rest, or the first one
    have hsplit : (∀ pre b post, c :: bs = pre ++ b :: post → b.arrives = true → b.msgs ≠ [] →
        N ∣ d + lost pre) ↔ (c.arrives = true → c.msgs ≠ [] → N ∣ d) ∧
          ∀ pre b post, bs = pre ++ b :: post → b.arrives = true → b.msgs ≠ [] →
            N ∣ d + lost (c :: pre) := by
      constructor
      · intro h
        exact ⟨fun ha hm => h [] c bs rfl ha hm, fun pre b post hbs ha hm =>
          h (c :: pre) b post (by rw [hbs, List.cons_append]) ha hm⟩
      · rintro ⟨hc, h⟩ (_ | ⟨c', pre⟩) b post hbs ha hm
        · obtain ⟨rfl, -⟩ := List.cons_eq_cons.mp hbs
          exact hc ha hm
        · obtain ⟨rfl, htail⟩ := List.cons_eq_cons.mp hbs
          exact h pre b post htail ha hm
    rw [hsplit, arrivals, List.map_append, accepts_append, List.length_map]
    by_cases ha : c.arrives = true
    · have hlost (pre : List (Batch M)) : lost (c :: pre) = lost pre := by simp [lost, ha]
      rw [if_pos ha, length_numbered, Nat.add_right_comm, ih]
      simp only [hlost, ha, true_implies]
      refine and_congr_left' ?_
      by_cases hm : c.msgs = []
      · exact iff_of_true (by rw [hm]; trivial) fun h => absurd hm h
      · rw [accepts_numbered e d hm]
        exact ⟨fun h _ => h, fun h => h hm⟩
    · have hlost (pre : List (Batch M)) : d + lost (c :: pre) = d + c.msgs.length + lost pre := by
        simp [lost, ha, Nat.add_assoc]
      rw [if_neg ha, List.length_nil, Nat.add_zero, Nat.add_assoc, ih]
      simp only [hlost]
      exact and_congr (iff_of_true trivial fun h => absurd h ha) Iff.rfl

/-- **A loss is not noticed** exactly when, in front of each batch that arrives, a multiple of `N`
messages is lost. -/
theorem accepts_arrivals_iff (e : ℕ) (bs : List (Batch M)) :
    Accepts N e ((arrivals N e bs).map Prod.fst) ↔
      ∀ pre b post, bs = pre ++ b :: post → b.arrives = true → b.msgs ≠ [] → N ∣ lost pre := by
  have h := accepts_arrivals_add (N := N) e 0 bs
  simpa only [Nat.add_zero, Nat.zero_add] using h

end Numbers

end Atbm6441.Lib
