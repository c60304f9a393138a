import Mathlib.Data.List.Basic
import Mathlib.Tactic.Common

/-!
# Something sent in parts

A transfer is a list of parts: the first opens it, the last closes it, and their data are what is
sent. A transfer may be given up after any of its parts. The reader of a stream of parts starts anew
at a part that opens, and has something whole at one that closes: it gets what was not given up, and
nothing else (`images_transfers`).
-/

namespace Atbm6441.Lib.Parts

variable {κ α : Type*}

/-- A part of something with a name. -/
structure Part (κ α : Type*) where
  key : κ
  opens : Bool
  data : List α
  closes : Bool
deriving DecidableEq

/-- What the reader has of the transfer under way. -/
def Part.joined (p : Part κ α) (got : Option (List α)) : Option (List α) :=
  if p.opens then some p.data else got.map (· ++ p.data)

/-- What the reader gets whole of a stream. -/
def images : Option (List α) → List (Part κ α) → List (κ × List α)
  | _, [] => []
  | got, p :: ps =>
    if p.closes then (p.joined got).toList.map (p.key, ·) ++ images none ps
    else images (p.joined got) ps

/-- The parts of `f`, or what is left of them behind the first; `o` is whether the first opens. -/
inductive Carries (k : κ) : Bool → List α → List (Part κ α) → Prop
  | last (o : Bool) (data : List α) : Carries k o data [⟨k, o, data, true⟩]
  | cons (o : Bool) (data : List α) {f : List α} {ps : List (Part κ α)} (h : Carries k false f ps) :
      Carries k o (data ++ f) (⟨k, o, data, false⟩ :: ps)

variable {k : κ} {o : Bool} {f : List α} {ps qs : List (Part κ α)}

/-- A stream that does not go on with what was before. -/
def Anew (ps : List (Part κ α)) : Prop := ∀ p, ps.head? = some p → p.opens = true

theorem images_anew (h : Anew ps) (got got' : Option (List α)) :
    images got ps = images got' ps := by
  cases ps with
  | nil => rfl
  | cons p ps =>
    have hjoined : p.joined got = p.joined got' := by
      rw [Part.joined, Part.joined, if_pos (h p rfl), if_pos (h p rfl)]
    rw [images, images, hjoined]

theorem images_rest (h : Carries k o f ps) (ho : o = false) (got : List α)
    (qs : List (Part κ α)) : images (some got) (ps ++ qs) = (k, got ++ f) :: images none qs := by
  induction h generalizing got with
  | last o data =>
    subst ho
    rfl
  | cons o data _ ih =>
    subst ho
    rw [← List.append_assoc]
    exact ih rfl _

theorem images_rest_take (h : Carries k o f ps) (ho : o = false) {j : ℕ} (hj : j < ps.length)
    (got : List α) (hqs : Anew qs) : images (some got) (ps.take j ++ qs) = images none qs := by
  induction h generalizing got j with
  | last o data =>
    obtain rfl : j = 0 := by simpa using hj
    exact images_anew hqs _ _
  | cons o data _ ih =>
    subst ho
    cases j with
    | zero => exact images_anew hqs _ _
    | succ j => exact ih rfl (Nat.lt_of_succ_lt_succ hj) _

theorem Carries.anew (h : Carries k true f ps) : Anew ps := by
  cases h <;> (rintro p ⟨⟩; rfl)

theorem images_carries (h : Carries k true f ps) (got : Option (List α))
    (qs : List (Part κ α)) : images got (ps ++ qs) = (k, f) :: images none qs := by
  cases h with
  | last => rfl
  | cons _ data h => exact images_rest h rfl data qs

theorem images_carries_take (h : Carries k true f ps) {j : ℕ} (hj : j < ps.length)
    (got : Option (List α)) (hqs : Anew qs) : images got (ps.take j ++ qs) = images none qs := by
  cases j with
  | zero => exact images_anew hqs _ _
  | succ j =>
    cases h with
    | last => exact absurd (Nat.lt_of_succ_lt_succ hj) (Nat.not_lt_zero _)
    | cons _ data h => exact images_rest_take h rfl (Nat.lt_of_succ_lt_succ hj) data hqs

/-- A transfer, with how many of its parts arrive. -/
structure Transfer (κ α : Type*) where
  key : κ
  whole : List α
  parts : List (Part κ α)
  carries : Carries key true whole parts
  sent : ℕ

namespace Transfer

/-- What arrives of it. -/
def arrived (t : Transfer κ α) : List (Part κ α) := t.parts.take t.sent

theorem anew_arrived (t : Transfer κ α) : Anew t.arrived := by
  intro p hp
  refine t.carries.anew p ?_
  rcases hsent : t.sent with _ | j
  · rw [arrived, hsent] at hp
    cases hp
  · rw [arrived, hsent] at hp
    cases hparts : t.parts with
    | nil => rw [hparts] at hp; cases hp
    | cons q qs => rw [hparts] at hp; exact hp

end Transfer

theorem anew_append {ps qs : List (Part κ α)} (hp : Anew ps) (hq : Anew qs) : Anew (ps ++ qs) := by
  cases ps with
  | nil => exact hq
  | cons p ps => exact hp

theorem anew_arrivals (ts : List (Transfer κ α)) : Anew (ts.flatMap Transfer.arrived) := by
  induction ts with
  | nil => exact nofun
  | cons t ts ih => exact anew_append t.anew_arrived ih

/-- **The reader gets what has arrived to its end**, in its order. -/
theorem images_transfers (ts : List (Transfer κ α)) (got : Option (List α)) :
    images got (ts.flatMap Transfer.arrived) =
      (ts.filter fun t => t.parts.length ≤ t.sent).map fun t => (t.key, t.whole) := by
  induction ts generalizing got with
  | nil => rfl
  | cons t ts ih =>
    rw [List.flatMap_cons]
    by_cases hsent : t.parts.length ≤ t.sent
    · rw [List.filter_cons_of_pos (by simpa using hsent), List.map_cons, ← ih none,
        Transfer.arrived, List.take_of_length_le hsent]
      exact images_carries t.carries got _
    · rw [List.filter_cons_of_neg (by simpa using hsent), ← ih none]
      exact images_carries_take t.carries (Nat.lt_of_not_le hsent) got (anew_arrivals ts)

end Atbm6441.Lib.Parts
