import Mathlib.Data.List.Basic
import Mathlib.Data.List.Nodup
import Mathlib.Logic.Function.Iterate
import Mathlib.Tactic.Common

/-!
# Rings of nodes that are linked both ways

Nodes with a link to the next and to the previous, as functions `next` and `prev`, and one of them
the head. `Ring next prev h l` says that the links lead from `h` through the nodes of `l` and to `h`
again, and that `prev` leads back.

* `Ring.linkTail`, `Ring.unlink` : a node is put at the end, and taken out;
* `Ring.not_linkTail` : a node of the ring that is put at its end breaks it;
* `Ring.reached_iff` : the links from the head lead to the nodes of the ring.
-/

namespace Atbm6441.Lib

universe u

variable {α : Type u}

/-- **The links** from a node through those of a list to another node, and back. -/
def Linked (next prev : α → α) : α → List α → α → Prop
  | p, [], q => next p = q ∧ prev q = p
  | p, a :: l, q => next p = a ∧ prev a = p ∧ Linked next prev a l q

/-- **The links of a ring** with its head. -/
def Ring (next prev : α → α) (h : α) (l : List α) : Prop :=
  (h :: l).Nodup ∧ Linked next prev h l h

instance decidableLinked [DecidableEq α] (next prev : α → α) : (p : α) → (l : List α) → (q : α) →
    Decidable (Linked next prev p l q)
  | p, [], q => inferInstanceAs (Decidable (next p = q ∧ prev q = p))
  | p, a :: l, q =>
    have := decidableLinked next prev a l q
    inferInstanceAs (Decidable (next p = a ∧ prev a = p ∧ Linked next prev a l q))

instance [DecidableEq α] (next prev : α → α) (h : α) (l : List α) :
    Decidable (Ring next prev h l) :=
  inferInstanceAs (Decidable ((h :: l).Nodup ∧ Linked next prev h l h))

variable {next prev next' prev' : α → α} {h p q a : α} {l l' : List α}

/-! ### Links -/

theorem Linked.append_iff :
    Linked next prev p (l ++ a :: l') q ↔ Linked next prev p l a ∧ Linked next prev a l' q := by
  induction l generalizing p with
  | nil =>
    rw [List.nil_append, Linked, Linked, and_assoc]
  | cons b l ih =>
    rw [List.cons_append, Linked, Linked, ih, and_assoc, and_assoc]

theorem Linked.congr (hl : Linked next prev p l q) (hn : ∀ x ∈ p :: l, next' x = next x)
    (hp : ∀ x ∈ l ++ [q], prev' x = prev x) : Linked next' prev' p l q := by
  induction l generalizing p with
  | nil =>
    rw [Linked] at hl ⊢
    rw [hn p (by simp), hp q (by simp)]
    exact hl
  | cons a l ih =>
    rw [Linked] at hl ⊢
    obtain ⟨h1, h2, h3⟩ := hl
    rw [hn p (by simp), hp a (by simp)]
    exact ⟨h1, h2, ih h3 (fun x hx => hn x (List.mem_cons_of_mem _ hx))
      fun x hx => hp x (List.mem_cons_of_mem _ hx)⟩

theorem Linked.next_mem (hl : Linked next prev p l q) {x : α} (hx : x ∈ p :: l) :
    next x ∈ l ++ [q] ∧ prev (next x) = x := by
  induction l generalizing p with
  | nil =>
    rw [Linked] at hl
    obtain rfl := List.mem_singleton.mp hx
    rw [hl.1]
    exact ⟨by simp, hl.2⟩
  | cons a l ih =>
    rw [Linked] at hl
    obtain ⟨h1, h2, h3⟩ := hl
    rcases List.mem_cons.mp hx with rfl | hx
    · rw [h1]
      exact ⟨by simp, h2⟩
    · obtain ⟨hmem, hback⟩ := ih h3 hx
      exact ⟨List.mem_cons_of_mem _ hmem, hback⟩

theorem Linked.prev_mem (hl : Linked next prev p l q) : prev q ∈ p :: l ∧ next (prev q) = q := by
  induction l generalizing p with
  | nil =>
    rw [Linked] at hl
    rw [hl.2]
    exact ⟨by simp, hl.1⟩
  | cons a l ih =>
    obtain ⟨hmem, hnext⟩ := ih hl.2.2
    exact ⟨List.mem_cons_of_mem _ hmem, hnext⟩

/-! ### Rings -/

theorem Ring.next_mem (hr : Ring next prev h l) {x : α} (hx : x ∈ h :: l) :
    next x ∈ h :: l ∧ prev (next x) = x := by
  obtain ⟨hmem, hback⟩ := hr.2.next_mem hx
  refine ⟨?_, hback⟩
  rcases List.mem_append.mp hmem with hmem | hmem
  · exact List.mem_cons_of_mem _ hmem
  · rw [List.mem_singleton.mp hmem]
    exact List.mem_cons_self

theorem Ring.iterate_mem (hr : Ring next prev h l) (n : ℕ) : next^[n] h ∈ h :: l := by
  induction n with
  | zero => exact List.mem_cons_self
  | succ n ih =>
    rw [Function.iterate_succ_apply']
    exact (hr.next_mem ih).1

theorem Linked.exists_iterate (hl : Linked next prev p l q) {x : α} (hx : x ∈ l) :
    ∃ n, next^[n] p = x := by
  induction l generalizing p with
  | nil => simp at hx
  | cons a l ih =>
    obtain ⟨h1, -, h3⟩ := hl
    rcases List.mem_cons.mp hx with rfl | hx
    · exact ⟨1, h1⟩
    · obtain ⟨n, hn⟩ := ih h3 hx
      exact ⟨n + 1, by rw [Function.iterate_succ_apply, h1, hn]⟩

/-- **The links from the head** lead to the nodes of the ring. -/
theorem Ring.reached_iff (hr : Ring next prev h l) (ha : a ≠ h) :
    (∃ n, next^[n] h = a) ↔ a ∈ l := by
  constructor
  · rintro ⟨n, rfl⟩
    exact (List.mem_cons.mp (hr.iterate_mem n)).resolve_left ha
  · exact hr.2.exists_iterate

theorem Linked.next_head (hl : Linked next prev p l q) : next p = l.headD q := by
  cases l with
  | nil => exact hl.1
  | cons a l => exact hl.1

/-! ### Changing links -/

variable [DecidableEq α]

/-- The `next` links when `a` is put between the last node and the head. -/
def linkNext (next prev : α → α) (h a : α) : α → α :=
  Function.update (Function.update next (prev h) a) a h

/-- The `prev` links when `a` is put between the last node and the head. -/
def linkPrev (prev : α → α) (h a : α) : α → α :=
  Function.update (Function.update prev a (prev h)) h a

/-- The `next` links when `a` is taken out. -/
def unlinkNext (next prev : α → α) (a : α) : α → α := Function.update next (prev a) (next a)

/-- The `prev` links when `a` is taken out, after its `next` links. -/
def unlinkPrev (next prev : α → α) (a : α) : α → α :=
  Function.update prev (unlinkNext next prev a a) (prev a)

/-- **A node is put at the end**, if it is not in the ring. -/
theorem Ring.linkTail (hr : Ring next prev h l) (ha : a ∉ h :: l) :
    Ring (linkNext next prev h a) (linkPrev prev h a) h (l ++ [a]) := by
  obtain ⟨hnodup, hl⟩ := hr
  have hah : a ≠ h := fun heq => ha (heq ▸ List.mem_cons_self)
  refine ⟨?_, Linked.append_iff.mpr ⟨?_, ?_⟩⟩
  · rw [← List.cons_append]
    exact hnodup.append (List.nodup_singleton a)
      (List.disjoint_singleton.mpr ha)
  · -- up to the last node nothing changes; it leads to `a`
    rcases List.eq_nil_or_concat l with rfl | ⟨l, z, rfl⟩
    · have hlast : prev h = h := hl.2
      refine ⟨?_, ?_⟩
      · rw [linkNext, Function.update_of_ne (Ne.symm hah), hlast, Function.update_self]
      · rw [linkPrev, Function.update_of_ne hah, Function.update_self, hlast]
    · rw [List.concat_eq_append] at hl hnodup ha ⊢
      obtain ⟨hfront, hback⟩ := Linked.append_iff.mp hl
      have hlast : prev h = z := hback.2
      have hnodup' : (h :: l ++ [z]).Nodup := hnodup
      have hz : ∀ x ∈ h :: l, x ≠ z := fun x hx heq =>
        (List.nodup_append.mp hnodup').2.2 x hx z (List.mem_singleton_self z) heq
      refine Linked.append_iff.mpr ⟨hfront.congr ?_ ?_, ?_, ?_⟩
      · intro x hx
        have hxa : x ≠ a := fun heq => ha (List.mem_append_left [z] (heq ▸ hx))
        rw [linkNext, Function.update_of_ne hxa, hlast, Function.update_of_ne (hz x hx)]
      · intro x hx
        have hxa : x ≠ a := fun heq => ha (List.mem_cons_of_mem _ (heq ▸ hx))
        have hxh : x ≠ h := fun heq => (List.nodup_cons.mp hnodup).1 (heq ▸ hx)
        rw [linkPrev, Function.update_of_ne hxh, Function.update_of_ne hxa]
      · have hza : z ≠ a := fun heq => ha (by simp [heq])
        rw [linkNext, Function.update_of_ne hza, hlast, Function.update_self]
      · rw [linkPrev, Function.update_of_ne hah, Function.update_self, hlast]
  · refine ⟨?_, ?_⟩
    · rw [linkNext, Function.update_self]
    · rw [linkPrev, Function.update_self]

/-- **A node of the ring that is put at its end** breaks it. -/
theorem Ring.not_linkTail (hr : Ring next prev h l) (ha : a ∈ l) (l' : List α) :
    ¬ Ring (linkNext next prev h a) (linkPrev prev h a) h l' := by
  intro hr'
  obtain ⟨l₁, l₂, rfl⟩ := List.append_of_mem ha
  obtain ⟨hfront, hback⟩ := Linked.append_iff.mp hr.2
  have hnodup : (h :: l₁ ++ a :: l₂).Nodup := hr.1
  obtain ⟨-, -, hdisjoint⟩ := List.nodup_append.mp hnodup
  have hlast := hback.prev_mem.1
  -- in front of `a` nothing changes
  have hsame : ∀ x ∈ h :: l₁, linkNext next prev h a x = next x := fun x hx => by
    rw [linkNext, Function.update_of_ne (hdisjoint x hx a List.mem_cons_self),
      Function.update_of_ne (hdisjoint x hx _ hlast)]
  have hmem : ∀ x ∈ h :: l₁, x ∈ h :: l' := by
    intro x hx
    rcases List.mem_cons.mp hx with rfl | hx
    · exact List.mem_cons_self
    · have hfront' : Linked (linkNext next prev h a) prev h l₁ a :=
        hfront.congr hsame fun _ _ => rfl
      obtain ⟨n, rfl⟩ := hfront'.exists_iterate hx
      exact hr'.iterate_mem n
  -- so `a` has two nodes in front of it
  obtain ⟨hbefore, hnext⟩ := hfront.prev_mem
  have hback' := (hr'.next_mem (hmem _ hbefore)).2
  have hah : a ≠ h := (hdisjoint h List.mem_cons_self a List.mem_cons_self).symm
  rw [hsame _ hbefore, hnext, linkPrev, Function.update_of_ne hah, Function.update_self] at hback'
  exact hdisjoint _ hbefore _ hlast hback'.symm

theorem Linked.retarget (hl : Linked next prev p l a) {b : α} (hnodup : (p :: l).Nodup)
    (hb : b ∉ l) :
    Linked (Function.update next (prev a) b) (Function.update prev b (prev a)) p l b := by
  induction l generalizing p with
  | nil =>
    obtain ⟨-, hpa⟩ := hl
    rw [Linked, hpa, Function.update_self, Function.update_self]
    exact ⟨rfl, rfl⟩
  | cons c l ih =>
    obtain ⟨hnext, hprev, hl⟩ := hl
    obtain ⟨hp, hnodup⟩ := List.nodup_cons.mp hnodup
    have hpa : p ≠ prev a := fun heq => hp (heq ▸ hl.prev_mem.1)
    have hcb : c ≠ b := fun heq => hb (heq ▸ List.mem_cons_self)
    refine ⟨?_, ?_, ih hl hnodup fun hmem => hb (List.mem_cons_of_mem _ hmem)⟩
    · rw [Function.update_of_ne hpa, hnext]
    · rw [Function.update_of_ne hcb, hprev]

/-- **A node is taken out.** -/
theorem Ring.unlink (hr : Ring next prev h (l ++ a :: l')) :
    Ring (unlinkNext next prev a) (unlinkPrev next prev a) h (l ++ l') := by
  obtain ⟨hnodup, hl⟩ := hr
  obtain ⟨hfront, hback⟩ := Linked.append_iff.mp hl
  have hnodup' : (h :: l ++ a :: l').Nodup := hnodup
  obtain ⟨hn, hn', hdisjoint⟩ := List.nodup_append.mp hnodup'
  obtain ⟨hal', hn''⟩ := List.nodup_cons.mp hn'
  have hbefore := hfront.prev_mem.1
  have hself : unlinkNext next prev a a = next a :=
    Function.update_of_ne (hdisjoint _ hbefore a List.mem_cons_self).symm _ _
  refine ⟨?_, ?_⟩
  · exact List.nodup_append.mpr
      ⟨hn, hn'', fun x hx y hy => hdisjoint x hx y (List.mem_cons_of_mem _ hy)⟩
  rw [unlinkPrev, hself, unlinkNext]
  rcases l' with _ | ⟨b, l'⟩
  · rw [List.append_nil, hback.1]
    exact hfront.retarget hn (List.nodup_cons.mp hn).1
  · obtain ⟨hab, -, hback⟩ := hback
    rw [hab]
    refine Linked.append_iff.mpr ⟨hfront.retarget hn fun hmem => ?_, hback.congr ?_ ?_⟩
    · exact hdisjoint b (List.mem_cons_of_mem _ hmem) b
        (List.mem_cons_of_mem _ List.mem_cons_self) rfl
    · intro x hx
      exact Function.update_of_ne (hdisjoint _ hbefore x (List.mem_cons_of_mem _ hx)).symm _ _
    · intro x hx
      refine Function.update_of_ne ?_ _ _
      rcases List.mem_append.mp hx with hx | hx
      · exact fun heq => (List.nodup_cons.mp hn'').1 (heq ▸ hx)
      · rw [List.mem_singleton.mp hx]
        exact hdisjoint h List.mem_cons_self b (List.mem_cons_of_mem _ List.mem_cons_self)

end Atbm6441.Lib
