import Mathlib.Data.List.Basic
import Mathlib.Data.List.Nodup
import Mathlib.Tactic.Common

/-!
# Chains of links

Nodes with a link to the next, as a function `next`. `Chain next p l` says that the links from `p` on
lead through the nodes of `l` and end. `find` follows them, for a number of nodes at most, and
`removeAfter` takes a node out behind its predecessor.

* `Chain.find_eq` : following the links of a chain ends, with the first node of the list;
* `Chain.push`, `Chain.remove_head`, `Chain.remove_after` : a node is put in front and taken out;
* `Chain.update` : links outside of a chain do not matter.
-/

namespace Atbm6441.Lib

universe u

variable {α : Type u} {next : α → Option α}

/-- **The links** from a node on (from none if the chain is empty). -/
inductive Chain (next : α → Option α) : Option α → List α → Prop
  | nil : Chain next none []
  | cons {a : α} {l : List α} : Chain next (next a) l → Chain next (some a) (a :: l)

/-- The first node that `stop` holds of, among `n` nodes at most: `none` when there are more. -/
def find (next : α → Option α) (stop : α → Bool) : ℕ → Option α → Option (Option α)
  | _, none => some none
  | 0, some _ => none
  | n + 1, some a => if stop a then some (some a) else find next stop n (next a)

/-! ### What a chain is -/

theorem Chain.eq_nil {l : List α} (h : Chain next none l) : l = [] := by
  rcases h
  rfl

theorem Chain.exists_cons {a : α} {l : List α} (h : Chain next (some a) l) :
    ∃ l', l = a :: l' ∧ Chain next (next a) l' := by
  rcases h with _ | h
  exact ⟨_, rfl, h⟩

theorem Chain.unique {p : Option α} {l l' : List α} (h : Chain next p l) (h' : Chain next p l') :
    l = l' := by
  induction h generalizing l' with
  | nil => exact h'.eq_nil.symm
  | cons _ ih =>
    obtain ⟨l'', rfl, h''⟩ := h'.exists_cons
    rw [ih h'']

/-- The links from any of its nodes on are the rest of the chain. -/
theorem Chain.suffix {p : Option α} {l : List α} (h : Chain next p l) {a : α} (ha : a ∈ l) :
    ∃ l', Chain next (some a) (a :: l') ∧ (a :: l').length ≤ l.length := by
  induction h with
  | nil => simp at ha
  | @cons b l hl ih =>
    rcases List.mem_cons.mp ha with rfl | ha
    · exact ⟨l, .cons hl, Nat.le_refl _⟩
    · obtain ⟨l', hl', hlen⟩ := ih ha
      exact ⟨l', hl', Nat.le_succ_of_le hlen⟩

theorem Chain.next_mem {p : Option α} {l : List α} (h : Chain next p l) {a b : α} (ha : a ∈ l)
    (hb : next a = some b) : b ∈ l := by
  induction h with
  | nil => simp at ha
  | @cons c l hl ih =>
    rcases List.mem_cons.mp ha with rfl | ha
    · rw [hb] at hl
      obtain ⟨l', rfl, -⟩ := hl.exists_cons
      exact List.mem_cons_of_mem _ List.mem_cons_self
    · exact List.mem_cons_of_mem _ (ih ha)

theorem Chain.nodup {p : Option α} {l : List α} (h : Chain next p l) : l.Nodup := by
  induction h with
  | nil => exact List.nodup_nil
  | @cons a l hl ih =>
    refine List.nodup_cons.mpr ⟨fun ha => ?_, ih⟩
    obtain ⟨l', hl', hlen⟩ := hl.suffix ha
    have hsame := (Chain.cons hl).unique hl'
    rw [← hsame, List.length_cons] at hlen
    omega

/-! ### Following the links -/

/-- **Following the links ends** with the first node of the chain that is looked for. -/
theorem Chain.find_eq {p : Option α} {l : List α} (h : Chain next p l) (stop : α → Bool) {n : ℕ}
    (hn : l.length ≤ n) : find next stop n p = some (l.find? stop) := by
  induction h generalizing n with
  | nil => simp [find]
  | @cons a l hl ih =>
    rcases n with _ | n
    · simp at hn
    · have hrest := ih (Nat.le_of_succ_le_succ hn)
      by_cases hs : stop a = true
      · simp [find, hs]
      · rw [find, if_neg hs, hrest, List.find?_cons_of_neg hs]

/-! ### Changing links -/

variable [DecidableEq α]

theorem Chain.update {p : Option α} {l : List α} (h : Chain next p l) {a : α} (ha : a ∉ l)
    (q : Option α) : Chain (Function.update next a q) p l := by
  induction h with
  | nil => exact .nil
  | @cons b l hl ih =>
    rw [List.mem_cons, not_or] at ha
    refine .cons ?_
    rw [Function.update_of_ne (Ne.symm ha.1)]
    exact ih ha.2

theorem Chain.push {p : Option α} {l : List α} (h : Chain next p l) {a : α} (ha : a ∉ l) :
    Chain (Function.update next a p) (some a) (a :: l) := by
  refine .cons ?_
  rw [Function.update_self]
  exact h.update ha p

theorem Chain.remove_head {a : α} {l : List α} (h : Chain next (some a) l) :
    Chain next (next a) (l.erase a) := by
  obtain ⟨l', rfl, hl'⟩ := h.exists_cons
  rw [List.erase_cons_head]
  exact hl'

/-- The test that stops at the predecessor of a node, or at the last node. -/
def isBefore (next : α → Option α) (a : α) : α → Bool := fun b => next b = none ∨ next b = some a

/-- **The search for the predecessor** of a node that is not the first one finds it, and the chain with
its link changed is the chain without the node. -/
theorem Chain.remove_after {a b : α} {l : List α} (h : Chain next (some b) l) (ha : a ∈ l)
    (hab : b ≠ a) : ∃ c, l.find? (isBefore next a) = some c ∧ next c = some a ∧ c ∈ l ∧ c ≠ a ∧
      Chain (Function.update next c (next a)) (some b) (l.erase a) := by
  induction l generalizing b with
  | nil => simp at ha
  | cons b' l ih =>
    obtain ⟨l', heq, hl'⟩ := h.exists_cons
    obtain ⟨rfl, rfl⟩ := List.cons.inj heq
    have hnodup := h.nodup
    have hmem : a ∈ l := (List.mem_cons.mp ha).resolve_left (Ne.symm hab)
    rw [List.erase_cons_tail (by simpa using hab)]
    rcases hnext : next b' with _ | d
    · rw [hnext] at hl'
      simp [hl'.eq_nil] at hmem
    · rw [hnext] at hl'
      by_cases hda : d = a
      · subst hda
        refine ⟨b', ?_, hnext, List.mem_cons_self, hab, ?_⟩
        · simp [isBefore, hnext]
        · refine .cons ?_
          rw [Function.update_self]
          exact hl'.remove_head.update
            (fun hb => (List.nodup_cons.mp hnodup).1 (List.mem_of_mem_erase hb)) _
      · obtain ⟨c, hfind, hc, hcl, hca, hchain⟩ := ih hl' hmem hda
        have hcb : b' ≠ c := fun hcb => (List.nodup_cons.mp hnodup).1 (hcb ▸ hcl)
        refine ⟨c, ?_, hc, List.mem_cons_of_mem _ hcl, hca, .cons ?_⟩
        · rw [List.find?_cons_of_neg (by simp [isBefore, hnext, hda])]
          exact hfind
        · rw [Function.update_of_ne hcb, hnext]
          exact hchain

end Atbm6441.Lib
