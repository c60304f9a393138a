import Mathlib.Data.List.Basic
import Mathlib.Tactic.Common

/-!
# Text that is written to the module's files

Pointers into a text of known length are the bytes from there to its end; behind these is the NUL of
the file buffer, so `headD TAIL` reads `pos[0]`. `memchr` is `List.idxOf?`.
-/

namespace Atbm6441.Fs

/-- `ATBM_SPACE`, a space. -/
def SPACE : UInt8 := 32

/-- `ATBM_LINEF`, a line feed. -/
def LINEF : UInt8 := 10

/-- `ATBM_ENTER`, a carriage return. -/
def ENTER : UInt8 := 13

/-- `ATBM_TAIL`, a NUL. -/
def TAIL : UInt8 := 0

/-- `ATBM_EQUAL`, an equals sign. -/
def EQUAL : UInt8 := 61

/-- What `atbm_skip_space` skips. -/
def IsSpace (c : UInt8) : Prop := c = SPACE ∨ c = LINEF ∨ c = ENTER

instance (c : UInt8) : Decidable (IsSpace c) := inferInstanceAs (Decidable (_ ∨ _))

/-- `atbm_skip_space`. -/
def skipSpace : List UInt8 → Option (List UInt8)
  | [] => none
  | c :: target => if IsSpace c then skipSpace target else some (c :: target)

theorem skipSpace_cons_of_space {c : UInt8} (hc : IsSpace c) (l : List UInt8) :
    skipSpace (c :: l) = skipSpace l := if_pos hc

theorem skipSpace_cons_of_not {c : UInt8} (hc : ¬ IsSpace c) (l : List UInt8) :
    skipSpace (c :: l) = some (c :: l) := if_neg hc

theorem skipSpace_append {l : List UInt8} (hl : ∀ c ∈ l, IsSpace c) (r : List UInt8) :
    skipSpace (l ++ r) = skipSpace r := by
  induction l with
  | nil => rfl
  | cons c l ih =>
    rw [List.cons_append, skipSpace_cons_of_space (hl c List.mem_cons_self)]
    exact ih fun c hc => hl c (List.mem_cons_of_mem _ hc)

/-- Nothing but space. -/
theorem skipSpace_all {l : List UInt8} (hl : ∀ c ∈ l, IsSpace c) : skipSpace l = none := by
  simpa [skipSpace] using skipSpace_append hl []

/-- **What is skipped is space**, and what is found is not. -/
theorem skipSpace_some {l r : List UInt8} (h : skipSpace l = some r) :
    ∃ s c r', (∀ c ∈ s, IsSpace c) ∧ ¬ IsSpace c ∧ r = c :: r' ∧ l = s ++ r := by
  induction l with
  | nil => cases h
  | cons c l ih =>
    by_cases hc : IsSpace c
    · rw [skipSpace_cons_of_space hc] at h
      obtain ⟨s, d, r', hs, hd, hr, hl⟩ := ih h
      refine ⟨c :: s, d, r', ?_, hd, hr, by rw [hl, List.cons_append]⟩
      intro e he
      rcases List.mem_cons.mp he with rfl | he
      · exact hc
      · exact hs e he
    · rw [skipSpace_cons_of_not hc] at h
      obtain rfl := Option.some.inj h
      exact ⟨[], c, l, fun _ h => absurd h List.not_mem_nil, hc, rfl, rfl⟩

theorem length_of_skipSpace {l r : List UInt8} (h : skipSpace l = some r) :
    r.length ≤ l.length := by
  obtain ⟨s, _, _, _, _, _, rfl⟩ := skipSpace_some h
  rw [List.length_append]
  omega

theorem idxOf?_append (c : UInt8) (a b : List UInt8) :
    (a ++ b).idxOf? c = (a.idxOf? c).or ((b.idxOf? c).map (· + a.length)) := by
  simp [List.idxOf?, List.findIdx?_append]

theorem idxOf?_append_of_not_mem {c : UInt8} {a : List UInt8} (h : c ∉ a) (b : List UInt8) :
    (a ++ b).idxOf? c = (b.idxOf? c).map (· + a.length) := by
  rw [idxOf?_append, List.idxOf?_eq_none_iff.mpr h]
  rfl

theorem idxOf?_append_cons {c : UInt8} {l : List UInt8} (hl : c ∉ l) (r : List UInt8) :
    (l ++ c :: r).idxOf? c = some l.length := by
  rw [idxOf?_append_of_not_mem hl, List.idxOf?_cons, if_pos (by simp), Option.map_some,
    Nat.zero_add]

/-- **What the search has found.** -/
theorem idxOf?_some {c : UInt8} {l : List UInt8} {i : ℕ} (h : l.idxOf? c = some i) :
    ∃ r, c ∉ l.take i ∧ l = l.take i ++ c :: r ∧ (l.take i).length = i := by
  induction l generalizing i with
  | nil => cases h
  | cons b l ih =>
    rw [List.idxOf?_cons] at h
    by_cases hb : b = c
    · subst hb
      rw [if_pos (by simp)] at h
      obtain rfl := Option.some.inj h
      exact ⟨l, List.not_mem_nil, rfl, rfl⟩
    · rw [if_neg (by simpa using hb)] at h
      obtain ⟨j, hj, rfl⟩ := Option.map_eq_some_iff.mp h
      obtain ⟨r, hnot, hl, hlen⟩ := ih hj
      refine ⟨r, ?_, ?_, ?_⟩
      · rw [List.take_succ_cons]
        exact List.not_mem_cons_of_ne_of_not_mem (Ne.symm hb) hnot
      · rw [List.take_succ_cons, List.cons_append, ← hl]
      · rw [List.take_succ_cons, List.length_cons, hlen]

theorem lt_of_idxOf? {c : UInt8} {l : List UInt8} {i : ℕ} (h : l.idxOf? c = some i) :
    i < l.length := by
  obtain ⟨hlt, -, -⟩ := List.idxOf?_eq_some_iff.mp h
  exact hlt

theorem mem_take_of_idxOf? {p : List UInt8} {c : UInt8} {j n : ℕ} (h : p.idxOf? c = some j)
    (hn : j < n) : c ∈ p.take n := by
  obtain ⟨hlt, hget, -⟩ := List.idxOf?_eq_some_iff.mp h
  exact List.mem_take_iff_getElem.mpr ⟨j, by omega, hget⟩

theorem idxOf?_append_of_mem {c : UInt8} {a : List UInt8} (h : c ∈ a) (b : List UInt8) :
    ∃ i < a.length, (a ++ b).idxOf? c = some i := by
  obtain ⟨i, hi⟩ := Option.isSome_iff_exists.mp (List.isSome_idxOf?.mpr h)
  exact ⟨i, lt_of_idxOf? hi, by rw [idxOf?_append, hi]; rfl⟩

end Atbm6441.Fs
