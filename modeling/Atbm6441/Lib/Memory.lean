import Atbm6441.Lib.Cursor

/-!
# Bytes written to a memory

A memory has a byte at every address. `slice_writes` : what is written is what is read there;
`slice_writes_below`, `slice_writes_above` : bytes elsewhere are as before.
-/

namespace Atbm6441.Lib

/-- The memory with some bytes written from `pos` on. -/
def writes (mem : ℕ → UInt8) (pos : ℕ) (l : List UInt8) : ℕ → UInt8 :=
  fun i => if pos ≤ i ∧ i < pos + l.length then l.getD (i - pos) 0 else mem i

variable {mem mem' : ℕ → UInt8} {pos p n : ℕ}

theorem length_slice (mem : ℕ → UInt8) (pos n : ℕ) : (slice mem pos n).length = n := by
  rw [slice, List.length_map, List.length_range]

theorem slice_congr (h : ∀ i, pos ≤ i → i < pos + n → mem i = mem' i) :
    slice mem pos n = slice mem' pos n := by
  refine List.map_congr_left fun i hi => ?_
  have hlt := List.mem_range.mp hi
  exact h _ (by omega) (by omega)

theorem slice_append (mem : ℕ → UInt8) (pos m n : ℕ) :
    slice mem pos (m + n) = slice mem pos m ++ slice mem (pos + m) n := by
  unfold slice
  rw [List.range_add, List.map_append, List.map_map]
  congr 1
  refine List.map_congr_left fun i _ => ?_
  rw [Function.comp_apply, Nat.add_assoc]

theorem slice_take (mem : ℕ → UInt8) (pos : ℕ) {m n : ℕ} (hmn : m ≤ n) :
    (slice mem pos n).take m = slice mem pos m := by
  obtain ⟨k, rfl⟩ := Nat.exists_eq_add_of_le hmn
  rw [slice_append, List.take_left' (length_slice _ _ _)]

/-- **What is written** is what is read. -/
theorem slice_writes (mem : ℕ → UInt8) (pos : ℕ) (l : List UInt8) :
    slice (writes mem pos l) pos l.length = l := by
  unfold slice
  refine List.ext_getElem (by rw [List.length_map, List.length_range]) fun i hi hl => ?_
  have hin : pos ≤ pos + i ∧ pos + i < pos + l.length := ⟨by omega, by omega⟩
  rw [List.getElem_map, List.getElem_range, writes, if_pos hin, Nat.add_sub_cancel_left,
    List.getD_eq_getElem?_getD, List.getElem?_eq_getElem hl, Option.getD_some]

theorem slice_writes_sub (mem : ℕ → UInt8) (pos : ℕ) {l : List UInt8} {p m : ℕ}
    (h : p + m ≤ l.length) : slice (writes mem pos l) (pos + p) m = (l.drop p).take m := by
  obtain ⟨k, hk⟩ := Nat.exists_eq_add_of_le h
  have hall := slice_writes mem pos l
  rw [hk, Nat.add_assoc, slice_append] at hall
  have hdrop := congrArg (List.drop p) hall
  rw [List.drop_left' (length_slice _ _ _)] at hdrop
  rw [← hdrop, slice_take _ _ (Nat.le_add_right m k)]

theorem slice_writes_below (l : List UInt8) (h : p + n ≤ pos) :
    slice (writes mem pos l) p n = slice mem p n := by
  refine slice_congr fun i _ hi => if_neg ?_
  omega

theorem slice_writes_above (l : List UInt8) (h : pos + l.length ≤ p) :
    slice (writes mem pos l) p n = slice mem p n := by
  refine slice_congr fun i hi _ => if_neg ?_
  omega

theorem writes_writes (mem : ℕ → UInt8) (pos : ℕ) (l m : List UInt8) :
    writes (writes mem pos l) (pos + l.length) m = writes mem pos (l ++ m) := by
  funext i
  unfold writes
  rw [List.length_append]
  by_cases hm : pos + l.length ≤ i ∧ i < pos + l.length + m.length
  · rw [if_pos hm, if_pos (by omega), List.getD_eq_getElem?_getD, List.getD_eq_getElem?_getD,
      List.getElem?_append_right (by omega), Nat.sub_sub]
  · rw [if_neg hm]
    by_cases hl : pos ≤ i ∧ i < pos + l.length
    · rw [if_pos hl, if_pos (by omega), List.getD_eq_getElem?_getD, List.getD_eq_getElem?_getD,
        List.getElem?_append_left (by omega)]
    · rw [if_neg hl, if_neg (by omega)]

end Atbm6441.Lib
