import Mathlib.Data.List.Nodup
import Mathlib.Logic.Function.Basic

/-!
# Hash tables with chains

Each bucket is a chain of nodes, a new node is put at the front, and a search goes through the chain
of the key's bucket. Whatever the hash function is, the table is a finite map: `find_add` and
`find_modify` say so for the two operations, and `find_addAll` for a table of nodes with different
keys.
-/

namespace Atbm6441.Lib

universe u v w

/-- The chain of each bucket. -/
abbrev Chains (B : Type u) (N : Type v) : Type (max u v) := B → List N

variable {B : Type u} {N : Type v} {K : Type w}

/-- Change the first node that has a property. -/
def modifyFirst (p : N → Bool) (f : N → N) : List N → List N
  | [] => []
  | n :: l => if p n then f n :: l else n :: modifyFirst p f l

theorem find?_modifyFirst {p : N → Bool} {f : N → N} (hf : ∀ n, p (f n) = p n) (l : List N) :
    (modifyFirst p f l).find? p = (l.find? p).map f := by
  induction l with
  | nil => rfl
  | cons n l ih =>
    unfold modifyFirst
    by_cases hn : p n
    · rw [if_pos hn, List.find?_cons_of_pos (by rw [hf]; exact hn), List.find?_cons_of_pos hn]
      rfl
    · rw [if_neg hn, List.find?_cons_of_neg hn, List.find?_cons_of_neg hn, ih]

theorem find?_modifyFirst_of_ne {p q : N → Bool} {f : N → N} (hf : ∀ n, q (f n) = q n)
    (hpq : ∀ n, p n → q n = false) (l : List N) : (modifyFirst p f l).find? q = l.find? q := by
  induction l with
  | nil => rfl
  | cons n l ih =>
    unfold modifyFirst
    by_cases hn : p n
    · have hq : ¬ q n = true := by rw [hpq n hn]; exact Bool.false_ne_true
      rw [if_pos hn, List.find?_cons_of_neg (by rw [hf]; exact hq), List.find?_cons_of_neg hq]
    · rw [if_neg hn, List.find?_cons, List.find?_cons, ih]

namespace Chains

/-- No node in any bucket. -/
def empty : Chains B N := fun _ => []

variable [DecidableEq B] [DecidableEq K] (hash : K → B) (key : N → K)

/-- A new node is the first of its chain. -/
def add (t : Chains B N) (n : N) : Chains B N :=
  Function.update t (hash (key n)) (n :: t (hash (key n)))

/-- The first node with the key in the chain of the key. -/
def find (t : Chains B N) (k : K) : Option N := (t (hash k)).find? fun n => key n = k

/-- Change the node that is found. -/
def modify (t : Chains B N) (k : K) (f : N → N) : Chains B N :=
  Function.update t (hash k) (modifyFirst (fun n => key n = k) f (t (hash k)))

variable {hash key}

omit [DecidableEq B] in
@[simp] theorem find_empty (k : K) : (empty : Chains B N).find hash key k = none := rfl

/-- **What is found after an addition.** -/
theorem find_add (t : Chains B N) (n : N) (k : K) :
    (t.add hash key n).find hash key k = if key n = k then some n else t.find hash key k := by
  unfold find add
  by_cases hkey : key n = k
  · subst hkey
    rw [Function.update_self, if_pos rfl, List.find?_cons_of_pos (by simp)]
  · rw [if_neg hkey]
    by_cases hhash : hash k = hash (key n)
    · rw [hhash, Function.update_self, List.find?_cons_of_neg (by simpa using hkey)]
    · rw [Function.update_of_ne hhash]

/-- **What is found after a change** that leaves the keys. -/
theorem find_modify {f : N → N} (hf : ∀ n, key (f n) = key n) (t : Chains B N) (k k' : K) :
    (t.modify hash key k f).find hash key k' =
      if k' = k then (t.find hash key k).map f else t.find hash key k' := by
  unfold find modify
  by_cases hkey : k' = k
  · subst hkey
    rw [Function.update_self, if_pos rfl]
    exact find?_modifyFirst (fun n => by rw [hf]) _
  · rw [if_neg hkey]
    by_cases hhash : hash k' = hash k
    · rw [hhash, Function.update_self]
      refine find?_modifyFirst_of_ne (fun n => by rw [hf]) (fun n hn => ?_) _
      have hn : key n = k := of_decide_eq_true hn
      exact decide_eq_false fun hn' => hkey (hn'.symm.trans hn)
    · rw [Function.update_of_ne hhash]

/-- **What is found after nodes with different keys** have been added. -/
theorem find_addAll (l : List N) (hl : (l.map key).Nodup) (t : Chains B N) (k : K) :
    (l.foldl (add hash key) t).find hash key k =
      (l.find? fun n => key n = k).or (t.find hash key k) := by
  induction l generalizing t with
  | nil => rfl
  | cons n l ih =>
    obtain ⟨hn, hl⟩ := List.nodup_cons.mp hl
    rw [List.foldl_cons, ih hl, find_add]
    by_cases hkey : key n = k
    · have hnone : (l.find? fun n => key n = k) = none := by
        refine List.find?_eq_none.mpr fun m hm hmk => hn ?_
        rw [hkey, ← of_decide_eq_true hmk]
        exact List.mem_map_of_mem hm
      rw [if_pos hkey, hnone, List.find?_cons_of_pos (by simpa using hkey)]
      rfl
    · rw [if_neg hkey, List.find?_cons_of_neg (by simpa using hkey)]

end Chains

end Atbm6441.Lib
