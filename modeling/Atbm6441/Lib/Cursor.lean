import Mathlib.Algebra.GroupWithZero.Nat
import Atbm6441.Lib.Bytes

/-!
# Programs that take fields from a buffer

A `Get` program takes one field after the other from a buffer whose end it has been told, and stops
with an underflow at a field that goes beyond. `reads_inside_iff` : its reads are inside the first `n`
bytes exactly when it does not get farther (`far`); `Takes` : the program takes given fields, which
says how far it gets and when it underflows.
-/

namespace Atbm6441.Lib

/-- The number that a byte string is, least significant byte first. -/
def leNat : List UInt8 → ℕ
  | [] => 0
  | x :: l => x.toNat + 256 * leNat l

theorem leNat_leBytes (k : ℕ) {n : ℕ} (h : n < 256 ^ k) : leNat (leBytes k n) = n := by
  induction k generalizing n with
  | zero =>
    rw [Nat.pow_zero, Nat.lt_one_iff] at h
    rw [h]
    rfl
  | succ k ih =>
    rw [Nat.pow_succ] at h
    have hrest : n / 256 < 256 ^ k := by omega
    rw [leBytes, leNat, ih hrest, UInt8.toNat_ofNat']
    omega

/-- `n` bytes of a memory. -/
def slice (mem : ℕ → UInt8) (pos n : ℕ) : List UInt8 := (List.range n).map fun i => mem (pos + i)

/-- A program that takes fields. -/
inductive Get (α : Type)
  | done (a : α)
  /-- the next `n` bytes, unless they go beyond the end -/
  | get (n : ℕ) (k : List UInt8 → Get α)
  /-- the next `n` bytes, wherever the end is; they are not consumed -/
  | peek (n : ℕ) (k : List UInt8 → Get α)

/-- What a run of a program has come to: its value, none after an underflow, and its reads with their
positions and lengths. -/
structure Outcome (α : Type) where
  val : Option α
  reads : List (ℕ × ℕ)

namespace Get

variable {α β : Type}

def bind : Get α → (α → Get β) → Get β
  | done a, f => f a
  | get n k, f => get n fun bs => (k bs).bind f
  | peek n k, f => peek n fun bs => (k bs).bind f

instance : Monad Get where
  pure := done
  bind := bind

@[simp] theorem pure_eq (a : α) : (pure a : Get α) = done a := rfl

@[simp] theorem done_bind (a : α) (f : α → Get β) : done a >>= f = f a := rfl

@[simp] theorem get_bind (n : ℕ) (k : List UInt8 → Get α) (f : α → Get β) :
    get n k >>= f = get n fun bs => k bs >>= f := rfl

@[simp] theorem peek_bind (n : ℕ) (k : List UInt8 → Get α) (f : α → Get β) :
    peek n k >>= f = peek n fun bs => k bs >>= f := rfl

theorem bind_assoc {γ : Type} (p : Get α) (f : α → Get β) (g : β → Get γ) :
    p >>= f >>= g = p >>= fun a => f a >>= g := by
  induction p with
  | done a => rfl
  | get n k ih | peek n k ih =>
    simp only [get_bind, peek_bind]
    congr 1
    exact funext ih

/-- The next `n` bytes. -/
def bytes (n : ℕ) : Get (List UInt8) := get n done

/-- A little-endian number of `n` bytes. -/
def num (n : ℕ) : Get ℕ := get n fun bs => done (leNat bs)

/-- `n` numbers of four bytes, one after the other. -/
def words : ℕ → Get (List ℕ)
  | 0 => done []
  | n + 1 => do
    let w ← num 4
    let ws ← words n
    return w :: ws

/-- The run of a program from a position on. -/
def run (mem : ℕ → UInt8) (fin : ℕ) : Get α → ℕ → Outcome α
  | done a, _ => ⟨some a, []⟩
  | get n k, pos =>
    if pos + n ≤ fin then
      let o := (k (slice mem pos n)).run mem fin (pos + n)
      ⟨o.val, (pos, n) :: o.reads⟩
    else ⟨none, []⟩
  | peek n k, pos =>
    let o := (k (slice mem pos n)).run mem fin pos
    ⟨o.val, (pos, n) :: o.reads⟩

/-- **How far a program reads.** -/
def far (mem : ℕ → UInt8) (fin : ℕ) : Get α → ℕ → ℕ
  | done _, pos => pos
  | get n k, pos => if pos + n ≤ fin then (k (slice mem pos n)).far mem fin (pos + n) else pos
  | peek n k, pos => max (pos + n) ((k (slice mem pos n)).far mem fin pos)

variable {mem : ℕ → UInt8} {fin : ℕ}

theorem le_far (p : Get α) (pos : ℕ) : pos ≤ p.far mem fin pos := by
  induction p generalizing pos with
  | done a => exact Nat.le_refl _
  | get n k ih =>
    rw [far]
    split_ifs
    · have := ih (slice mem pos n) (pos + n)
      omega
    · exact Nat.le_refl _
  | peek n k ih => exact Nat.le_trans (ih (slice mem pos n) pos) (Nat.le_max_right ..)

/-- **The reads are inside** the first `n` bytes exactly when the program gets no farther. -/
theorem reads_inside_iff (p : Get α) {pos n : ℕ} (hpos : pos ≤ n) :
    (∀ r ∈ (p.run mem fin pos).reads, r.1 + r.2 ≤ n) ↔ p.far mem fin pos ≤ n := by
  induction p generalizing pos with
  | done a => simp [run, far, hpos]
  | get m k ih =>
    rw [run, far]
    split_ifs with hfit
    · rw [List.forall_mem_cons]
      constructor
      · rintro ⟨hle, hrest⟩
        exact (ih _ hle).mp hrest
      · intro hfar
        have hle := Nat.le_trans (le_far _ _) hfar
        exact ⟨hle, (ih _ hle).mpr hfar⟩
    · simp [hpos]
  | peek m k ih =>
    rw [run, far, List.forall_mem_cons, ih _ hpos, Nat.max_le]

/-! ### Programs with given fields -/

/-- The end of those of the fields, one after the other from a position on, that are before the end of
the buffer. -/
def fieldsEnd (fin : ℕ) : ℕ → List ℕ → ℕ
  | pos, [] => pos
  | pos, n :: ns => if pos + n ≤ fin then fieldsEnd fin (pos + n) ns else pos

theorem fieldsEnd_le (pos : ℕ) (ns : List ℕ) (hpos : pos ≤ fin) : fieldsEnd fin pos ns ≤ fin := by
  induction ns generalizing pos with
  | nil => exact hpos
  | cons n ns ih =>
    rw [fieldsEnd]
    split_ifs with hfit
    · exact ih _ hfit
    · exact hpos

theorem fieldsEnd_eq (pos : ℕ) (ns : List ℕ) (hfit : pos + ns.sum ≤ fin) :
    fieldsEnd fin pos ns = pos + ns.sum := by
  induction ns generalizing pos with
  | nil => rfl
  | cons n ns ih =>
    rw [List.sum_cons] at hfit
    rw [fieldsEnd, if_pos (by omega), ih _ (by omega), List.sum_cons, Nat.add_assoc]

/-- The program takes these fields from the position on, if they are there. -/
def Takes (mem : ℕ → UInt8) : Get α → ℕ → List ℕ → Prop
  | done _, _, ns => ns = []
  | get n k, pos, ns => ∃ ns', ns = n :: ns' ∧ (k (slice mem pos n)).Takes mem (pos + n) ns'
  | peek _ _, _, _ => False

theorem Takes.far_eq {p : Get α} {pos : ℕ} {ns : List ℕ} (h : p.Takes mem pos ns) :
    p.far mem fin pos = fieldsEnd fin pos ns := by
  induction p generalizing pos ns with
  | done a =>
    obtain rfl : ns = [] := h
    rfl
  | get n k ih =>
    obtain ⟨ns', rfl, h'⟩ := h
    rw [far, fieldsEnd, ih _ h']
  | peek n k ih => exact h.elim

theorem Takes.val_eq_none_iff {p : Get α} {pos : ℕ} {ns : List ℕ} (h : p.Takes mem pos ns)
    (hpos : pos ≤ fin) : (p.run mem fin pos).val = none ↔ fin < pos + ns.sum := by
  induction p generalizing pos ns with
  | done a =>
    obtain rfl : ns = [] := h
    simp [run, hpos]
  | get n k ih =>
    obtain ⟨ns', rfl, h'⟩ := h
    rw [run, List.sum_cons]
    split_ifs with hfit
    · rw [ih _ h' hfit, Nat.add_assoc]
    · simp only [true_iff]
      omega
  | peek n k ih => exact h.elim

theorem takes_words (n : ℕ) (f : List ℕ → Get β) (ns : List ℕ) {pos : ℕ}
    (hf : ∀ ws pos, (f ws).Takes mem pos ns) :
    (words n >>= f).Takes mem pos (List.replicate n 4 ++ ns) := by
  induction n generalizing pos f with
  | zero => exact hf [] pos
  | succ n ih =>
    have hih : ∀ w, (words n >>= fun ws => f (w :: ws)).Takes mem (pos + 4)
        (List.replicate n 4 ++ ns) := fun w => ih _ fun ws => hf (w :: ws)
    simp only [words, num, get_bind, done_bind, bind_assoc, pure_eq, Takes]
    exact ⟨_, rfl, hih _⟩

end Get

end Atbm6441.Lib
