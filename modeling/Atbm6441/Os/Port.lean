import Mathlib.Data.List.Range

/-!
# The two ports

What three functions of the kernel do on Linux, and in `atbm_os_mem.c` and `atbm_os.h` of the RTOS: there
`kcalloc` clears the first element only, `krealloc` copies nothing, and `call_rcu` is an empty macro.
-/

namespace Atbm6441.Os

inductive Port
  | linux
  | rtos
deriving DecidableEq

namespace Port

variable {α : Type}

/-- The elements that `kcalloc` returns, for memory with the elements `found`. -/
def kcalloc (port : Port) (zero : α) (found : ℕ → α) (i : ℕ) : α :=
  match port with
  | linux => zero
  | rtos => if i = 0 then zero else found i

/-- The block that `krealloc` returns, for memory with the elements `found`. -/
def krealloc (port : Port) (old : List α) (size : ℕ) (found : ℕ → α) : List α :=
  match port with
  | linux => (List.range size).map fun i => old.getD i (found i)
  | rtos => (List.range size).map found

/-- A function that is handed to `call_rcu` is called. -/
def callsRcu : Port → Bool
  | linux => true
  | rtos => false

@[simp] theorem kcalloc_linux (zero : α) (found : ℕ → α) :
    linux.kcalloc zero found = fun _ => zero := rfl

@[simp] theorem length_krealloc (port : Port) (old : List α) (size : ℕ) (found : ℕ → α) :
    (port.krealloc old size found).length = size := by
  cases port <;> simp [krealloc]

theorem take_krealloc_linux (old : List α) {n size : ℕ} (found : ℕ → α) (hold : n ≤ old.length)
    (hsize : n ≤ size) : (linux.krealloc old size found).take n = old.take n := by
  refine List.ext_getElem (by simp [hold, hsize]) fun i hi hi' => ?_
  have hlt : i < old.length := by
    rw [List.length_take] at hi'
    omega
  simp [krealloc, List.getElem?_eq_getElem hlt]

theorem take_krealloc_rtos (old : List α) {n size : ℕ} (found : ℕ → α) (hsize : n ≤ size) :
    (rtos.krealloc old size found).take n = (List.range n).map found := by
  rw [krealloc, ← List.map_take, List.take_range, Nat.min_eq_left hsize]

end Port

end Atbm6441.Os
