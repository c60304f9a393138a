import Mathlib.Algebra.Group.Nat.Defs
import Mathlib.Data.Int.Init
import Mathlib.Data.List.Basic
import Mathlib.Tactic.Common

/-!
# Byte strings and numbers

`memcmp` of two byte strings of one length compares the big-endian numbers they are
(`memcmp_le_zero`); `leBytes` are the bytes of a number in little-endian order.
-/

namespace Atbm6441.Lib

/-- The number that a byte string is, most significant byte first. -/
def be : List UInt8 → ℕ
  | [] => 0
  | x :: l => x.toNat * 256 ^ l.length + be l

/-- `memcmp`: the difference of the first bytes that differ. -/
def memcmp : List UInt8 → List UInt8 → ℤ
  | x :: l, y :: l' => if x = y then memcmp l l' else (x.toNat : ℤ) - y.toNat
  | _, _ => 0

/-- The `k` low bytes of a number, least significant byte first. -/
def leBytes : ℕ → ℕ → List UInt8
  | 0, _ => []
  | k + 1, n => UInt8.ofNat n :: leBytes k (n / 256)

@[simp] theorem length_leBytes (k n : ℕ) : (leBytes k n).length = k := by
  induction k generalizing n with
  | zero => rfl
  | succ k ih => simp [leBytes, ih]

theorem be_lt (l : List UInt8) : be l < 256 ^ l.length := by
  induction l with
  | nil => exact Nat.one_pos
  | cons x l ih =>
    have hx : x.toNat + 1 ≤ 256 := x.toNat_lt
    calc be (x :: l) < x.toNat * 256 ^ l.length + 256 ^ l.length := Nat.add_lt_add_left ih _
      _ = (x.toNat + 1) * 256 ^ l.length := (Nat.succ_mul _ _).symm
      _ ≤ 256 * 256 ^ l.length := Nat.mul_le_mul_right _ hx
      _ = 256 ^ (x :: l).length := (Nat.pow_succ').symm

theorem be_cons_lt {x y : UInt8} (h : x.toNat < y.toNat) {l l' : List UInt8}
    (hl : l.length = l'.length) : be (x :: l) < be (y :: l') := by
  calc be (x :: l) < x.toNat * 256 ^ l.length + 256 ^ l.length :=
        Nat.add_lt_add_left (be_lt l) _
    _ = (x.toNat + 1) * 256 ^ l'.length := by rw [Nat.succ_mul, hl]
    _ ≤ y.toNat * 256 ^ l'.length := Nat.mul_le_mul_right _ h
    _ ≤ be (y :: l') := Nat.le_add_right _ _

/-- **`memcmp` compares numbers**. -/
theorem memcmp_le_zero : ∀ {l l' : List UInt8}, l.length = l'.length →
    (memcmp l l' ≤ 0 ↔ be l ≤ be l')
  | [], [], _ => by simp [memcmp]
  | x :: l, y :: l', h => by
    have hl : l.length = l'.length := Nat.succ.inj h
    rw [memcmp]
    split
    · next hxy =>
      rw [memcmp_le_zero hl, hxy, be, be, hl]
      exact (Nat.add_le_add_iff_left).symm
    · next hxy =>
      rcases Nat.lt_trichotomy x.toNat y.toNat with hlt | heq | hgt
      · have := be_cons_lt hlt hl
        omega
      · exact absurd (UInt8.toNat_inj.mp heq) hxy
      · have := be_cons_lt hgt hl.symm
        omega

end Atbm6441.Lib
