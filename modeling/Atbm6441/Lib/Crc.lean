import Mathlib.Algebra.CharP.Two
import Mathlib.Algebra.Field.ZMod
import Mathlib.Algebra.Polynomial.Monic
import Mathlib.Data.List.GetD
import Mathlib.RingTheory.AdjoinRoot

/-!
# Checksums by division of polynomials

Bits are the coefficients of a polynomial over the field with two elements, the highest first. A
register that is shifted with feedback multiplies by `X` modulo the generator (`mk_shift`), so what
it holds after a message is the remainder of the message (`toPoly_digest`). Two messages of the same
length that differ in no more bits in a row than the register has leave different remainders
(`digest_ne_of_burst`).
-/

namespace Atbm6441.Lib.Crc

open Polynomial

/-! ### Bits as polynomials -/

/-- A bit, as a coefficient. -/
def coef (b : Bool) : ZMod 2 := if b then 1 else 0

theorem coef_xor (a b : Bool) : coef (a ^^ b) = coef a + coef b := by
  revert a b
  decide

theorem coef_injective : Function.Injective coef := by
  intro a b
  revert a b
  decide

/-- The polynomial of some bits. -/
noncomputable def bitsPoly : List Bool → (ZMod 2)[X]
  | [] => 0
  | b :: l => C (coef b) * X ^ l.length + bitsPoly l

theorem coeff_bitsPoly (l : List Bool) (k : ℕ) :
    (bitsPoly l).coeff k = coef (l.reverse.getD k false) := by
  induction l with
  | nil => rfl
  | cons b l ih =>
    rw [bitsPoly, coeff_add, coeff_C_mul, coeff_X_pow, ih, List.reverse_cons]
    rcases Nat.lt_trichotomy k l.length with hk | rfl | hk
    · rw [if_neg hk.ne, mul_zero, zero_add,
        List.getD_append _ _ _ _ (by rwa [List.length_reverse])]
    · rw [if_pos rfl, mul_one, List.getD_eq_default _ _ (by rw [List.length_reverse]),
        List.getD_append_right _ _ _ _ (by rw [List.length_reverse]), List.length_reverse,
        Nat.sub_self]
      exact add_zero _
    · rw [if_neg hk.ne', mul_zero, zero_add,
        List.getD_eq_default _ _ (by rw [List.length_reverse]; omega),
        List.getD_eq_default _ _ (by simp; omega)]

theorem bitsPoly_append (a b : List Bool) :
    bitsPoly (a ++ b) = bitsPoly a * X ^ b.length + bitsPoly b := by
  induction a with
  | nil => rw [List.nil_append, bitsPoly, zero_mul, zero_add]
  | cons x a ih =>
    rw [List.cons_append, bitsPoly, bitsPoly, ih, List.length_append, pow_add]
    ring

theorem degree_bitsPoly_lt (l : List Bool) : (bitsPoly l).degree < l.length := by
  rw [degree_lt_iff_coeff_zero]
  intro k hk
  rw [coeff_bitsPoly, List.getD_eq_default _ _ (by rwa [List.length_reverse])]
  rfl

theorem bitsPoly_inj {a b : List Bool} (hlen : a.length = b.length) (h : bitsPoly a = bitsPoly b) :
    a = b := by
  refine List.reverse_injective (List.ext_getElem (by simpa using hlen) fun k hka hkb => ?_)
  have hk : (bitsPoly a).coeff k = (bitsPoly b).coeff k := by rw [h]
  rw [coeff_bitsPoly, coeff_bitsPoly] at hk
  rw [← List.getD_eq_getElem _ false hka, ← List.getD_eq_getElem _ false hkb]
  exact coef_injective hk

/-! ### Registers -/

variable {w k : ℕ}

/-- The bits of a register, the highest first. -/
def bits (c : BitVec w) : List Bool := List.ofFn fun i : Fin w => c.getMsbD i

theorem length_bits (c : BitVec w) : (bits c).length = w := List.length_ofFn

/-- The polynomial of a register. -/
noncomputable def toPoly (c : BitVec w) : (ZMod 2)[X] := bitsPoly (bits c)

theorem coeff_toPoly (c : BitVec w) (i : ℕ) : (toPoly c).coeff i = coef (c.getLsbD i) := by
  rw [toPoly, coeff_bitsPoly]
  congr 1
  by_cases hi : i < w
  · rw [List.getD_eq_getElem _ _ (by rwa [List.length_reverse, length_bits]), List.getElem_reverse]
    simp only [bits, List.getElem_ofFn, List.length_ofFn]
    rw [BitVec.getMsbD_eq_getLsbD, decide_eq_true (by omega), Bool.true_and]
    congr 1
    omega
  · rw [List.getD_eq_default _ _ (by rw [List.length_reverse, length_bits]; omega),
      BitVec.getLsbD_of_ge _ _ (by omega)]

theorem degree_toPoly_lt (c : BitVec w) : (toPoly c).degree < w := by
  have h := degree_bitsPoly_lt (bits c)
  rwa [length_bits] at h

theorem toPoly_injective : Function.Injective (toPoly (w := w)) := by
  intro a b h
  refine BitVec.eq_of_getLsbD_eq fun i _ => coef_injective ?_
  rw [← coeff_toPoly, ← coeff_toPoly, h]

theorem toPoly_zero : toPoly (0 : BitVec w) = 0 := by
  ext i
  rw [coeff_toPoly, coeff_zero, BitVec.ofNat_eq_ofNat, BitVec.getLsbD_zero]
  rfl

theorem toPoly_xor (a b : BitVec w) : toPoly (a ^^^ b) = toPoly a + toPoly b := by
  ext i
  rw [coeff_add, coeff_toPoly, coeff_toPoly, coeff_toPoly, BitVec.getLsbD_xor, coef_xor]

theorem toPoly_shiftLeft_one (c : BitVec w) :
    toPoly (c <<< 1) + C (coef c.msb) * X ^ w = X * toPoly c := by
  ext i
  rw [coeff_add, coeff_C_mul, coeff_X_pow, coeff_toPoly, BitVec.getLsbD_shiftLeft,
    BitVec.msb_eq_getLsbD_last]
  rcases i with _ | i
  · rw [coeff_X_mul_zero]
    by_cases hw : 0 = w
    · subst hw
      simp [coef]
    · simp [coef, hw]
  · rw [coeff_X_mul, coeff_toPoly]
    rcases Nat.lt_trichotomy (i + 1) w with hi | hi | hi
    · simp [hi, hi.ne, coef]
    · subst hi
      simp [coef]
    · simp [hi.ne', BitVec.getLsbD_of_ge c i (by omega), coef, show ¬ i + 1 < w by omega]

theorem toPoly_top (hk : k ≤ w) (d : BitVec k) :
    toPoly (d.setWidth w <<< (w - k)) = X ^ (w - k) * toPoly d := by
  ext i
  rw [coeff_X_pow_mul', coeff_toPoly, BitVec.getLsbD_shiftLeft, BitVec.getLsbD_setWidth]
  by_cases hi : w - k ≤ i
  · rw [if_pos hi, coeff_toPoly]
    by_cases hiw : i < w
    · simp [hiw, show ¬ i < w - k by omega, show i - (w - k) < w by omega]
    · simp [hiw, BitVec.getLsbD_of_ge d (i - (w - k)) (by omega)]
  · simp [hi, coef]

/-! ### Division -/

/-- The generator: its coefficients below the highest. -/
noncomputable def gen (g : BitVec w) : (ZMod 2)[X] := X ^ w + toPoly g

theorem monic_gen (g : BitVec w) : (gen g).Monic := monic_X_pow_add (degree_toPoly_lt g)

theorem degree_gen (g : BitVec w) : (gen g).degree = w := by
  rw [gen, degree_add_eq_left_of_degree_lt, degree_X_pow]
  rw [degree_X_pow]
  exact degree_toPoly_lt g

/-- A shift of the register; what is shifted out is fed back. -/
def shift (g c : BitVec w) : BitVec w := (c <<< 1) ^^^ if c.msb then g else 0

theorem toPoly_shift (g c : BitVec w) :
    toPoly (shift g c) = X * toPoly c + C (coef c.msb) * gen g := by
  have hfeed : toPoly (if c.msb then g else 0) = C (coef c.msb) * toPoly g := by
    cases c.msb with
    | true => exact (one_mul _).symm.trans (congrArg (· * _) (map_one C).symm)
    | false =>
      ext i
      rw [coeff_toPoly, coeff_C_mul]
      simp [coef]
  have htwice : C (coef c.msb) * X ^ w + C (coef c.msb) * X ^ w = 0 := by
    rw [← add_mul, ← C_add, CharTwo.add_self_eq_zero, C_0, zero_mul]
  rw [shift, toPoly_xor, hfeed, ← toPoly_shiftLeft_one, gen, mul_add]
  linear_combination -htwice

variable (g : BitVec w)

/-- **A shift multiplies by `X`** modulo the generator. -/
theorem mk_shift (c : BitVec w) :
    AdjoinRoot.mk (gen g) (toPoly (shift g c)) = AdjoinRoot.mk (gen g) (X * toPoly c) := by
  rw [AdjoinRoot.mk_eq_mk, toPoly_shift, add_sub_cancel_left]
  exact dvd_mul_left _ _

theorem mk_shifts (n : ℕ) (c : BitVec w) :
    AdjoinRoot.mk (gen g) (toPoly ((shift g)^[n] c)) = AdjoinRoot.mk (gen g) (X ^ n * toPoly c) := by
  induction n generalizing c with
  | zero => rw [pow_zero, one_mul, Function.iterate_zero, id]
  | succ n ih =>
    rw [Function.iterate_succ_apply, ih, map_mul, mk_shift, ← map_mul, ← mul_assoc, ← pow_succ]

/-- A chunk of a message: it is added at the top, and shifted through. -/
def absorb (c : BitVec w) (d : BitVec k) : BitVec w :=
  (shift g)^[k] (c ^^^ d.setWidth w <<< (w - k))

theorem mk_absorb (hk : k ≤ w) (c : BitVec w) (d : BitVec k) :
    AdjoinRoot.mk (gen g) (toPoly (absorb g c d)) =
      AdjoinRoot.mk (gen g) (toPoly c * X ^ k + toPoly d * X ^ w) := by
  have hpow : (X : (ZMod 2)[X]) ^ w = X ^ k * X ^ (w - k) := by rw [← pow_add]; congr 1; omega
  rw [absorb, mk_shifts, toPoly_xor, toPoly_top hk, hpow]
  congr 1
  ring

/-- What the register holds after a message. -/
def digest (c : BitVec w) (ds : List (BitVec k)) : BitVec w := ds.foldl (absorb g) c

theorem length_flatMap_bits (ds : List (BitVec k)) : (ds.flatMap bits).length = k * ds.length := by
  induction ds with
  | nil => rfl
  | cons d ds ih =>
    rw [List.flatMap_cons, List.length_append, ih, length_bits, List.length_cons]
    ring

theorem mk_digest (hk : k ≤ w) (c : BitVec w) (ds : List (BitVec k)) :
    AdjoinRoot.mk (gen g) (toPoly (digest g c ds)) =
      AdjoinRoot.mk (gen g) (toPoly c * X ^ (k * ds.length) + bitsPoly (ds.flatMap bits) * X ^ w) := by
  induction ds generalizing c with
  | nil => simp [digest, bitsPoly]
  | cons d ds ih =>
    rw [digest, List.foldl_cons, ← digest, ih, map_add, map_mul, mk_absorb g hk, ← map_mul,
      ← map_add, List.flatMap_cons, bitsPoly_append, length_flatMap_bits, List.length_cons,
      ← toPoly]
    congr 1
    ring

/-- **The register holds the remainder** of the message, with as many zeros behind it as it has bits.
-/
theorem toPoly_digest (hk : k ≤ w) (c : BitVec w) (ds : List (BitVec k)) :
    toPoly (digest g c ds) =
      (toPoly c * X ^ (k * ds.length) + bitsPoly (ds.flatMap bits) * X ^ w) %ₘ gen g := by
  have hself : toPoly (digest g c ds) %ₘ gen g = toPoly (digest g c ds) := by
    rw [modByMonic_eq_self_iff (monic_gen g), degree_gen]
    exact degree_toPoly_lt _
  have hdvd := AdjoinRoot.mk_eq_mk.mp (mk_digest g hk c ds)
  rw [← hself, ← sub_eq_zero, ← sub_modByMonic, modByMonic_eq_zero_iff_dvd (monic_gen g)]
  exact hdvd

/-! ### Bursts -/

theorem isCoprime_X_gen {g : BitVec w} (hg : g.getLsbD 0 = true) (hw : 0 < w) :
    IsCoprime (gen g) X := by
  have hX : X ∣ gen g - 1 := by
    rw [X_dvd_iff, gen, coeff_sub, coeff_add, coeff_X_pow, coeff_toPoly, hg, if_neg hw.ne,
      coeff_one_zero]
    decide
  obtain ⟨q, hq⟩ := hX
  exact ⟨1, -q, by linear_combination hq⟩

/-- **A burst is detected**: two messages that differ, but in no more bits in a row than the register
has, leave different registers. -/
theorem digest_ne_of_burst {g : BitVec w} (hg : g.getLsbD 0 = true) (hk : k ≤ w)
    {ds es : List (BitVec k)} {a m m' z : List Bool} (hds : ds.flatMap bits = a ++ m ++ z)
    (hes : es.flatMap bits = a ++ m' ++ z) (hlen : m.length = m'.length) (hle : m.length ≤ w)
    (hne : m ≠ m') (c : BitVec w) : digest g c ds ≠ digest g c es := by
  intro h
  have hcount : k * ds.length = k * es.length := by
    rw [← length_flatMap_bits, ← length_flatMap_bits, hds, hes]
    simp [hlen]
  have hmk := mk_digest g hk c ds
  rw [h, mk_digest g hk, hcount, AdjoinRoot.mk_eq_mk, hds, hes, add_sub_add_left_eq_sub,
    ← sub_mul] at hmk
  simp only [bitsPoly_append, hlen] at hmk
  have hdiff : gen g ∣ X ^ w * (X ^ z.length * (bitsPoly m' - bitsPoly m)) := by
    convert hmk using 1
    ring
  have hw : 0 < w := by
    by_contra h0
    have hm : m = [] := List.length_eq_zero_iff.mp (by omega)
    have hm' : m' = [] := List.length_eq_zero_iff.mp (by omega)
    exact hne (hm.trans hm'.symm)
  have hcop := isCoprime_X_gen hg hw
  have hdvd := hcop.pow_right.dvd_of_dvd_mul_left (hcop.pow_right.dvd_of_dvd_mul_left hdiff)
  have hdeg : (bitsPoly m' - bitsPoly m).degree < (gen g).degree := by
    rw [degree_gen]
    refine lt_of_le_of_lt (degree_sub_le _ _) (max_lt ?_ ?_)
    · exact (degree_bitsPoly_lt m').trans_le (by exact_mod_cast hlen ▸ hle)
    · exact (degree_bitsPoly_lt m).trans_le (by exact_mod_cast hle)
  have hzero := eq_zero_of_dvd_of_degree_lt hdvd hdeg
  exact hne (bitsPoly_inj hlen (sub_eq_zero.mp hzero).symm)

end Atbm6441.Lib.Crc
