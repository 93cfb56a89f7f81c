import Mathlib.Algebra.CharP.Two
import Mathlib.Algebra.Field.ZMod
import Mathlib.Algebra.Polynomial.Degree.TrailingDegree
import Mathlib.Algebra.Polynomial.Div

/-! Binary numbers as polynomials over GF(2): bit `i` of the number is the coefficient of `X ^ i`.
Exclusive or is addition, and a shift to the left multiplies by a power of `X`. -/

namespace SdvZone.BitPoly

open Polynomial

/-- The polynomial a number spells. -/
noncomputable def poly (n : ℕ) : (ZMod 2)[X] :=
  ∑ i ∈ Finset.range n, if n.testBit i then X ^ i else 0

theorem coeff_poly (n i : ℕ) : (poly n).coeff i = if n.testBit i then 1 else 0 := by
  have hterm : ∀ j, (if n.testBit j then X ^ j else 0 : (ZMod 2)[X]).coeff i =
      if i = j then (if n.testBit j then 1 else 0) else 0 := by
    intro j
    split <;> simp [coeff_X_pow]
  rw [poly, finsetSum_coeff, Finset.sum_congr rfl fun j _ => hterm j, Finset.sum_ite_eq]
  split
  next => rfl
  next houtside =>
    have hle : n ≤ i := not_lt.mp fun h => houtside (Finset.mem_range.mpr h)
    rw [Nat.testBit_lt_two_pow (hle.trans_lt Nat.lt_two_pow_self)]
    rfl

theorem coeff_poly_ne_zero_iff (n i : ℕ) : (poly n).coeff i ≠ 0 ↔ n.testBit i = true := by
  rw [coeff_poly]
  cases n.testBit i <;> simp

@[simp] theorem poly_zero : poly 0 = 0 := rfl

theorem poly_injective : Function.Injective poly := by
  intro m n h
  apply Nat.eq_of_testBit_eq
  intro i
  have hcoeff := congrArg (fun p => p.coeff i ≠ 0) h
  simp only [coeff_poly_ne_zero_iff, eq_iff_iff] at hcoeff
  exact Bool.eq_iff_iff.mpr hcoeff

theorem poly_xor (m n : ℕ) : poly (m ^^^ n) = poly m + poly n := by
  ext i
  rw [coeff_add, coeff_poly, coeff_poly, coeff_poly, Nat.testBit_xor]
  cases m.testBit i <;> cases n.testBit i <;> decide

theorem poly_shiftLeft (n k : ℕ) : poly (n <<< k) = poly n * X ^ k := by
  ext i
  rw [coeff_poly, Nat.testBit_shiftLeft, coeff_mul_X_pow']
  by_cases h : k ≤ i
  · rw [if_pos h, coeff_poly, decide_eq_true h, Bool.true_and]
  · rw [if_neg h, decide_eq_false h]
    rfl

theorem poly_one : poly 1 = 1 := by
  ext i
  rw [coeff_poly, coeff_one]
  exact if_congr Nat.testBit_one_eq_true_iff_self_eq_zero rfl rfl

theorem poly_two_pow (k : ℕ) : poly (2 ^ k) = X ^ k := by
  rw [← Nat.one_shiftLeft, poly_shiftLeft, poly_one, one_mul]

/-- A number written behind another one. -/
theorem poly_mul_two_pow_add (m : ℕ) {n k : ℕ} (h : n < 2 ^ k) :
    poly (m * 2 ^ k + n) = poly m * X ^ k + poly n := by
  have hxor : m * 2 ^ k + n = m <<< k ^^^ n := by
    apply Nat.eq_of_testBit_eq
    intro i
    rw [Nat.mul_comm, Nat.testBit_two_pow_mul_add m h, Nat.testBit_xor, Nat.testBit_shiftLeft]
    by_cases hi : i < k
    · rw [if_pos hi, decide_eq_false (not_le.mpr hi), Bool.false_and, Bool.false_xor]
    · rw [if_neg hi, decide_eq_true (not_lt.mp hi), Bool.true_and,
        Nat.testBit_lt_two_pow (h.trans_le (Nat.pow_le_pow_right two_pos (not_lt.mp hi))),
        Bool.xor_false]
  rw [hxor, poly_xor, poly_shiftLeft]

theorem coeff_poly_eq_zero {n k i : ℕ} (h : n < 2 ^ k) (hi : k ≤ i) : (poly n).coeff i = 0 := by
  rw [coeff_poly, Nat.testBit_lt_two_pow (h.trans_le (Nat.pow_le_pow_right two_pos hi))]
  rfl

theorem degree_poly_lt {n k : ℕ} (h : n < 2 ^ k) : (poly n).degree < k := by
  rw [degree_lt_iff_coeff_zero]
  intro i hi
  exact coeff_poly_eq_zero h hi

end SdvZone.BitPoly
