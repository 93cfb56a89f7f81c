import Mathlib.Data.Nat.Bitwise
import SdvZone.CrcRegister

/-! Which errors a cyclic redundancy check sees. The register is linear: an error on the way to the
receiver changes it by the register of the error alone. It misses an error exactly when the error
and the change of the stored check spell a multiple of the generator; neither a burst of the
register's width nor two bits, whose distance the period of the generator does not divide, do. -/

namespace SdvZone.Crc

open Polynomial BitPoly

variable {width generator : ℕ}

/-! ### Linearity -/

theorem shift_xor (first second : ℕ) :
    shift width generator (first ^^^ second) =
      shift width generator first ^^^ shift width generator second := by
  have hcancel : ∀ a b : ℕ, a ^^^ generator ^^^ (b ^^^ generator) = a ^^^ b := by
    intro a b
    rw [Nat.xor_comm b, ← Nat.xor_assoc, Nat.xor_xor_cancel_right]
  unfold shift
  rw [Nat.testBit_xor, Nat.shiftLeft_xor_distrib]
  cases first.testBit (width - 1) <;> cases second.testBit (width - 1)
  case false.false => rfl
  case false.true => exact Nat.xor_assoc _ _ _
  case true.false =>
    show _ = first <<< 1 ^^^ generator ^^^ second <<< 1
    rw [Nat.xor_assoc _ generator, Nat.xor_comm generator, ← Nat.xor_assoc]
    rfl
  case true.true => exact (hcancel _ _).symm

theorem iterate_shift_xor (n first second : ℕ) :
    (shift width generator)^[n] (first ^^^ second) =
      (shift width generator)^[n] first ^^^ (shift width generator)^[n] second := by
  induction n generalizing first second with
  | zero => rfl
  | succ n ih =>
      rw [Function.iterate_succ_apply, shift_xor]
      exact ih _ _

theorem run_xor (first second : ℕ) {message error : List ℕ} (hlength : error.length = message.length) :
    run width generator (first ^^^ second) (List.zipWith (· ^^^ ·) message error) =
      run width generator first message ^^^ run width generator second error := by
  induction message generalizing first second error with
  | nil =>
      rw [List.length_eq_zero_iff.mp hlength]
      rfl
  | cons chunk message ih =>
      obtain ⟨flipped, error, rfl⟩ := List.exists_cons_of_length_eq_add_one hlength
      have habsorb : absorb width generator (first ^^^ second) (chunk ^^^ flipped) =
          absorb width generator first chunk ^^^ absorb width generator second flipped := by
        rw [absorb, absorb, absorb, ← iterate_shift_xor, Nat.xor_assoc, Nat.xor_assoc,
          ← Nat.xor_assoc second, Nat.xor_comm second, Nat.xor_assoc]
      show run width generator (absorb width generator (first ^^^ second) (chunk ^^^ flipped)) _ = _
      rw [habsorb]
      exact ih _ _ (Nat.succ_injective hlength)

/-! ### Errors that go unseen -/

theorem run_eq_iff (h : IsGenerator width generator) {chunks : List ℕ}
    (hchunks : ∀ chunk ∈ chunks, chunk < 2 ^ width) {check : ℕ} (hcheck : check < 2 ^ width) :
    run width generator 0 chunks = check ↔
      poly generator ∣ poly (number width (chunks ++ [check])) := by
  have hmk := @mk_run width generator 0 chunks hchunks
  rw [poly_zero, zero_mul, add_zero] at hmk
  rw [poly_number_snoc chunks hcheck, ← CharTwo.sub_eq_add, ← AdjoinRoot.mk_eq_mk, ← hmk]
  constructor
  · rintro rfl
    rfl
  · exact eq_of_mk_eq h (run_lt h (Nat.two_pow_pos _) hchunks) hcheck

/-- The receiver finds the check it stored, changed by `check`, after the error. -/
theorem unseen_iff (h : IsGenerator width generator) (init : ℕ) {message error : List ℕ}
    (hlength : error.length = message.length) (herror : ∀ chunk ∈ error, chunk < 2 ^ width) {check : ℕ}
    (hcheck : check < 2 ^ width) :
    run width generator init (List.zipWith (· ^^^ ·) message error) =
        run width generator init message ^^^ check ↔
      poly generator ∣ poly (number width (error ++ [check])) := by
  have hlinear := @run_xor width generator init 0 message error hlength
  rw [Nat.xor_zero] at hlinear
  rw [hlinear, Nat.xor_right_inj]
  exact run_eq_iff h herror hcheck

theorem isCoprime_X (h : IsGenerator width generator) : IsCoprime (poly generator) X := by
  refine ⟨1, -(poly generator).divX, ?_⟩
  have hconstant : (poly generator).coeff 0 = 1 := by
    rw [coeff_poly, if_pos h.constant]
  calc
    1 * poly generator + -(poly generator).divX * X =
        1 * ((poly generator).divX * X + C ((poly generator).coeff 0)) +
          -(poly generator).divX * X := by rw [divX_mul_X_add]
    _ = 1 := by
      rw [hconstant, C_1]
      ring

/-- All the bits set lie in one window of the register's width. -/
theorem not_dvd_of_burst (h : IsGenerator width generator) {n k : ℕ} (hne : n ≠ 0)
    (hbits : ∀ i, n.testBit i = true → k ≤ i ∧ i < k + width) : ¬ poly generator ∣ poly n := by
  intro hdvd
  have hshifted : n = (n >>> k) <<< k := by
    apply Nat.eq_of_testBit_eq
    intro i
    rw [Nat.testBit_shiftLeft, Nat.testBit_shiftRight]
    by_cases hi : k ≤ i
    · rw [decide_eq_true hi, Bool.true_and, Nat.add_sub_cancel' hi]
    · rw [decide_eq_false hi, Bool.false_and]
      exact Bool.eq_false_iff.mpr fun hset => hi (hbits i hset).1
  have hwindow : n >>> k < 2 ^ width := by
    apply Nat.lt_pow_two_of_testBit
    intro i hi
    rw [Nat.testBit_shiftRight]
    exact Bool.eq_false_iff.mpr fun hset => by have := (hbits _ hset).2; omega
  have hzero : n >>> k = 0 := by
    rw [hshifted, poly_shiftLeft] at hdvd
    apply eq_of_mk_eq h hwindow (Nat.two_pow_pos _)
    rw [poly_zero, map_zero]
    exact AdjoinRoot.mk_eq_zero.mpr ((isCoprime_X h).pow_right.dvd_of_dvd_mul_right hdvd)
  rw [hshifted, hzero, Nat.zero_shiftLeft] at hne
  exact hne rfl

/-- The period of the generator is the number of shifts after which a single bit comes back. -/
theorem not_dvd_of_two_bits (h : IsGenerator width generator) {first distance : ℕ}
    (hperiod : ¬ Function.minimalPeriod (shift width generator) 1 ∣ distance) :
    ¬ poly generator ∣ poly (2 ^ first ^^^ 2 ^ (first + distance)) := by
  intro hdvd
  have hone : 1 < 2 ^ width := Nat.one_lt_two_pow h.pos.ne'
  have hfactor : poly (2 ^ first ^^^ 2 ^ (first + distance)) = (X ^ distance - 1) * X ^ first := by
    rw [poly_xor, poly_two_pow, poly_two_pow, CharTwo.sub_eq_add, pow_add]
    ring
  rw [hfactor] at hdvd
  have hroot : AdjoinRoot.root (poly generator) ^ distance = 1 := by
    rw [← AdjoinRoot.mk_X, ← map_pow, ← map_one (AdjoinRoot.mk (poly generator))]
    exact AdjoinRoot.mk_eq_mk.mpr ((isCoprime_X h).pow_right.dvd_of_dvd_mul_right hdvd)
  have hback : (shift width generator)^[distance] 1 = 1 := by
    apply eq_of_mk_eq h (iterate_shift_lt h distance hone) hone
    rw [mk_iterate_shift, hroot, one_mul]
  exact hperiod (Function.IsPeriodicPt.minimalPeriod_dvd hback)

end SdvZone.Crc
