import Mathlib.Dynamics.PeriodicPts.Defs
import Mathlib.RingTheory.AdjoinRoot
import SdvZone.BitPolynomial

/-! The shift register of a cyclic redundancy check, for any width and generator. A message is fed in
chunks of the register's width; what is left in the register is a remainder modulo the generator, so
an error goes unseen exactly when its polynomial is a multiple of the generator. -/

namespace SdvZone.Crc

open Polynomial BitPoly

/-- A generator of degree `width` with a constant term. -/
structure IsGenerator (width generator : ℕ) : Prop where
  pos : 0 < width
  le : 2 ^ width ≤ generator
  lt : generator < 2 ^ (width + 1)
  constant : generator.testBit 0 = true

section Register

variable (width generator : ℕ)

/-- The bit shifted out decides whether the generator is added. -/
def shift (register : ℕ) : ℕ :=
  if register.testBit (width - 1) then (register <<< 1) ^^^ generator else register <<< 1

def absorb (register chunk : ℕ) : ℕ := (shift width generator)^[width] (register ^^^ chunk)

/-- The register after the chunks of a message. -/
def run (init : ℕ) (chunks : List ℕ) : ℕ := chunks.foldl (absorb width generator) init

/-- The number the chunks spell, the first one in front. -/
def number (chunks : List ℕ) : ℕ := chunks.foldl (fun n chunk => n * 2 ^ width + chunk) 0

end Register

section Remainder

variable {width generator : ℕ}

namespace IsGenerator

theorem testBit (h : IsGenerator width generator) : generator.testBit width = true := by
  obtain ⟨low, hlow⟩ := Nat.exists_eq_add_of_le h.le
  have hlt := h.lt
  rw [pow_succ] at hlt
  rw [hlow, ← Nat.mul_one (2 ^ width), Nat.testBit_two_pow_mul_add 1 (by omega), if_neg (lt_irrefl _),
    Nat.sub_self]
  rfl

theorem natDegree (h : IsGenerator width generator) : (poly generator).natDegree = width := by
  apply natDegree_eq_of_le_of_coeff_ne_zero
  · apply natDegree_le_iff_coeff_eq_zero.mpr
    intro i hi
    exact coeff_poly_eq_zero h.lt hi
  · exact (coeff_poly_ne_zero_iff _ _).mpr h.testBit

theorem monic (h : IsGenerator width generator) : (poly generator).Monic := by
  rw [Monic, leadingCoeff, h.natDegree, coeff_poly, if_pos h.testBit]

theorem ne_zero (h : IsGenerator width generator) : poly generator ≠ 0 := h.monic.ne_zero

end IsGenerator

theorem shift_lt (h : IsGenerator width generator) {register : ℕ} (hregister : register < 2 ^ width) :
    shift width generator register < 2 ^ width := by
  have hpos := h.pos
  have hbit : ∀ i, width < i → (register <<< 1).testBit i = false := by
    intro i hi
    rw [Nat.testBit_shiftLeft, Nat.testBit_lt_two_pow (hregister.trans_le
      (Nat.pow_le_pow_right two_pos (by omega : width ≤ i - 1))), Bool.and_false]
  have htop : (register <<< 1).testBit width = register.testBit (width - 1) := by
    rw [Nat.testBit_shiftLeft, decide_eq_true (by omega : width ≥ 1), Bool.true_and]
  unfold shift
  apply Nat.lt_pow_two_of_testBit
  intro i hi
  split
  next hout =>
    rw [Nat.testBit_xor]
    rcases hi.eq_or_lt with rfl | hlarge
    · rw [htop, hout, h.testBit]
      rfl
    · rw [hbit i hlarge, Nat.testBit_lt_two_pow (h.lt.trans_le (Nat.pow_le_pow_right two_pos hlarge))]
      rfl
  next hout =>
    rcases hi.eq_or_lt with rfl | hlarge
    · rw [htop]
      exact Bool.eq_false_iff.mpr hout
    · exact hbit i hlarge

theorem iterate_shift_lt (h : IsGenerator width generator) (n : ℕ) {register : ℕ}
    (hregister : register < 2 ^ width) : (shift width generator)^[n] register < 2 ^ width := by
  induction n with
  | zero => exact hregister
  | succ n ih =>
      rw [Function.iterate_succ_apply']
      exact shift_lt h ih

theorem run_lt (h : IsGenerator width generator) {init : ℕ} (hinit : init < 2 ^ width)
    {chunks : List ℕ} (hchunks : ∀ chunk ∈ chunks, chunk < 2 ^ width) :
    run width generator init chunks < 2 ^ width := by
  induction chunks generalizing init with
  | nil => exact hinit
  | cons chunk rest ih =>
      apply ih
      · exact iterate_shift_lt h width (Nat.xor_lt_two_pow hinit (hchunks chunk List.mem_cons_self))
      · intro later hlater
        exact hchunks later (List.mem_cons_of_mem _ hlater)

/-! ### Modulo the generator -/

/-- A shift multiplies by `X`. -/
theorem mk_shift (register : ℕ) :
    AdjoinRoot.mk (poly generator) (poly (shift width generator register)) =
      AdjoinRoot.root (poly generator) * AdjoinRoot.mk (poly generator) (poly register) := by
  have hshift : AdjoinRoot.mk (poly generator) (poly (register <<< 1)) =
      AdjoinRoot.root (poly generator) * AdjoinRoot.mk (poly generator) (poly register) := by
    rw [poly_shiftLeft, pow_one, map_mul, AdjoinRoot.mk_X, mul_comm]
  unfold shift
  split
  · rw [poly_xor, map_add, AdjoinRoot.mk_self, add_zero, hshift]
  · exact hshift

theorem mk_iterate_shift (n register : ℕ) :
    AdjoinRoot.mk (poly generator) (poly ((shift width generator)^[n] register)) =
      AdjoinRoot.root (poly generator) ^ n * AdjoinRoot.mk (poly generator) (poly register) := by
  induction n with
  | zero => rw [pow_zero, one_mul, Function.iterate_zero_apply]
  | succ n ih => rw [Function.iterate_succ_apply', mk_shift, ih, ← mul_assoc, ← pow_succ']

theorem number_snoc (chunks : List ℕ) (chunk : ℕ) :
    number width (chunks ++ [chunk]) = number width chunks * 2 ^ width + chunk := by
  rw [number, List.foldl_append]
  rfl

theorem poly_number_snoc (chunks : List ℕ) {chunk : ℕ} (hchunk : chunk < 2 ^ width) :
    poly (number width (chunks ++ [chunk])) =
      poly (number width chunks) * X ^ width + poly chunk := by
  rw [number_snoc, poly_mul_two_pow_add _ hchunk]

/-- The message stands in front of `width` zeros, and the initial register in front of the message. -/
theorem mk_run (init : ℕ) (chunks : List ℕ) (hchunks : ∀ chunk ∈ chunks, chunk < 2 ^ width) :
    AdjoinRoot.mk (poly generator) (poly (run width generator init chunks)) =
      AdjoinRoot.mk (poly generator)
        (poly (number width chunks) * X ^ width + poly init * X ^ (width * chunks.length)) := by
  induction chunks using List.reverseRecOn with
  | nil => simp [run, number]
  | append_singleton chunks chunk ih =>
      have hchunk := hchunks chunk (List.mem_append_right _ List.mem_cons_self)
      have hbefore := ih fun earlier hearlier => hchunks earlier (List.mem_append_left _ hearlier)
      have hlast : run width generator init (chunks ++ [chunk]) =
          (shift width generator)^[width] (run width generator init chunks ^^^ chunk) := by
        rw [run, List.foldl_append]
        rfl
      rw [hlast, mk_iterate_shift, poly_xor, map_add, hbefore, poly_number_snoc chunks hchunk,
        List.length_append, List.length_singleton]
      simp only [map_add, map_mul, map_pow, AdjoinRoot.mk_X]
      ring

/-- Numbers of the register's width are told apart by their remainders. -/
theorem eq_of_mk_eq (h : IsGenerator width generator) {first second : ℕ} (hfirst : first < 2 ^ width)
    (hsecond : second < 2 ^ width)
    (hmk : AdjoinRoot.mk (poly generator) (poly first) =
      AdjoinRoot.mk (poly generator) (poly second)) : first = second := by
  have hreduced : ∀ n, n < 2 ^ width → poly n %ₘ poly generator = poly n := by
    intro n hn
    rw [modByMonic_eq_self_iff h.monic, degree_eq_natDegree h.ne_zero, h.natDegree]
    exact degree_poly_lt hn
  apply poly_injective
  rw [← hreduced first hfirst, ← hreduced second hsecond]
  exact modByMonic_eq_of_dvd_sub h.monic (AdjoinRoot.mk_eq_mk.mp hmk)

/-- The register holds the remainder of the message, extended by `width` zeros. -/
theorem poly_run (h : IsGenerator width generator) {init : ℕ} (hinit : init < 2 ^ width)
    {chunks : List ℕ} (hchunks : ∀ chunk ∈ chunks, chunk < 2 ^ width) :
    poly (run width generator init chunks) =
      (poly (number width chunks) * X ^ width + poly init * X ^ (width * chunks.length)) %ₘ
        poly generator := by
  rw [← modByMonic_eq_of_dvd_sub h.monic (AdjoinRoot.mk_eq_mk.mp (mk_run init chunks hchunks)), eq_comm,
    modByMonic_eq_self_iff h.monic, degree_eq_natDegree h.ne_zero, h.natDegree]
  exact degree_poly_lt (run_lt h hinit hchunks)

end Remainder

end SdvZone.Crc
