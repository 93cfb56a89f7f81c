import Mathlib.Data.Nat.Bitwise
import SdvZone.WireBytes

/-! The bits of a byte string, the most significant bit of the first byte in front, and patterns of
bits that are flipped on the way. -/

namespace SdvZone.Wire

def bitAt (bytes : Bytes) (p : ℕ) : Bool := (getU8 bytes (p / 8)).toNat.testBit (7 - p % 8)

/-- The bytes that arrive when the bits of a pattern are flipped. -/
def flipBits (bytes error : Bytes) : Bytes := List.zipWith (· ^^^ ·) bytes error

/-- Some bits are set, all of them among `n` consecutive ones. -/
structure IsBurst (n : ℕ) (error : Bytes) : Prop where
  nonzero : ∃ p, bitAt error p = true
  window : ∃ start, ∀ p, bitAt error p = true → start ≤ p ∧ p < start + n

/-- Exactly two bits are set. -/
structure FlipsTwo (error : Bytes) (first second : ℕ) : Prop where
  lt : first < second
  set_iff : ∀ p, bitAt error p = true ↔ p = first ∨ p = second

/-! ### The bits of the number a byte string spells -/

theorem beNat_lt (bytes : Bytes) : beNat bytes < 2 ^ (8 * bytes.length) := by
  induction bytes with
  | nil => exact Nat.one_pos
  | cons byte rest ih =>
      have hbyte := byte.toNat_lt
      have hsize : 256 ^ rest.length = 2 ^ (8 * rest.length) := (pow_mul 2 8 _).symm
      calc
        beNat (byte :: rest) = byte.toNat * 2 ^ (8 * rest.length) + beNat rest := by
          rw [beNat, hsize]
        _ < byte.toNat * 2 ^ (8 * rest.length) + 2 ^ (8 * rest.length) := Nat.add_lt_add_left ih _
        _ = (byte.toNat + 1) * 2 ^ (8 * rest.length) := (Nat.succ_mul _ _).symm
        _ ≤ 2 ^ 8 * 2 ^ (8 * rest.length) := Nat.mul_le_mul_right _ hbyte
        _ = 2 ^ (8 * (byte :: rest).length) := by
          rw [← pow_add, List.length_cons]
          ring_nf

theorem bitAt_cons_add (byte : UInt8) (rest : Bytes) (p : ℕ) :
    bitAt (byte :: rest) (p + 8) = bitAt rest p := by
  rw [bitAt, bitAt, Nat.add_div_right p (by decide), Nat.add_mod_right]
  rfl

theorem bitAt_cons_of_lt (byte : UInt8) (rest : Bytes) {p : ℕ} (h : p < 8) :
    bitAt (byte :: rest) p = byte.toNat.testBit (7 - p) := by
  rw [bitAt, Nat.div_eq_of_lt h, Nat.mod_eq_of_lt h]
  rfl

theorem lt_of_bitAt {bytes : Bytes} {p : ℕ} (h : bitAt bytes p = true) : p < 8 * bytes.length := by
  by_contra houtside
  have hbyte : getU8 bytes (p / 8) = 0 := by
    rw [getU8, List.getD_eq_default _ _ (by omega)]
  rw [bitAt, hbyte, UInt8.toNat_zero, Nat.zero_testBit] at h
  cases h

/-- The last bit of the string is the lowest one of the number. -/
theorem testBit_beNat {bytes : Bytes} {p : ℕ} (h : p < 8 * bytes.length) :
    (beNat bytes).testBit (8 * bytes.length - 1 - p) = bitAt bytes p := by
  induction bytes generalizing p with
  | nil => cases h
  | cons byte rest ih =>
      have hsize : 256 ^ rest.length = 2 ^ (8 * rest.length) := (pow_mul 2 8 _).symm
      rw [List.length_cons, Nat.mul_succ] at *
      rw [beNat, hsize, Nat.mul_comm, Nat.testBit_two_pow_mul_add _ (beNat_lt rest)]
      by_cases hp : p < 8
      · rw [bitAt_cons_of_lt _ _ hp, if_neg (by omega)]
        congr 1
        omega
      · obtain ⟨q, rfl⟩ := Nat.exists_eq_add_of_le' (not_lt.mp hp)
        rw [bitAt_cons_add, if_pos (by omega), ← ih (by omega)]
        congr 1
        omega

theorem bitAt_of_testBit {bytes : Bytes} {i : ℕ} (h : (beNat bytes).testBit i = true) :
    i < 8 * bytes.length ∧ bitAt bytes (8 * bytes.length - 1 - i) = true := by
  have hi : i < 8 * bytes.length := by
    by_contra houtside
    rw [Nat.testBit_lt_two_pow ((beNat_lt bytes).trans_le
      (Nat.pow_le_pow_right two_pos (not_lt.mp houtside)))] at h
    cases h
  refine ⟨hi, ?_⟩
  rw [← testBit_beNat (by omega), ← h]
  congr 1
  omega

theorem beNat_eq_zero {bytes : Bytes} (h : ∀ p, bitAt bytes p = false) : beNat bytes = 0 := by
  apply Nat.eq_of_testBit_eq
  intro i
  rw [Nat.zero_testBit]
  by_contra hset
  have hbit := (bitAt_of_testBit (Bool.not_eq_false _ ▸ hset)).2
  rw [h] at hbit
  cases hbit

theorem IsBurst.beNat_ne_zero {n : ℕ} {error : Bytes} (h : IsBurst n error) : beNat error ≠ 0 := by
  obtain ⟨p, hp⟩ := h.nonzero
  intro hzero
  rw [← testBit_beNat (lt_of_bitAt hp), hzero, Nat.zero_testBit] at hp
  cases hp

/-- A burst of bits of the string is one of bits of the number. -/
theorem IsBurst.testBit_window {n : ℕ} {error : Bytes} (h : IsBurst n error) :
    ∃ k, ∀ i, (beNat error).testBit i = true → k ≤ i ∧ i < k + n := by
  obtain ⟨start, hwindow⟩ := h.window
  refine ⟨8 * error.length - start - n, fun i hi => ?_⟩
  obtain ⟨hlt, hbit⟩ := bitAt_of_testBit hi
  have hp := hwindow _ hbit
  omega

theorem FlipsTwo.beNat_eq {error : Bytes} {first second : ℕ} (h : FlipsTwo error first second) :
    ∃ low, beNat error = 2 ^ low ^^^ 2 ^ (low + (second - first)) := by
  have hlt := h.lt
  have hsecond := lt_of_bitAt ((h.set_iff second).mpr (Or.inr rfl))
  refine ⟨8 * error.length - 1 - second, ?_⟩
  have hset : ∀ i, (beNat error).testBit i = true ↔
      i = 8 * error.length - 1 - second ∨ i = 8 * error.length - 1 - second + (second - first) := by
    intro i
    constructor
    · intro hi
      obtain ⟨hrange, hbit⟩ := bitAt_of_testBit hi
      rcases (h.set_iff _).mp hbit with hp | hp <;> omega
    · intro hi
      have hrange : 8 * error.length - 1 - i < 8 * error.length := by omega
      have hback : 8 * error.length - 1 - (8 * error.length - 1 - i) = i := by omega
      rw [← hback, testBit_beNat hrange]
      exact (h.set_iff _).mpr (by omega)
  apply Nat.eq_of_testBit_eq
  intro i
  rw [Nat.testBit_xor, Nat.testBit_two_pow, Nat.testBit_two_pow, Bool.eq_iff_iff, hset]
  simp only [bne_iff_ne, ne_eq, decide_eq_decide]
  omega

/-! ### Patterns in front of more bytes -/

theorem bitAt_append_zero (bytes : Bytes) (p : ℕ) : bitAt (bytes ++ [0]) p = bitAt bytes p := by
  have hbyte : ∀ i, getU8 (bytes ++ [0]) i = getU8 bytes i := by
    intro i
    rcases lt_trichotomy i bytes.length with hin | rfl | hout
    · exact getU8_append_left [0] hin
    · simp [getU8]
    · rw [getU8, getU8, List.getD_eq_default _ _ (by rw [List.length_append, List.length_singleton]; omega),
        List.getD_eq_default _ _ hout.le]
  rw [bitAt, bitAt, hbyte]

theorem IsBurst.append_zero {n : ℕ} {error : Bytes} (h : IsBurst n error) :
    IsBurst n (error ++ [0]) := by
  obtain ⟨⟨p, hp⟩, start, hwindow⟩ := h
  refine ⟨⟨p, by rwa [bitAt_append_zero]⟩, start, fun q hq => ?_⟩
  rw [bitAt_append_zero] at hq
  exact hwindow q hq

theorem FlipsTwo.append_zero {error : Bytes} {first second : ℕ} (h : FlipsTwo error first second) :
    FlipsTwo (error ++ [0]) first second := by
  refine ⟨h.lt, fun p => ?_⟩
  rw [bitAt_append_zero]
  exact h.set_iff p

theorem bitAt_take (bytes : Bytes) (n p : ℕ) :
    bitAt (bytes.take n) p = (decide (p < 8 * n) && bitAt bytes p) := by
  by_cases hp : p < 8 * n
  · rw [bitAt, bitAt, getU8_take _ (by omega), decide_eq_true hp, Bool.true_and]
  · rw [decide_eq_false hp, Bool.false_and, Bool.eq_false_iff]
    intro hbit
    have hinside := lt_of_bitAt hbit
    rw [List.length_take] at hinside
    omega

end SdvZone.Wire
