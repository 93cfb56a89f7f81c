import SdvZone.CrcRegister
import SdvZone.McuCanGateway
import SdvZone.MpuProtocol

/-! The CRC of both sides is the remainder modulo the generator of SAE J1850: the masked integers of
Python and the truncating register of C++ are the shift register of that generator, fed with the
bytes of the message. -/

namespace SdvZone.CrcBothSides

open Wire Polynomial BitPoly

/-- The eight bits of `0x1D` under the bit a shift drops. -/
def generator : ℕ := 0x11D

theorem isGenerator : Crc.IsGenerator 8 generator where
  pos := by decide
  le := by decide
  lt := by decide
  constant := rfl

theorem poly_generator : poly generator = X ^ 8 + X ^ 4 + X ^ 3 + X ^ 2 + 1 := by
  have hbits : generator = 2 ^ 8 ^^^ 2 ^ 4 ^^^ 2 ^ 3 ^^^ 2 ^ 2 ^^^ 1 := rfl
  rw [hbits]
  simp only [poly_xor, poly_two_pow, poly_one]

theorem poly_ones (n : ℕ) : poly (2 ^ n - 1) = ∑ i ∈ Finset.range n, X ^ i := by
  ext i
  simp only [coeff_poly, Nat.testBit_two_pow_sub_one, finsetSum_coeff, coeff_X_pow,
    Finset.sum_ite_eq, Finset.mem_range, decide_eq_true_eq]

/-- The chunks the register is fed with. -/
def chunks (message : Bytes) : List ℕ := message.map UInt8.toNat

theorem chunks_lt (message : Bytes) : ∀ chunk ∈ chunks message, chunk < 2 ^ 8 := by
  intro chunk hchunk
  obtain ⟨byte, -, rfl⟩ := List.mem_map.mp hchunk
  exact byte.toNat_lt

theorem number_chunks (message : Bytes) : Crc.number 8 (chunks message) = beNat message := by
  have hfrom : ∀ start : ℕ, (chunks message).foldl (fun n chunk => n * 2 ^ 8 + chunk) start =
      start * 256 ^ message.length + beNat message := by
    induction message with
    | nil =>
        intro start
        exact (Nat.mul_one start).symm
    | cons byte rest ih =>
        intro start
        rw [chunks, List.map_cons, List.foldl_cons, ← chunks, ih, beNat, List.length_cons]
        ring
  rw [Crc.number, hfrom, Nat.zero_mul, Nat.zero_add]

/-! ### The registers of both sides -/

theorem mpu_crcShift {crc : ℕ} (h : crc < 2 ^ 8) : Mpu.crcShift crc = Crc.shift 8 generator crc := by
  have hall : ∀ crc < 2 ^ 8, Mpu.crcShift crc = Crc.shift 8 generator crc := by decide +kernel
  exact hall crc h

theorem mcu_crcShift (crc : UInt8) :
    (Mcu.crcShift crc).toNat = Crc.shift 8 generator crc.toNat := by
  have hall : ∀ crc < 2 ^ 8,
      (Mcu.crcShift (UInt8.ofNat crc)).toNat = Crc.shift 8 generator crc := by decide +kernel
  rw [← hall crc.toNat crc.toNat_lt, UInt8.ofNat_toNat]

theorem mpu_iterate_crcShift (n : ℕ) {crc : ℕ} (h : crc < 2 ^ 8) :
    Mpu.crcShift^[n] crc = (Crc.shift 8 generator)^[n] crc := by
  induction n with
  | zero => rfl
  | succ n ih =>
      rw [Function.iterate_succ_apply', Function.iterate_succ_apply', ih]
      exact mpu_crcShift (Crc.iterate_shift_lt isGenerator n h)

theorem mcu_iterate_crcShift (n : ℕ) (crc : UInt8) :
    (Mcu.crcShift^[n] crc).toNat = (Crc.shift 8 generator)^[n] crc.toNat := by
  induction n generalizing crc with
  | zero => rfl
  | succ n ih => rw [Function.iterate_succ_apply, Function.iterate_succ_apply, ih, mcu_crcShift]

/-- The register after the bytes of a message. -/
def register (message : Bytes) : ℕ := Crc.run 8 generator 0xFF (chunks message)

theorem register_lt (message : Bytes) : register message < 2 ^ 8 :=
  Crc.run_lt isGenerator (by decide) (chunks_lt message)

theorem mpu_crc8 (message : Bytes) : Mpu.crc8 message = 0xFF ^^^ register message := by
  have hfrom : ∀ crc < 2 ^ 8,
      message.foldl (fun crc byte => Mpu.crcShift^[8] (crc ^^^ byte.toNat)) crc =
        Crc.run 8 generator crc (chunks message) := by
    induction message with
    | nil =>
        intro crc _
        rfl
    | cons byte rest ih =>
        intro crc hcrc
        have hinput : crc ^^^ byte.toNat < 2 ^ 8 := Nat.xor_lt_two_pow hcrc byte.toNat_lt
        rw [List.foldl_cons, mpu_iterate_crcShift 8 hinput]
        exact ih _ (Crc.iterate_shift_lt isGenerator 8 hinput)
  rw [Mpu.crc8, hfrom 0xFF (by decide), Nat.xor_comm, register]

theorem mcu_e2eCrc8 (message : Bytes) : (Mcu.e2eCrc8 message).toNat = 0xFF ^^^ register message := by
  have hfrom : ∀ crc : UInt8,
      (message.foldl (fun crc byte => Mcu.crcShift^[8] (crc ^^^ byte)) crc).toNat =
        Crc.run 8 generator crc.toNat (chunks message) := by
    induction message with
    | nil =>
        intro crc
        rfl
    | cons byte rest ih =>
        intro crc
        rw [List.foldl_cons, ih, mcu_iterate_crcShift, UInt8.toNat_xor]
        rfl
  rw [Mcu.e2eCrc8, UInt8.toNat_xor, hfrom, Nat.xor_comm, register]
  rfl

/-- Both sides store the complement of the remainder of the message, extended by eight zeros and with
the first eight bits flipped. -/
theorem crc_eq_remainder (message : Bytes) :
    ∃ remainder < 2 ^ 8,
      poly remainder =
        (poly (beNat message) * X ^ 8 + (∑ i ∈ Finset.range 8, X ^ i) * X ^ (8 * message.length)) %ₘ
          (X ^ 8 + X ^ 4 + X ^ 3 + X ^ 2 + 1) ∧
      Mpu.crc8 message = 0xFF ^^^ remainder ∧ (Mcu.e2eCrc8 message).toNat = 0xFF ^^^ remainder := by
  have hremainder := Crc.poly_run isGenerator (by decide : 0xFF < 2 ^ 8) (chunks_lt message)
  rw [number_chunks, poly_generator, chunks, List.length_map] at hremainder
  rw [← poly_ones]
  exact ⟨register message, register_lt message, hremainder, mpu_crc8 message, mcu_e2eCrc8 message⟩

end SdvZone.CrcBothSides
