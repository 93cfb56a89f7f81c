import SdvZone.CrcBothSides
import SdvZone.CrcDetection
import SdvZone.WireBits

/-! Errors that the CRC of both sides sees, in messages of any length and in the CAN frames of the
MCU. The CRC of a frame covers the bytes in front of it; the alive counter behind it is outside. -/

namespace SdvZone.CrcErrors

open Wire Polynomial BitPoly CrcBothSides

/-- `x` has order 255 modulo the generator. -/
theorem minimalPeriod_shift : Function.minimalPeriod (Crc.shift 8 generator) 1 = 255 := by
  have hback : Function.IsPeriodicPt (Crc.shift 8 generator) 255 1 := by decide +kernel
  have hearlier : ∀ d ∈ [85, 51, 15], ¬ Function.IsPeriodicPt (Crc.shift 8 generator) d 1 := by
    decide +kernel
  have hdivisors : ∀ d ≤ 255, d ∣ 255 → d = 255 ∨ ∃ e ∈ [85, 51, 15], d ∣ e := by decide +kernel
  have hdvd := hback.minimalPeriod_dvd
  rcases hdivisors _ (Nat.le_of_dvd (by decide) hdvd) hdvd with h | ⟨e, he, hdvd⟩
  · exact h
  · exact absurd (Function.isPeriodicPt_iff_minimalPeriod_dvd.mpr hdvd) (hearlier e he)

theorem chunks_flipBits (message error : Bytes) :
    chunks (flipBits message error) = List.zipWith (· ^^^ ·) (chunks message) (chunks error) := by
  rw [chunks, chunks, chunks, flipBits, List.map_zipWith, List.zipWith_map]
  rfl

/-- The register is off by `change` after an error, and so the check stored, off by `change`, fits. -/
theorem register_unseen_iff {message error : Bytes} (hlength : error.length = message.length)
    (change : UInt8) :
    register (flipBits message error) = register message ^^^ change.toNat ↔
      poly generator ∣ poly (beNat (error ++ [change])) := by
  have hchunks : (chunks error).length = (chunks message).length := by
    rw [chunks, chunks, List.length_map, List.length_map, hlength]
  have hnumber : Crc.number 8 (chunks error ++ [change.toNat]) = beNat (error ++ [change]) := by
    rw [← number_chunks, chunks, chunks, List.map_append, List.map_singleton]
  rw [register, register, chunks_flipBits, ← hnumber]
  exact Crc.unseen_iff isGenerator 0xFF hchunks (chunks_lt error) change.toNat_lt

theorem e2eCrc8_unseen_iff {message error : Bytes} (hlength : error.length = message.length)
    (change : UInt8) :
    Mcu.e2eCrc8 (flipBits message error) = Mcu.e2eCrc8 message ^^^ change ↔
      poly generator ∣ poly (beNat (error ++ [change])) := by
  rw [← register_unseen_iff hlength, ← UInt8.toNat_inj, UInt8.toNat_xor, mcu_e2eCrc8, mcu_e2eCrc8,
    Nat.xor_assoc, Nat.xor_right_inj]

theorem not_dvd_of_isBurst {error : Bytes} (h : IsBurst 8 error) :
    ¬ poly generator ∣ poly (beNat error) := by
  obtain ⟨k, hwindow⟩ := h.testBit_window
  exact Crc.not_dvd_of_burst isGenerator h.beNat_ne_zero hwindow

theorem not_dvd_of_flipsTwo {error : Bytes} {first second : ℕ} (h : FlipsTwo error first second)
    (hdistance : ¬ 255 ∣ second - first) : ¬ poly generator ∣ poly (beNat error) := by
  obtain ⟨low, hbits⟩ := h.beNat_eq
  rw [hbits]
  apply Crc.not_dvd_of_two_bits isGenerator
  rwa [minimalPeriod_shift]

/-- A burst of eight bits and two bits, whose distance 255 does not divide, change the CRC of both
sides. -/
theorem crc_detects {message error : Bytes} (hlength : error.length = message.length)
    (herror : IsBurst 8 error ∨
      ∃ first second, FlipsTwo error first second ∧ ¬ 255 ∣ second - first) :
    Mpu.crc8 (flipBits message error) ≠ Mpu.crc8 message ∧
      Mcu.e2eCrc8 (flipBits message error) ≠ Mcu.e2eCrc8 message := by
  have hdvd : ¬ poly generator ∣ poly (beNat (error ++ [0])) := by
    rcases herror with hburst | ⟨first, second, htwo, hdistance⟩
    · exact not_dvd_of_isBurst hburst.append_zero
    · exact not_dvd_of_flipsTwo htwo.append_zero hdistance
  have hregister : register (flipBits message error) ≠ register message := by
    intro heq
    apply hdvd
    rw [← register_unseen_iff hlength, heq]
    exact (Nat.xor_zero _).symm
  constructor
  · rw [mpu_crc8, mpu_crc8, Ne, Nat.xor_right_inj]
    exact hregister
  · rw [Ne, ← UInt8.toNat_inj, mcu_e2eCrc8, mcu_e2eCrc8, Nat.xor_right_inj]
    exact hregister

/-- A burst across two bytes, and two bits two bytes apart. -/
theorem crc_detects_three :
    (Mpu.crc8 (flipBits [0x55, 0xAA, 0x01] [0x01, 0x82, 0x00]) ≠ Mpu.crc8 [0x55, 0xAA, 0x01] ∧
      Mcu.e2eCrc8 (flipBits [0x55, 0xAA, 0x01] [0x01, 0x82, 0x00]) ≠ Mcu.e2eCrc8 [0x55, 0xAA, 0x01]) ∧
    (Mpu.crc8 (flipBits [0x55, 0xAA, 0x01] [0x80, 0x00, 0x01]) ≠ Mpu.crc8 [0x55, 0xAA, 0x01] ∧
      Mcu.e2eCrc8 (flipBits [0x55, 0xAA, 0x01] [0x80, 0x00, 0x01]) ≠
        Mcu.e2eCrc8 [0x55, 0xAA, 0x01]) := by
  have hburst : ∀ p < 24, bitAt [0x01, 0x82, 0x00] p = true → 7 ≤ p ∧ p < 15 := by decide
  have htwo : ∀ p < 24, bitAt [0x80, 0x00, 0x01] p = true → p = 0 ∨ p = 23 := by decide
  constructor
  · exact crc_detects rfl (Or.inl ⟨⟨7, rfl⟩, 7, fun p hp => hburst p (lt_of_bitAt hp) hp⟩)
  · refine crc_detects rfl (Or.inr ⟨0, 23, ⟨by decide, fun p => ⟨?_, ?_⟩⟩, by decide⟩)
    · exact fun hp => htwo p (lt_of_bitAt hp) hp
    · rintro (rfl | rfl) <;> rfl

/-! ### CAN frames -/

/-- What a receiver of a frame checks. -/
def IntegrityOk (data : Bytes) : Prop := getU8 data 6 = Mcu.e2eCrc8 (data.take 6)

instance (data : Bytes) : Decidable (IntegrityOk data) := by unfold IntegrityOk; infer_instance

theorem frame_integrityOk (gateway : Mcu.CanGateway) (level : UInt8) :
    IntegrityOk (gateway.frame level).data := rfl

/-- The first seven bytes of an error decide: those under the CRC and the CRC itself. -/
theorem integrityOk_flipBits_iff {data error : Bytes} (hdata : data.length = 8)
    (herror : error.length = 8) (hok : IntegrityOk data) :
    IntegrityOk (flipBits data error) ↔ poly generator ∣ poly (beNat (error.take 7)) := by
  have hsplit : error.take 7 = error.take 6 ++ [getU8 error 6] := by
    rw [← slice_zero_take, slice_succ error (by decide) (by omega), slice_zero_take]
  have hcheck : getU8 (flipBits data error) 6 = Mcu.e2eCrc8 (data.take 6) ^^^ getU8 error 6 := by
    rw [← hok, flipBits, getU8, getU8, getU8, List.getD_eq_getElem _ _ (by simp; omega),
      List.getElem_zipWith, List.getD_eq_getElem _ _ (by omega), List.getD_eq_getElem _ _ (by omega)]
  have htake : (flipBits data error).take 6 = flipBits (data.take 6) (error.take 6) := by
    rw [flipBits, flipBits, List.take_zipWith]
  have hlength : (error.take 6).length = (data.take 6).length := by
    rw [List.length_take, List.length_take, hdata, herror]
  rw [IntegrityOk, hcheck, htake, hsplit, ← e2eCrc8_unseen_iff hlength, eq_comm]

/-- A burst of eight bits violates the CRC of a frame exactly when it reaches the bytes in front of
the alive counter. -/
theorem frame_violated_iff (gateway : Mcu.CanGateway) (level : UInt8) {error : Bytes}
    (hlength : error.length = 8) (hburst : IsBurst 8 error) :
    ¬ IntegrityOk (flipBits (gateway.frame level).data error) ↔ ∃ p < 56, bitAt error p = true := by
  rw [integrityOk_flipBits_iff rfl hlength (frame_integrityOk gateway level)]
  constructor
  · intro hdvd
    by_contra hclean
    apply hdvd
    rw [beNat_eq_zero]
    · exact dvd_zero _
    · intro p
      rw [bitAt_take, Bool.eq_false_iff]
      exact fun hbit => hclean ⟨p, by simpa using hbit⟩
  · rintro ⟨p, hp, hbit⟩
    obtain ⟨start, hwindow⟩ := hburst.window
    refine not_dvd_of_isBurst ⟨⟨p, ?_⟩, start, fun q hq => ?_⟩
    · rw [bitAt_take, decide_eq_true hp, hbit]
      rfl
    · rw [bitAt_take, Bool.and_eq_true] at hq
      exact hwindow q hq.2

/-- A burst across the level and the reserved byte behind it. -/
theorem frame_violated_level :
    ¬ IntegrityOk (flipBits (Mcu.CanGateway.static.frame 0x55).data [0, 0, 0, 0x01, 0x80, 0, 0, 0]) := by
  have hwindow : ∀ p < 64, bitAt [0, 0, 0, 0x01, 0x80, 0, 0, 0] p = true → 31 ≤ p ∧ p < 39 := by decide
  have hburst : IsBurst 8 [0, 0, 0, 0x01, 0x80, 0, 0, 0] :=
    ⟨⟨31, rfl⟩, 31, fun p hp => hwindow p (lt_of_bitAt hp) hp⟩
  exact (frame_violated_iff Mcu.CanGateway.static 0x55 rfl hburst).mpr ⟨31, by decide, rfl⟩

/-- An error in the alive counter goes unseen. -/
theorem counter_error_unseen :
    ¬ ∀ (gateway : Mcu.CanGateway) (level : UInt8) (error : Bytes), error.length = 8 →
      IsBurst 8 error → ¬ IntegrityOk (flipBits (gateway.frame level).data error) := by
  intro hall
  have hwindow : ∀ p < 64, bitAt [0, 0, 0, 0, 0, 0, 0, 0x01] p = true → 56 ≤ p ∧ p < 64 := by decide
  have hburst : IsBurst 8 [0, 0, 0, 0, 0, 0, 0, 0x01] :=
    ⟨⟨63, rfl⟩, 56, fun p hp => hwindow p (lt_of_bitAt hp) hp⟩
  exact hall Mcu.CanGateway.static 0x55 [0, 0, 0, 0, 0, 0, 0, 0x01] rfl hburst (by decide +kernel)

end SdvZone.CrcErrors
