import SdvZone.CanCounter
import SdvZone.CrcBothSides

/-! The demo log of the CAN bus (`generate_candump_log` in `scripts/generate_demos.py`). It builds the
frames in Python, with the CRC of `mpu/someip/protocol.py` and a counter that is cut to a byte only in the
frame; they are those that the gateway sends. -/

namespace SdvZone.Demos

open Wire Machine

/-- What a line of the log tells of a frame, behind the time. -/
structure CandumpLine where
  id : Nat
  length : Nat
  data : Bytes
  deriving DecidableEq, Repr

/-- `sim_can_frame`. -/
def simCanFrame (level counter : Nat) : Bytes :=
  let data : Bytes := [0x55, 0xAA, 0x01, UInt8.ofNat (level &&& 0xFF), 0x00, 0x00, 0x00,
    UInt8.ofNat (counter &&& 0xFF)]
  data.set 6 (UInt8.ofNat (Mpu.crc8 (data.take 6)))

/-- The level in the line with the index. -/
def logLevel (i : Nat) : Nat := if i < 20 then 0x00 else min (50 + (i - 20) * 5) 100

/-- The loop of `generate_candump_log`: the counter, and the lines so far. -/
def logLoop (state : Nat × List CandumpLine) (i : Nat) : Nat × List CandumpLine :=
  let (counter, lines) := state
  let frame := simCanFrame (logLevel i) counter
  (counter + 1, lines ++ [{ id := 0x18FF01F4, length := frame.length, data := frame }])

def generateCandumpLog (count : Nat) : List CandumpLine := ((List.range count).foldl logLoop (0, [])).2

/-- The line of a frame that was sent. -/
def lineOf (entry : Mcu.CanFrame × Nat) : CandumpLine :=
  { id := entry.1.id, length := entry.1.dlc, data := entry.1.data }

theorem ofNat_low_byte (value : Nat) : UInt8.ofNat (value &&& 0xFF) = UInt8.ofNat value := by
  apply UInt8.toNat_inj.mp
  rw [UInt8.toNat_ofNat', UInt8.toNat_ofNat', show (0xFF : Nat) = 2 ^ 8 - 1 from rfl,
    Nat.and_two_pow_sub_one_eq_mod, Nat.mod_mod]

theorem mpu_crc8_eq (message : Bytes) : UInt8.ofNat (Mpu.crc8 message) = Mcu.e2eCrc8 message := by
  apply UInt8.toNat_inj.mp
  rw [CrcBothSides.mpu_crc8, ← CrcBothSides.mcu_e2eCrc8, UInt8.ofNat_toNat]

/-- The frame of the script is that of the gateway, whatever the size of the level and of the counter. -/
theorem simCanFrame_eq (level counter : Nat) :
    simCanFrame level counter = (Mcu.canFrame (UInt8.ofNat counter) (UInt8.ofNat level)).data := by
  rw [simCanFrame, ofNat_low_byte, ofNat_low_byte, mpu_crc8_eq]
  rfl

/-- The gateway when `can_send_drowsiness` has been called for these levels. -/
def sendLevels (levels : List Nat) : Mcu.CanGateway :=
  levels.foldl (fun gateway level => gateway.canSendDrowsiness (UInt8.ofNat level)) .static

theorem logLoop_sendLevels (count : Nat) :
    (List.range count).foldl logLoop (0, []) =
      (count, (sendLevels ((List.range count).map logLevel)).sent.map lineOf) ∧
      (sendLevels ((List.range count).map logLevel)).aliveCounter = UInt8.ofNat count := by
  induction count with
  | zero => exact ⟨rfl, rfl⟩
  | succ count ih =>
      obtain ⟨hlog, hcounter⟩ := ih
      have hnext : sendLevels ((List.range (count + 1)).map logLevel) =
          (sendLevels ((List.range count).map logLevel)).canSendDrowsiness (UInt8.ofNat (logLevel count)) := by
        rw [List.range_succ, List.map_append, sendLevels, List.foldl_append]
        rfl
      rw [hnext, Mcu.CanGateway.canSendDrowsiness, Mcu.CanGateway.canSendFrame, Mcu.frame_eq, hcounter]
      refine ⟨?_, ?_⟩
      · rw [List.range_succ, List.foldl_append, hlog, List.foldl_cons, List.foldl_nil, logLoop, simCanFrame_eq,
          List.map_append]
        rfl
      · rw [UInt8.ofNat_add]
        rfl

/-- The log shows, line by line, the frames that the gateway sends when it is given the levels of the log,
also when the counter has gone round. -/
theorem generateCandumpLog_eq (count : Nat) :
    generateCandumpLog count = (sendLevels ((List.range count).map logLevel)).sent.map lineOf := by
  rw [generateCandumpLog, (logLoop_sendLevels count).1]

-- the last line of `docs/candump_sim.log`
example : (generateCandumpLog 30)[29]? =
    some ⟨0x18FF01F4, 8, [0x55, 0xAA, 0x01, 0x5F, 0x00, 0x00, 0xD3, 0x1D]⟩ := by decide +kernel

end SdvZone.Demos
