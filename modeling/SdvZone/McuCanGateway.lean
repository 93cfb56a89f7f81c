import SdvZone.WireBytes

/-! The CAN gateway of the MCU (`MCU/src/can_gateway.cpp`). The static `alive_counter` is shared by
both kinds of frame; the frames handed to `can_send` are kept in order. -/

namespace SdvZone.Mcu

open Wire

/-- One bit of the CRC: polynomial 0x1D, most significant bit first. -/
def crcShift (crc : UInt8) : UInt8 := if crc &&& 0x80 ≠ 0 then (crc <<< 1) ^^^ 0x1D else crc <<< 1

def e2eCrc8 (data : Bytes) : UInt8 :=
  data.foldl (fun crc byte => crcShift^[8] (crc ^^^ byte)) 0xFF ^^^ 0xFF

def canFrameIde : Nat := 0x01
def canFrameFdf : Nat := 0x04
def canFrameBrs : Nat := 0x08

structure CanFrame where
  id : Nat
  flags : Nat
  dlc : Nat
  data : Bytes
  deriving DecidableEq, Repr

structure CanGateway where
  aliveCounter : UInt8
  sent : List (CanFrame × Nat)
  deriving DecidableEq, Repr

namespace CanGateway

def static : CanGateway := { aliveCounter := 0, sent := [] }

/-- The frame with a level, its CRC and the counter before it is incremented. -/
def frame (gateway : CanGateway) (level : UInt8) : CanFrame :=
  { id := 0x18FF01F4
    flags := canFrameIde ||| canFrameFdf ||| canFrameBrs
    dlc := 8
    data := [0x55, 0xAA, 0x01, level, 0x00, 0x00,
      e2eCrc8 [0x55, 0xAA, 0x01, level, 0x00, 0x00], gateway.aliveCounter] }

/-- The frame goes to the driver with its timeout; the counter advances whatever the driver says. -/
def canSendFrame (gateway : CanGateway) (level : UInt8) (timeoutMs : Nat) : CanGateway :=
  { aliveCounter := gateway.aliveCounter + 1
    sent := gateway.sent ++ [(gateway.frame level, timeoutMs)] }

def canSendDrowsiness (gateway : CanGateway) (level : UInt8) : CanGateway :=
  gateway.canSendFrame level 100

def canSendWarning (gateway : CanGateway) : CanGateway := gateway.canSendFrame 0xFF 5

end CanGateway

end SdvZone.Mcu
