import Mathlib.Algebra.Order.Field.Rat
import Mathlib.Data.List.Chain
import SdvZone.WireBytes
import SdvZone.MachineRun

/-! The MPU side of the event protocol (`mpu/someip/protocol.py`): the packet builders, the packet
parser and the byte-wise stream parser. Python exceptions are values of `PyError`; the standard
library calls that can raise keep the condition under which they do. -/

namespace SdvZone.Mpu

open Wire Machine

inductive PyError where
  | valueError (message : String)
  | indexError
  | structError
  | osError
  deriving DecidableEq, Repr

/-- The text of `{value:04X}`. -/
def formatX4 (value : Nat) : String :=
  String.ofList (((Nat.toDigits 16 value).map Char.toUpper).leftpad 4 '0')

/-- The text of `{value:#x}`. -/
def formatHex (value : Nat) : String := String.ofList ('0' :: 'x' :: Nat.toDigits 16 value)

/-- Indexing raises past the end; slicing (`Wire.slice`) never does. -/
def getItem (bytes : Bytes) (index : Nat) : Except PyError UInt8 :=
  match bytes[index]? with
  | some byte => .ok byte
  | none => .error .indexError

/-! ### The CRC of the CAN frames, as the MCU computes it -/

/-- One bit of the CRC, on integers masked to a byte. -/
def crcShift (crc : Nat) : Nat :=
  if crc &&& 0x80 ≠ 0 then ((crc <<< 1) ^^^ 0x1D) &&& 0xFF else (crc <<< 1) &&& 0xFF

def crc8 (data : Bytes) : Nat :=
  data.foldl (fun crc byte => crcShift^[8] (crc ^^^ byte.toNat)) 0xFF ^^^ 0xFF

/-! ### The SOME/IP header, as `struct` packs and unpacks `!HHIHHBBBB` -/

structure SomeipHeader where
  serviceId : Nat
  methodId : Nat
  length : Nat
  clientId : Nat
  sessionId : Nat
  protocolVersion : Nat
  interfaceVersion : Nat
  messageType : Nat
  returnCode : Nat
  deriving DecidableEq, Repr

namespace SomeipHeader

/-- Every field lies in the range of its format character. -/
def Fits (header : SomeipHeader) : Prop :=
  header.serviceId < 2 ^ 16 ∧ header.methodId < 2 ^ 16 ∧ header.length < 2 ^ 32 ∧
    header.clientId < 2 ^ 16 ∧ header.sessionId < 2 ^ 16 ∧ header.protocolVersion < 2 ^ 8 ∧
    header.interfaceVersion < 2 ^ 8 ∧ header.messageType < 2 ^ 8 ∧ header.returnCode < 2 ^ 8

instance (header : SomeipHeader) : Decidable header.Fits := by unfold Fits; infer_instance

def bytes (header : SomeipHeader) : Bytes :=
  beBytes 2 header.serviceId ++ beBytes 2 header.methodId ++ beBytes 4 header.length ++
    beBytes 2 header.clientId ++ beBytes 2 header.sessionId ++ beBytes 1 header.protocolVersion ++
    beBytes 1 header.interfaceVersion ++ beBytes 1 header.messageType ++ beBytes 1 header.returnCode

end SomeipHeader

def structPackHeader (header : SomeipHeader) : Except PyError Bytes :=
  if header.Fits then .ok header.bytes else .error .structError

def structUnpackHeader (bytes : Bytes) : Except PyError SomeipHeader :=
  if bytes.length = 16 then
    .ok {
      serviceId := beNat (slice bytes 0 2)
      methodId := beNat (slice bytes 2 4)
      length := beNat (slice bytes 4 8)
      clientId := beNat (slice bytes 8 10)
      sessionId := beNat (slice bytes 10 12)
      protocolVersion := beNat (slice bytes 12 13)
      interfaceVersion := beNat (slice bytes 13 14)
      messageType := beNat (slice bytes 14 15)
      returnCode := beNat (slice bytes 15 16) }
  else .error .structError

/-! ### Builders -/

def serviceId : Nat := 0x1234
def eventNotify : Nat := 0x8001
def eventHeartbeat : Nat := 0x8002

def buildPacket (eventId : Nat) (payload : Bytes) (sessionId : Nat := 1) : Except PyError Bytes := do
  let header ← structPackHeader {
    serviceId := serviceId
    methodId := eventId
    length := payload.length + 8
    clientId := 0x0001
    sessionId := sessionId
    protocolVersion := 0x01
    interfaceVersion := 0x01
    messageType := 0x02
    returnCode := 0x00 }
  let packet := header ++ payload
  -- the alignment padding is not covered by the length field
  let pad := (8 - packet.length % 8) % 8
  return packet ++ List.replicate pad 0x00

def buildNotify (level : Nat) (sessionId : Nat := 1) : Except PyError Bytes :=
  buildPacket eventNotify [UInt8.ofNat (level &&& 0xFF)] sessionId

def buildHeartbeat (counter : Nat) (sessionId : Nat := 1) : Except PyError Bytes :=
  buildPacket eventHeartbeat [UInt8.ofNat (counter &&& 0xFF)] sessionId

/-! ### Parser -/

def parseEvent (packet : Bytes) : Except PyError (Nat × Bytes) :=
  if packet.length < 16 then
    .error (.valueError s!"packet too short: {packet.length} bytes")
  else do
    let header ← structUnpackHeader (slice packet 0 16)
    if header.serviceId ≠ serviceId then
      .error (.valueError s!"unexpected service_id 0x{formatX4 header.serviceId}")
    else if header.messageType ≠ 0x02 then
      .error (.valueError s!"unexpected message_type {formatHex header.messageType}")
    else
      let payloadLen : Int := header.length - 8
      if payloadLen < 0 ∨ payloadLen > packet.length - 16 then
        .error (.valueError s!"length field {header.length} inconsistent with packet size")
      else
        .ok (header.methodId, slice packet 16 (16 + payloadLen.toNat))

/-! ### Stream parser -/

structure StreamParser where
  timeoutMs : Nat
  buf : Bytes
  lastTick : Option ℚ

namespace StreamParser

def headerSize : Nat := 16
def defaultTimeoutMs : Nat := 50

def init (timeoutMs : Nat := defaultTimeoutMs) : StreamParser :=
  { timeoutMs := timeoutMs, buf := [], lastTick := none }

def reset (parser : StreamParser) : StreamParser := { parser with buf := [], lastTick := none }

/-- The buffer holds a partial frame and nothing has arrived for longer than the timeout. Clock
readings are seconds, as exact rationals in place of the floats of `time.monotonic`. -/
def stale (parser : StreamParser) (now : ℚ) : Bool :=
  match parser.lastTick with
  | none => false
  | some tick => !parser.buf.isEmpty && decide ((parser.timeoutMs : ℚ) / 1000 < now - tick)

/-- One byte, with the two readings of the clock that `feed` takes. -/
def feed (parser : StreamParser) (now tick : ℚ) (byte : Nat) : StreamParser × Option (Nat × Bytes) :=
  let parser := if parser.stale now then parser.reset else parser
  let parser := { parser with
    buf := parser.buf ++ [UInt8.ofNat (byte &&& 0xFF)]
    lastTick := some tick }
  if parser.buf.length < headerSize then (parser, none)
  else
    let length := beNat (slice parser.buf 4 8)
    if length < 8 ∨ 32 < length then (parser.reset, none)
    else
      let total := headerSize + (length - 8)
      if parser.buf.length < total then (parser, none)
      else
        match parseEvent (slice parser.buf 0 total) with
        | .ok event => (parser.reset, some event)
        -- `parseEvent` raises nothing but `ValueError` (`parseEvent_error`)
        | .error _ => (parser.reset, none)

/-- A byte handed to `feed` and the clock readings of that call. -/
structure Arrival where
  now : ℚ
  tick : ℚ
  byte : UInt8

def feedBytes (parser : StreamParser) (arrivals : List Arrival) : StreamParser × List (Nat × Bytes) :=
  react (fun parser arrival => parser.feed arrival.now arrival.tick arrival.byte.toNat) parser arrivals

/-- No two consecutive bytes lie further apart than the timeout. -/
def Unpaused (timeoutMs : Nat) (arrivals : List Arrival) : Prop :=
  arrivals.IsChain fun earlier later => later.now - earlier.tick ≤ (timeoutMs : ℚ) / 1000

end StreamParser

theorem structUnpackHeader_of_length {bytes : Bytes} (h : bytes.length = 16) :
    ∃ header, structUnpackHeader bytes = .ok header :=
  ⟨_, if_pos h⟩

theorem parseEvent_error {packet : Bytes} {error : PyError} (h : parseEvent packet = .error error) :
    ∃ message, error = .valueError message := by
  unfold parseEvent at h
  split at h
  case isTrue => cases h; exact ⟨_, rfl⟩
  case isFalse hlong =>
    obtain ⟨header, hheader⟩ := @structUnpackHeader_of_length (slice packet 0 16)
      (by rw [slice_length]; omega)
    rw [hheader] at h
    simp only [bind, Except.bind] at h
    split_ifs at h <;> cases h <;> exact ⟨_, rfl⟩

/-! ### Packets the MPU sends -/

inductive MpuEvent where
  | notify (level : Nat)
  | heartbeat (counter : Nat)
  deriving DecidableEq, Repr

namespace MpuEvent

def build : MpuEvent → Nat → Except PyError Bytes
  | .notify level, sessionId => buildNotify level sessionId
  | .heartbeat counter, sessionId => buildHeartbeat counter sessionId

def eventId : MpuEvent → Nat
  | .notify _ => eventNotify
  | .heartbeat _ => eventHeartbeat

/-- The payload byte, the low eight bits of the level or counter. -/
def value : MpuEvent → UInt8
  | .notify level => UInt8.ofNat (level &&& 0xFF)
  | .heartbeat counter => UInt8.ofNat (counter &&& 0xFF)

theorem build_eq (event : MpuEvent) (sessionId : Nat) :
    event.build sessionId = buildPacket event.eventId [event.value] sessionId := by
  cases event <;> rfl

end MpuEvent

/-- A packet with the builder call that returned it. -/
structure MpuPacket where
  event : MpuEvent
  sessionId : Nat
  bytes : Bytes
  built : event.build sessionId = .ok bytes

namespace MpuPacket

/-- What a receiver should report for the packet. -/
def sent (packet : MpuPacket) : Nat × Bytes := (packet.event.eventId, [packet.event.value])

end MpuPacket

end SdvZone.Mpu
