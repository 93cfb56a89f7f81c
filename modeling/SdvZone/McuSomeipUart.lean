import Mathlib.Data.List.Basic
import SdvZone.WireBytes

/-! The UART receiver of the MCU (`someip_uart_receive` in `MCU/src/someip_service.cpp`). The static
variables `rx_buf`, `rx_len` and `last_rx_tick` are the fields of `UartRx`: they survive a call, and
the buffer is never cleared. A call reads the line in rounds: the uptime at the top of the outer
loop, then the bytes `uart_poll_in` yields until it fails, each with the uptime read after it. -/

namespace SdvZone.Mcu

open Wire

def serviceId : Nat := 0x1234
def eventNotify : Nat := 0x8001
def eventHeartbeat : Nat := 0x8002

/-- `sizeof(struct someip_header)`. -/
def headerSize : Nat := 16

structure UartRx where
  rxBuf : Vector UInt8 64
  rxLen : Nat
  lastRxTick : Nat

/-- The bytes an event hands to the caller: `*event_id` and `*payload`. -/
abbrev UartEvent := Nat × UInt8

namespace UartRx

def init : UartRx := { rxBuf := Vector.replicate 64 0, rxLen := 0, lastRxTick := 0 }

/-- A big-endian header field, read in place from the buffer. -/
def field (rx : UartRx) (start stop : Nat) : Nat := beNat (slice rx.rxBuf.toList start stop)

/-- The check at the top of the outer loop: an incomplete frame and no byte for over 50 ms. -/
def resync (rx : UartRx) (now : Nat) : UartRx :=
  if 0 < rx.rxLen ∧ 50 < now - rx.lastRxTick then { rx with rxLen := 0 } else rx

/-- `rx_buf[rx_len++] = byte`. -/
def store (rx : UartRx) (byte : UInt8) (h : ¬64 ≤ rx.rxLen) : UartRx :=
  { rx with rxBuf := rx.rxBuf.set rx.rxLen byte (by omega), rxLen := rx.rxLen + 1 }

/-- The checks made after each stored byte. -/
def examine (rx : UartRx) : UartRx × Option UartEvent :=
  if headerSize ≤ rx.rxLen then
    let length := rx.field 4 8
    if length < 8 ∨ 32 < length then ({ rx with rxLen := 0 }, none)
    else
      let total := headerSize + (length - 8)
      if total ≤ rx.rxLen then
        if rx.field 0 2 = serviceId ∧ rx.field 14 15 = 0x02 then
          ({ rx with rxLen := 0 }, some (rx.field 2 4, rx.rxBuf[16]))
        else ({ rx with rxLen := 0 }, none)
      else (rx, none)
  else (rx, none)

/-- The body of the inner loop, for one byte and the uptime at which it was read. -/
def receiveByte (rx : UartRx) (now : Nat) (byte : UInt8) : UartRx × Option UartEvent :=
  let rx := { rx with lastRxTick := now }
  if h : 64 ≤ rx.rxLen then ({ rx with rxLen := 0 }, none) else (rx.store byte h).examine

end UartRx

/-- One pass of the outer loop. -/
structure UartRound where
  now : Nat
  bytes : List (Nat × UInt8)

/-- The inner loop: the bytes not yet read are handed back with an accepted event. -/
def someipUartPoll : UartRx → List (Nat × UInt8) →
    UartRx × Option (UartEvent × List (Nat × UInt8))
  | rx, [] => (rx, none)
  | rx, (tick, byte) :: rest =>
      match rx.receiveByte tick byte with
      | (rx, some event) => (rx, some (event, rest))
      | (rx, none) => someipUartPoll rx rest

/-- One call. It returns when a frame is accepted, with the part of the line it has not read, and
keeps polling (`none`) while the line has nothing more for it. -/
def someipUartReceive : UartRx → List UartRound → UartRx × Option (UartEvent × List UartRound)
  | rx, [] => (rx, none)
  | rx, round :: rest =>
      match someipUartPoll (rx.resync round.now) round.bytes with
      | (rx, some (event, unread)) => (rx, some (event, { round with bytes := unread } :: rest))
      | (rx, none) => someipUartReceive rx rest

/-- The bytes and rounds of a line that is still to be read. -/
def lineSize (rounds : List UartRound) : Nat := (rounds.map fun round => round.bytes.length).sum

theorem someipUartPoll_unread {rx after : UartRx} {bytes unread : List (Nat × UInt8)}
    {event : UartEvent} (h : someipUartPoll rx bytes = (after, some (event, unread))) :
    unread.length < bytes.length := by
  induction bytes generalizing rx with
  | nil => cases h
  | cons head rest ih =>
      simp only [someipUartPoll] at h
      split at h
      · cases h
        exact Nat.lt_succ_self _
      · exact Nat.lt_succ_of_lt (ih h)

theorem someipUartReceive_lineSize {rx after : UartRx} {rounds unread : List UartRound}
    {event : UartEvent} (h : someipUartReceive rx rounds = (after, some (event, unread))) :
    lineSize unread < lineSize rounds := by
  induction rounds generalizing rx with
  | nil => cases h
  | cons round rest ih =>
      simp only [someipUartReceive] at h
      split at h
      next hpoll =>
        cases h
        have := someipUartPoll_unread hpoll
        simp only [lineSize, List.map_cons, List.sum_cons]
        omega
      next =>
        have := ih h
        simp only [lineSize, List.map_cons, List.sum_cons] at this ⊢
        omega

/-- Successive calls, until the line has been read: the receiver they leave and the events they
return. A resumed round checks the clock again, which does nothing to the empty buffer. -/
def someipUartCalls (rx : UartRx) (rounds : List UartRound) : UartRx × List UartEvent :=
  match _hcall : someipUartReceive rx rounds with
  | (after, none) => (after, [])
  | (after, some (event, unread)) =>
      ((someipUartCalls after unread).1, event :: (someipUartCalls after unread).2)
termination_by lineSize rounds
decreasing_by all_goals exact someipUartReceive_lineSize _hcall

end SdvZone.Mcu
