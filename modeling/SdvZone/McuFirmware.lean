import SdvZone.McuMain
import SdvZone.McuSafety
import SdvZone.McuSomeipUdp

/-! The MCU as a whole: the threads of `MCU/src/main.cpp` with the receiver that is compiled in, the
safety monitor and the CAN bus. The callback of the safety timer runs to its end whenever a
millisecond passes, between any two steps of the threads; `safety_kick_watchdog` is three steps. What
each message received leads to, and who hands over each CAN frame, is recorded along the way. -/

namespace SdvZone.Mcu

open Wire

/-- The state of the receiver, by `CONFIG_SOMEIP_TRANSPORT_UART`. -/
inductive Transport where
  | uart (rx : UartRx)
  | udp (udp : SomeipUdp)

/-- Where `someip_thread` stands when it is not dispatching an event. -/
inductive LoopPc where
  | findService
  | lastFind
  | receive
  | poll
  deriving DecidableEq, Repr

/-- What `safety_kick_watchdog` does next. -/
inductive KickPc where
  | wdtFeed
  | timerStart
  | recover
  deriving DecidableEq, Repr

/-- A message for which `someip_receive` has returned 0, and what it has handed over. -/
structure Reception where
  message : Bytes
  event : UartEvent
  deriving DecidableEq, Repr

inductive CanSender where
  | canThread
  | canSendWarning
  deriving DecidableEq, Repr

/-- A frame handed to `can_send`, by whom, and `safe_state` at that time. -/
structure Transmission where
  sender : CanSender
  safeState : Bool
  frame : CanFrame
  deriving DecidableEq, Repr

def Transmission.level (transmission : Transmission) : UInt8 := getU8 transmission.frame.data 3

/-- `dispatching` is the message `someip_thread` has accepted last, until it waits for the next one;
`kickedFor` is its value at each call of `safety_kick_watchdog`. -/
structure Firmware where
  threads : Threads
  loop : LoopPc
  lastFind : Nat
  transport : Transport
  kicking : KickPc
  board : Board
  dispatching : Option Reception
  kickedFor : List (Option Reception)
  transmissions : List Transmission

/-- What happens next: a millisecond passes, `can_thread` makes a step, or `someip_thread` does. The
stack, the network and the line decide what `someip_thread` finds. -/
inductive FirmwareStep where
  | tick
  | can
  | findService (memory : Vector UInt8 64) (sendto : Outgoing → Int)
  | lastFind
  | receiveUdp (memory : Vector UInt8 64) (sendto : Outgoing → Int) (datagram : Option Bytes)
  | resyncUart
  | pollUart (byte : Option UInt8)
  | dispatch

namespace Firmware

/-- The threads are created when `safety_init` has returned. -/
def start (wdtReady : Bool) (transport : Transport) : Firmware :=
  { threads := .start
    loop := .findService
    lastFind := 0
    transport := transport
    kicking := .wdtFeed
    board := .boot wdtReady true true
    dispatching := none
    kickedFor := []
    transmissions := [] }

/-- `k_uptime_get_32`. -/
def uptime32 (firmware : Firmware) : Nat := firmware.board.uptime % 2 ^ 32

/-! ### The CAN bus -/

def canSend (firmware : Firmware) (sender : CanSender) (level : UInt8) : List Transmission :=
  firmware.transmissions ++
    [⟨sender, firmware.board.safety.safeState, firmware.threads.gateway.frame level⟩]

def canStep (firmware : Firmware) : Firmware :=
  { firmware with
    threads := firmware.threads.canStep
    transmissions :=
      match firmware.threads.can with
      | .send level => firmware.canSend .canThread (UInt8.ofNat level)
      | _ => firmware.transmissions }

/-- The monitor's driver calls reach the bus through `can_send_warning`. -/
def driverCall (firmware : Firmware) : DriverCall → Firmware
  | .canSendWarning =>
      { firmware with
        threads := { firmware.threads with gateway := firmware.threads.gateway.canSendWarning }
        transmissions := firmware.canSend .canSendWarning 0xFF }
  | _ => firmware

/-- The callback sets `safe_state` before it calls the drivers, and leaves it. -/
def tick (firmware : Firmware) : Firmware :=
  let board := firmware.board.tick
  (board.calls.drop firmware.board.calls.length).foldl
    (fun firmware call => firmware.driverCall call.2) { firmware with board := board }

/-! ### `someip_thread` -/

/-- `someip_sd_send_find`, a stub where the transport is the UART. -/
def sendFind (memory : Vector UInt8 64) (sendto : Outgoing → Int) : Transport → Transport
  | .uart rx => .uart rx
  | .udp udp => .udp (udp.someipSdSendFind memory sendto).2

/-- The difference of the two uptimes is one of `uint32_t`. -/
def findService (memory : Vector UInt8 64) (sendto : Outgoing → Int) (firmware : Firmware) :
    Firmware :=
  if 2000 ≤ (firmware.uptime32 + (2 ^ 32 - firmware.lastFind)) % 2 ^ 32 then
    { firmware with loop := .lastFind, transport := sendFind memory sendto firmware.transport }
  else { firmware with loop := .receive }

/-- `someip_receive` has returned 0. -/
def accept (firmware : Firmware) (message : Bytes) (event : UartEvent) : Firmware :=
  { firmware with
    threads := { firmware.threads with someip := .heartbeat event }
    loop := .findService
    dispatching := some ⟨message, event⟩ }

def receiveUdp (memory : Vector UInt8 64) (sendto : Outgoing → Int) (datagram : Option Bytes)
    (firmware : Firmware) (udp : SomeipUdp) : Firmware :=
  let (udp, event) := udp.someipUdpReceive memory sendto datagram
  let firmware := { firmware with loop := .findService, transport := .udp udp }
  match datagram, event with
  | some message, some event => firmware.accept message event
  | _, _ => firmware

/-- The inner loop of `someip_uart_receive`: without a byte it is left, and the thread sleeps. -/
def pollUart (byte : Option UInt8) (firmware : Firmware) (rx : UartRx) : Firmware :=
  match byte with
  | none => { firmware with loop := .receive }
  | some byte =>
      let (after, event) := rx.receiveByte firmware.board.uptime byte
      let firmware := { firmware with transport := .uart after }
      match event with
      | some event => firmware.accept (rx.rxBuf.toList.take rx.rxLen ++ [byte]) event
      | none => firmware

/-- The steps of `safety_kick_watchdog`. -/
def kickFeed (board : Board) : Board := if board.wdtReady then board.call .wdtFeed else board

def kickTimer (board : Board) : Board :=
  board.call (.timerStart heartbeatTimeoutMs heartbeatTimeoutMs)

def kickRecover (board : Board) : Board :=
  { board with
    safety := if board.safety.safeState then { board.safety with safeState := false } else board.safety }

/-- The event is dispatched: the shared variables, then `safety_kick_watchdog`. -/
def dispatch (firmware : Firmware) : Option Firmware :=
  match firmware.threads.someip, firmware.kicking with
  | .kick, .wdtFeed =>
      some { firmware with
        kicking := .timerStart
        board := kickFeed firmware.board
        kickedFor := firmware.kickedFor ++ [firmware.dispatching] }
  | .kick, .timerStart =>
      some { firmware with kicking := .recover, board := kickTimer firmware.board }
  | .kick, .recover =>
      (firmware.threads.someipStep firmware.board.uptime).map fun threads =>
        { firmware with
          threads := threads
          kicking := .wdtFeed
          board := kickRecover firmware.board
          dispatching := none }
  | _, _ =>
      (firmware.threads.someipStep firmware.board.uptime).map fun threads =>
        { firmware with threads := threads }

def step (firmware : Firmware) : FirmwareStep → Option Firmware
  | .tick => some firmware.tick
  | .can => some firmware.canStep
  | .dispatch => firmware.dispatch
  | .findService memory sendto =>
      if firmware.threads.someip = .receive ∧ firmware.loop = .findService then
        some (firmware.findService memory sendto)
      else none
  | .lastFind =>
      if firmware.threads.someip = .receive ∧ firmware.loop = .lastFind then
        some { firmware with loop := .receive, lastFind := firmware.uptime32 }
      else none
  | .receiveUdp memory sendto datagram =>
      match firmware.transport with
      | .udp udp =>
          if firmware.threads.someip = .receive ∧ firmware.loop = .receive then
            some (firmware.receiveUdp memory sendto datagram udp)
          else none
      | .uart _ => none
  | .resyncUart =>
      match firmware.transport with
      | .uart rx =>
          if firmware.threads.someip = .receive ∧ firmware.loop = .receive then
            some { firmware with loop := .poll, transport := .uart (rx.resync firmware.board.uptime) }
          else none
      | .udp _ => none
  | .pollUart byte =>
      match firmware.transport with
      | .uart rx =>
          if firmware.threads.someip = .receive ∧ firmware.loop = .poll then
            some (firmware.pollUart byte rx)
          else none
      | .udp _ => none

end Firmware

end SdvZone.Mcu
