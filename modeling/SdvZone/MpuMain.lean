import SdvZone.MpuDrowsiness
import SdvZone.MpuSdServer
import SdvZone.UartPackets

/-! The MPU as a whole: the process of `ai/drowsiness.py`, with its main thread, the heartbeat thread
and, with `--sd`, the thread of the service discovery server. The two daemon threads go on when the
main thread has returned, until the process ends, which it may do at any time. -/

namespace SdvZone.Mpu

open Wire Machine

def instanceId : Nat := 0x5678
def someipPort : Nat := 30490

/-- What becomes of a packet that `send` is given: how many bytes the device takes, and whether an
exception is raised. A datagram is taken as a whole, or not at all if there is one. -/
structure SendOutcome where
  taken : Nat
  raised : Bool
  deriving DecidableEq, Repr

structure SendCall where
  packet : MpuPacket
  outcome : SendOutcome

/-- Where `main` stands. -/
inductive MainPc where
  | startSd
  | startHeartbeat
  | openCamera
  | read
  | faces (rest : List Nat) (quit : Bool)
  | simulate
  | returned
  | exited
  deriving DecidableEq, Repr

/-- `camera` is what `cap.isOpened` will answer, `heartbeat` the counter of the heartbeat thread once
it has been started, `sd` the server if there is one. -/
structure MpuProcess where
  main : MainPc
  camera : Bool
  counter : Nat
  heartbeat : Option Nat
  sd : Option SdProcess
  sends : List SendCall

/-- A step of a thread, or the end of the process. -/
inductive MpuAction where
  | startSd
  | startHeartbeat
  | openCamera
  | read (frame : Option Frame)
  | face (outcome : SendOutcome)
  | frameEnd
  | simulate (level : Nat) (outcome : SendOutcome)
  | heartbeat (outcome : SendOutcome)
  | sd (action : SdAction)
  | exit

namespace MpuProcess

/-- With `--sd` the server advertises the address given by `--dest`. -/
def boot (dest : Option DottedQuad) (camera : Bool) : MpuProcess :=
  { main := .startSd
    camera := camera
    counter := 0
    heartbeat := none
    sd := dest.map fun ip => .boot (SdServer.init serviceId instanceId ip someipPort)
    sends := [] }

/-- `send_notify` or `send_heartbeat`, with the session id that is the default. -/
def send (process : MpuProcess) (event : MpuEvent) (outcome : SendOutcome) : List SendCall :=
  process.sends ++ [⟨Uart.packetOf event Uart.defaultSession, outcome⟩]

/-- `send_notify` in the main thread, which an exception ends. -/
def sendNotify (process : MpuProcess) (level : Nat) (outcome : SendOutcome) : MpuProcess :=
  { process with
    main := if outcome.raised then .returned else process.main
    sends := process.send (.notify level) outcome }

/-- One face: `sendNotify` if there is a level to send. -/
def face (process : MpuProcess) (eyes : Nat) (outcome : SendOutcome) : MpuProcess :=
  let (counter, level) := cameraFace process.counter eyes
  let process := { process with counter := counter }
  match level with
  | some level => process.sendNotify level outcome
  | none => process

/-- The heartbeat thread logs an exception and goes on. -/
def sendHeartbeat (process : MpuProcess) (counter : Nat) (outcome : SendOutcome) : MpuProcess :=
  { process with
    heartbeat := some ((counter + 1) &&& 0xFF)
    sends := process.send (.heartbeat counter) outcome }

def step (process : MpuProcess) : MpuAction → Option MpuProcess
  | .startSd =>
      if process.main = .startSd then
        some { process with main := .startHeartbeat, sd := process.sd.map SdProcess.start }
      else none
  | .startHeartbeat =>
      if process.main = .startHeartbeat then
        some { process with main := .openCamera, heartbeat := some 0 }
      else none
  | .openCamera =>
      if process.main = .openCamera then
        some { process with main := if process.camera then .read else .simulate }
      else none
  | .read frame =>
      if process.main = .read then
        match frame with
        | none => some { process with main := .returned }
        | some frame => some { process with main := .faces frame.faces frame.quit }
      else none
  | .face outcome =>
      match process.main with
      | .faces (eyes :: rest) quit => some ({ process with main := .faces rest quit }.face eyes outcome)
      | _ => none
  | .frameEnd =>
      match process.main with
      | .faces [] quit => some { process with main := if quit then .returned else .read }
      | _ => none
  | .simulate level outcome =>
      if process.main = .simulate ∧ level ∈ [0, 85, 90] then
        if 0 < level then some (process.sendNotify level outcome) else some process
      else none
  | .heartbeat outcome =>
      match process.heartbeat with
      | some counter =>
          if process.main ≠ .exited then some (process.sendHeartbeat counter outcome) else none
      | none => none
  | .sd action =>
      match process.sd with
      | some sd =>
          if process.main ≠ .exited ∧ action.ofThread then
            (sd.step action).map fun sd => { process with sd := some sd }
          else none
      | none => none
  | .exit => some { process with main := .exited }

/-! ### What has gone out -/

/-- The levels and the counters that `send` was given. -/
def notifyLevels (sends : List SendCall) : List Nat :=
  sends.filterMap fun call =>
    match call.packet.event with
    | .notify level => some level
    | .heartbeat _ => none

def heartbeatCounters (sends : List SendCall) : List Nat :=
  sends.filterMap fun call =>
    match call.packet.event with
    | .notify _ => none
    | .heartbeat counter => some counter

/-- The packets that left as datagrams. -/
def packets (process : MpuProcess) : List MpuPacket :=
  (process.sends.filter fun call => !call.outcome.raised).map SendCall.packet

/-- The bytes that the serial device has taken. -/
def stream (process : MpuProcess) : Bytes :=
  process.sends.flatMap fun call => call.packet.bytes.take call.outcome.taken

/-- The offers that left as datagrams. -/
def offers (process : MpuProcess) : List Bytes :=
  process.sd.toList.flatMap fun sd => sd.sent.map SentTo.packet

end MpuProcess

end SdvZone.Mpu
