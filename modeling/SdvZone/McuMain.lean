import SdvZone.McuCanGateway
import SdvZone.McuSomeipUart

/-! The two threads of the MCU (`MCU/src/main.cpp`). Every access to a shared variable is a step of
its own, and so is every call that may block: a run is an interleaving of such steps. -/

namespace SdvZone.Mcu

/-- The shared variables. -/
structure Shared where
  drowsinessLevel : Nat
  mpuHeartbeat : Nat
  deriving DecidableEq, Repr

namespace Shared

def static : Shared := { drowsinessLevel := 0, mpuHeartbeat := 0 }

/-- `k_uptime_get_32` is the uptime modulo `2^32`. -/
def storeHeartbeat (shared : Shared) (uptime : Nat) : Shared :=
  { shared with mpuHeartbeat := uptime % 2 ^ 32 }

def storeLevel (shared : Shared) (event : UartEvent) : Shared :=
  if event.1 = eventNotify then { shared with drowsinessLevel := event.2.toNat } else shared

end Shared

/-- Where `can_thread` stands in its loop. -/
inductive CanPc where
  | get
  | send (level : Nat)
  | clear
  | sleep
  deriving DecidableEq, Repr

/-- Where `someip_thread` stands in its loop. -/
inductive SomeipPc where
  | receive
  | heartbeat (event : UartEvent)
  | level (event : UartEvent)
  | kick
  deriving DecidableEq, Repr

/-- What was done to `drowsiness_level`. -/
inductive LevelAccess where
  | get (level : Nat)
  | store (level : Nat)
  | clear
  deriving DecidableEq, Repr

/-- Both threads, the variables they share, and the record of accesses to `drowsiness_level`. -/
structure Threads where
  can : CanPc
  someip : SomeipPc
  shared : Shared
  gateway : CanGateway
  accesses : List LevelAccess
  kicks : Nat
  deriving DecidableEq, Repr

/-- A step of a thread: `someip_thread` also sees an event accepted and the uptime it reads. -/
inductive ThreadStep where
  | can
  | accept (event : UartEvent)
  | someip (uptime : Nat)
  deriving DecidableEq, Repr

namespace Threads

def start : Threads :=
  { can := .get, someip := .receive, shared := .static, gateway := .static, accesses := [], kicks := 0 }

/-- One step of `can_thread`: the level it read is sent and then cleared, whatever was stored since. -/
def canStep (threads : Threads) : Threads :=
  match threads.can with
  | .get =>
      let level := threads.shared.drowsinessLevel
      { threads with
        can := if 0 < level then .send level else .sleep
        accesses := threads.accesses ++ [.get level] }
  | .send level =>
      { threads with
        can := .clear
        gateway := threads.gateway.canSendDrowsiness (UInt8.ofNat level) }
  | .clear =>
      { threads with
        can := .sleep
        shared := { threads.shared with drowsinessLevel := 0 }
        accesses := threads.accesses ++ [.clear] }
  | .sleep => { threads with can := .get }

/-- One step of `someip_thread` after `someip_receive` has returned 0. -/
def someipStep (threads : Threads) (uptime : Nat) : Option Threads :=
  match threads.someip with
  | .receive => none
  | .heartbeat event =>
      some { threads with
        someip := .level event
        shared := threads.shared.storeHeartbeat uptime }
  | .level event =>
      some { threads with
        someip := .kick
        shared := threads.shared.storeLevel event
        accesses := threads.accesses ++
          (if event.1 = eventNotify then [.store event.2.toNat] else []) }
  | .kick => some { threads with someip := .receive, kicks := threads.kicks + 1 }

def step (threads : Threads) : ThreadStep → Option Threads
  | .can => some threads.canStep
  | .accept event =>
      if threads.someip = .receive then some { threads with someip := .heartbeat event } else none
  | .someip uptime => threads.someipStep uptime

end Threads

end SdvZone.Mcu
