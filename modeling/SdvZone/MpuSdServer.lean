import SdvZone.MachineRun
import SdvZone.MpuDiscovery

/-! A process that advertises a service (`SdServer` in `mpu/someip/sd.py`). Its owner calls `start` and
`stop`; `offer_once` is called by the thread of `start` and by anyone else, one call at a time. Every
`sendto` may raise `OSError`. -/

namespace SdvZone.Mpu

open Wire Machine

/-- Where the loop of `_run` stands: in front of `_stop.is_set`, in front of `offer_once`, in
`_stop.wait`, behind the loop. -/
inductive LoopPhase where
  | check
  | offer
  | wait
  | finished
  deriving DecidableEq, Repr

/-- What a call of `offer_once` handed to `sendto`, and whether that raised `OSError`. -/
structure OfferCall where
  sent : SentTo
  raised : Bool
  deriving DecidableEq, Repr

structure SdProcess where
  server : SdServer
  stopEvent : Bool
  thread : Option LoopPhase
  -- the owner waits in `_thread.join`
  joining : Bool
  calls : List OfferCall
  deriving DecidableEq, Repr

inductive SdAction where
  | offerOnce (raised : Bool)
  | start
  | stop
  | joined
  | loopCheck
  | loopOffer (raised : Bool)
  | loopWake
  deriving DecidableEq, Repr

namespace SdAction

/-- What becomes of the `sendto` of a step that calls `offer_once`. -/
def outcome : SdAction → Option Bool
  | offerOnce raised => some raised
  | loopOffer raised => some raised
  | start | stop | joined | loopCheck | loopWake => none

/-- The actions of the thread that `start` creates. -/
def ofThread : SdAction → Bool
  | loopCheck | loopOffer _ | loopWake => true
  | offerOnce _ | start | stop | joined => false

end SdAction

/-- Whether `sendto` raised, call by call. -/
def sendOutcomes (actions : List SdAction) : List Bool := actions.filterMap SdAction.outcome

namespace SdProcess

def boot (server : SdServer) : SdProcess :=
  { server := server
    stopEvent := false
    thread := none
    joining := false
    calls := [] }

/-- `offer_once` with the exception it raises. An exception of the builder leaves the session alone;
`_first` is cleared before. -/
def callOfferOnce (process : SdProcess) (raised : Bool) : SdProcess × Option PyError :=
  match process.server.offerOnce with
  | .ok (sent, server) =>
      ({ process with server := server, calls := process.calls ++ [⟨sent, raised⟩] },
        if raised then some .osError else none)
  | .error error => ({ process with server := { process.server with first := false } }, some error)

/-- `_thread is not None and _thread.is_alive()`. -/
def alive (process : SdProcess) : Bool :=
  match process.thread with
  | none => false
  | some phase => phase != .finished

def start (process : SdProcess) : SdProcess :=
  if process.alive then process
  else { process with stopEvent := false, thread := some .check }

/-- Up to `join`, which returns when the thread has finished. -/
def stop (process : SdProcess) : SdProcess :=
  match process.thread with
  | none => process
  | some .finished => { process with stopEvent := true, thread := none }
  | some _ => { process with stopEvent := true, joining := true }

/-- The loop swallows an `OSError` and comes back in the next period. -/
def loopOffer (process : SdProcess) (raised : Bool) : SdProcess :=
  match process.callOfferOnce raised with
  | (process, none) | (process, some .osError) => { process with thread := some .wait }
  | (process, some _) => { process with thread := some .finished }

def step (process : SdProcess) : SdAction → Option SdProcess
  | .offerOnce raised => some (process.callOfferOnce raised).1
  | .start => if process.joining then none else some process.start
  | .stop => if process.joining then none else some process.stop
  | .joined =>
      if process.joining ∧ process.thread = some .finished then
        some { process with thread := none, joining := false }
      else none
  | .loopCheck =>
      if process.thread = some .check then
        some { process with thread := some (if process.stopEvent then .finished else .offer) }
      else none
  | .loopOffer raised =>
      if process.thread = some .offer then some (process.loopOffer raised) else none
  | .loopWake =>
      if process.thread = some .wait then some { process with thread := some .check } else none

/-- The datagrams that went out. -/
def sent (process : SdProcess) : List SentTo :=
  (process.calls.filter fun call => !call.raised).map OfferCall.sent

end SdProcess

end SdvZone.Mpu
