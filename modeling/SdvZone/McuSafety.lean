import Mathlib.Data.List.Basic

/-! The safety monitor of the MCU (`MCU/src/safety.cpp`) on a millisecond clock. Each function
returns the static variables it leaves and the driver calls it makes, in order. `Board` is what those
calls act on: the kernel timer `safety_timer`, the hardware watchdog and the uptime. -/

namespace SdvZone.Mcu

def heartbeatTimeoutMs : Nat := 100
def wdtTimeoutMs : Nat := 150

/-- The static variables; of the two pointers it matters only whether they are null. -/
structure Safety where
  safeState : Bool
  safetyCanDev : Bool
  safetyLed : Bool
  deriving DecidableEq, Repr

inductive DriverCall where
  | wdtSetup (timeoutMs : Nat)
  | wdtFeed
  | timerStart (durationMs periodMs : Nat)
  | canSendWarning
  | gpioPinToggle
  deriving DecidableEq, Repr

namespace Safety

/-- The values the variables are declared with. -/
def static : Safety := { safeState := false, safetyCanDev := false, safetyLed := false }

/-- The warning frame and the LED, each if its device was given to `safety_init`. -/
def warn (safety : Safety) : List DriverCall :=
  (if safety.safetyCanDev then [.canSendWarning] else []) ++
    (if safety.safetyLed then [.gpioPinToggle] else [])

def enterSafeState (safety : Safety) : Safety × List DriverCall :=
  if safety.safeState then (safety, []) else ({ safety with safeState := true }, safety.warn)

def safetyTimeout (wdtReady : Bool) (safety : Safety) : Safety × List DriverCall :=
  if !safety.safeState then safety.enterSafeState
  else (safety, safety.warn ++ (if wdtReady then [.wdtFeed] else []))

def safetyInit (wdtReady canDev led : Bool) (safety : Safety) : Safety × List DriverCall :=
  ({ safety with safetyCanDev := canDev, safetyLed := led },
    (if wdtReady then [.wdtSetup wdtTimeoutMs] else []) ++
      [.timerStart heartbeatTimeoutMs heartbeatTimeoutMs])

def safetyKickWatchdog (wdtReady : Bool) (safety : Safety) : Safety × List DriverCall :=
  (if safety.safeState then { safety with safeState := false } else safety,
    (if wdtReady then [.wdtFeed] else []) ++ [.timerStart heartbeatTimeoutMs heartbeatTimeoutMs])

def safetyIsSafeState (safety : Safety) : Bool := safety.safeState

end Safety

/-! ### The board -/

structure KTimer where
  expiry : Nat
  period : Nat
  deriving DecidableEq, Repr

structure Watchdog where
  timeout : Nat
  lastFeed : Nat
  deriving DecidableEq, Repr

structure Board where
  uptime : Nat
  wdtReady : Bool
  timer : Option KTimer
  wdt : Option Watchdog
  safety : Safety
  calls : List (Nat × DriverCall)
  deriving DecidableEq, Repr

/-- Time passes by a millisecond, or `safety_kick_watchdog` is called. -/
inductive SafetyEvent where
  | tick
  | kick
  deriving DecidableEq, Repr

namespace Board

/-- The effect of a driver call, and its entry in the record of calls. -/
def call (board : Board) (driverCall : DriverCall) : Board :=
  let board := { board with calls := board.calls ++ [(board.uptime, driverCall)] }
  match driverCall with
  | .wdtSetup timeoutMs => { board with wdt := some ⟨timeoutMs, board.uptime⟩ }
  | .wdtFeed => { board with wdt := board.wdt.map fun wdt => { wdt with lastFeed := board.uptime } }
  | .timerStart durationMs periodMs =>
      { board with timer := some ⟨board.uptime + durationMs, periodMs⟩ }
  | .canSendWarning => board
  | .gpioPinToggle => board

/-- Run one function of the monitor on the board. -/
def perform (board : Board) (function : Safety → Safety × List DriverCall) : Board :=
  (function board.safety).2.foldl call { board with safety := (function board.safety).1 }

def boot (wdtReady canDev led : Bool) : Board :=
  perform { uptime := 0, wdtReady := wdtReady, timer := none, wdt := none, safety := .static, calls := [] }
    (Safety.safetyInit wdtReady canDev led)

def kick (board : Board) : Board := board.perform (Safety.safetyKickWatchdog board.wdtReady)

/-- One millisecond: a timer that expires is due again one period later and runs its callback. -/
def tick (board : Board) : Board :=
  let board := { board with uptime := board.uptime + 1 }
  match board.timer with
  | none => board
  | some timer =>
      if timer.expiry = board.uptime then
        { board with timer := some { timer with expiry := timer.expiry + timer.period } }.perform
          (Safety.safetyTimeout board.wdtReady)
      else board

def step (board : Board) : SafetyEvent → Board
  | .tick => board.tick
  | .kick => board.kick

def run (board : Board) (events : List SafetyEvent) : Board := events.foldl step board

/-- The time since the watchdog was last fed or set up. -/
def feedAge (board : Board) : Nat :=
  match board.wdt with
  | none => 0
  | some wdt => board.uptime - wdt.lastFeed

end Board

end SdvZone.Mcu
