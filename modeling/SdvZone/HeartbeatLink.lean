import Mathlib.Data.List.Infix
import SdvZone.McuMain
import SdvZone.SafetyWatchdog
import SdvZone.UartPackets

/-! The heartbeat path from end to end: packets written by the MPU, the UART line, the receive loop
of `someip_thread`, and the safety monitor it kicks. `Link` is the program on its board; `Schedule`
is what its behaviour comes to, a machine that sees only when packets are written and polls happen.
They move in lockstep. -/

namespace SdvZone.Heartbeat

open Wire Machine Mpu Mcu Uart

/-- The MPU writes a packet, a millisecond passes, or the receive loop wakes and reads the line. -/
inductive LinkEvent where
  | write (packet : MpuPacket)
  | tick
  | poll

/-! ### The program -/

structure Link where
  board : Board
  shared : Shared
  rx : UartRx
  /-- When the `k_sleep` of the receive loop ends. -/
  wake : Nat
  fifo : Bytes
  /-- A heartbeat has been accepted. -/
  heard : Bool

namespace Link

def boot (wdtReady canDev led : Bool) (wake : Nat) : Link :=
  { board := .boot wdtReady canDev led
    shared := .static
    rx := .init
    wake := wake
    fifo := []
    heard := false }

/-- `someip_thread` on an accepted event. -/
def accept (link : Link) (event : UartEvent) : Link :=
  { link with
    board := link.board.kick
    shared := (link.shared.storeHeartbeat link.board.uptime).storeLevel event
    heard := link.heard || event.1 == Mcu.eventHeartbeat }

/-- The receive loop reads what the line holds, handing every accepted event to the thread, and
sleeps for 10 ms. -/
def poll (link : Link) : Link :=
  let now := link.board.uptime
  let (rx, events) := someipUartCalls link.rx [⟨now, link.fifo.map fun byte => (now, byte)⟩]
  events.foldl accept { link with
    rx := rx
    fifo := []
    wake := now + 10 }

/-- The loop polls as soon as its sleep ends; packets are written at any time. -/
def step (link : Link) : LinkEvent → Option Link
  | .write packet => some { link with fifo := link.fifo ++ packet.bytes }
  | .tick => if link.board.uptime < link.wake then some { link with board := link.board.tick } else none
  | .poll => if link.wake ≤ link.board.uptime then some link.poll else none

end Link

/-! ### The schedule -/

structure Schedule where
  now : Nat
  wake : Nat
  /-- The packets written since the last poll. -/
  pending : List MpuPacket
  /-- The last poll that found bytes. -/
  lastRead : Option Nat
  /-- The last poll that found bytes after more than 50 ms without any, or the start. -/
  lastClean : Nat
  heard : Bool

namespace Schedule

def boot (wake : Nat) : Schedule :=
  { now := 0, wake := wake, pending := [], lastRead := none, lastClean := 0, heard := false }

/-- The line has been silent for more than 50 ms, as far as the polls can tell. -/
def Quiet (schedule : Schedule) : Prop := ∀ read ∈ schedule.lastRead, 50 < schedule.now - read

instance (schedule : Schedule) : Decidable schedule.Quiet :=
  inferInstanceAs (Decidable (∀ read ∈ schedule.lastRead, 50 < schedule.now - read))

/-- Of the packets a poll finds, the first is accepted if the line was quiet, and no other is. -/
def poll (schedule : Schedule) : Schedule :=
  match schedule.pending with
  | [] => { schedule with wake := schedule.now + 10 }
  | packet :: _ =>
      { schedule with
        wake := schedule.now + 10
        pending := []
        lastRead := some schedule.now
        lastClean := if schedule.Quiet then schedule.now else schedule.lastClean
        heard := schedule.heard || (schedule.Quiet && packet.event.eventId == Mpu.eventHeartbeat) }

def step (schedule : Schedule) : LinkEvent → Option Schedule
  | .write packet => some { schedule with pending := schedule.pending ++ [packet] }
  | .tick => if schedule.now < schedule.wake then some { schedule with now := schedule.now + 1 } else none
  | .poll => if schedule.wake ≤ schedule.now then some schedule.poll else none

end Schedule

/-! ### Lockstep -/

/-- The receive buffer between polls: empty after a silence, else what a packet leaves over. -/
inductive Waiting (rx : UartRx) (now : Nat) : Option Nat → Prop where
  | fresh (hrx : rx.rxLen = 0) : Waiting rx now none
  | reset (read : Nat) (hrx : rx.rxLen = 0) (hquiet : 50 < now - read) : Waiting rx now (some read)
  | leftover (read : Nat) (hrx : Leftover (received rx)) (hread : rx.lastRxTick = read) :
      Waiting rx now (some read)

structure Lockstep (wdtReady : Bool) (link : Link) (schedule : Schedule) : Prop where
  now : link.board.uptime = schedule.now
  wake : link.wake = schedule.wake
  fifo : link.fifo = packetStream schedule.pending
  heard : link.heard = schedule.heard
  gathering : Gathering link.rx
  waiting : Waiting link.rx schedule.now schedule.lastRead
  clean : schedule.lastClean ≤ schedule.now
  board : OnSchedule wdtReady link.board (schedule.now - schedule.lastClean)

/-- The bytes of one poll, read at one uptime into a buffer that the clock has been checked for. -/
theorem byteInputs_refines (rx : UartRx) (now : Nat) (bytes : Bytes) (h : Gathering rx) :
    Gathering (react lineStep rx (byteInputs (bytes.map fun byte => (now, byte)))).1 ∧
      (scanFrames (received rx) (bytes.map some)).1 =
        received (react lineStep rx (byteInputs (bytes.map fun byte => (now, byte)))).1 ∧
      List.Forall₂ SameEvent (react lineStep rx (byteInputs (bytes.map fun byte => (now, byte)))).2
        (scanFrames (received rx) (bytes.map some)).2 := by
  induction bytes generalizing rx with
  | nil => exact ⟨h, rfl, .nil⟩
  | cons byte rest ih =>
      obtain ⟨hgather, hreceived, hevents⟩ := receiveByte_refines rx now byte h
      obtain ⟨hgathers, hreceiveds, heventss⟩ := ih (rx.receiveByte now byte).1 hgather
      simp only [List.map_cons, byteInputs, react_cons, lineStep, scanFrames, Framer.scan,
        hreceived] at hgathers hreceiveds heventss ⊢
      exact ⟨hgathers, hreceiveds, List.rel_append hevents heventss⟩

/-- What a poll reads, and the buffer it leaves. -/
theorem poll_refines (rx : UartRx) (now : Nat) (bytes : Bytes) (h : Gathering rx) :
    let rounds : List UartRound := [⟨now, bytes.map fun byte => (now, byte)⟩]
    Gathering (someipUartCalls rx rounds).1 ∧
      (scanFrames (received (rx.resync now)) (bytes.map some)).1 =
        received (someipUartCalls rx rounds).1 ∧
      List.Forall₂ SameEvent (someipUartCalls rx rounds).2
        (scanFrames (received (rx.resync now)) (bytes.map some)).2 := by
  intro rounds
  rw [someipUartCalls_eq, show lineInputs rounds =
    .check now :: byteInputs (bytes.map fun byte => (now, byte)) from List.append_nil _, react_cons]
  exact byteInputs_refines (rx.resync now) now bytes (resync_refines rx now h).1

theorem byteInputs_lastRxTick (rx : UartRx) (now : Nat) {bytes : Bytes} (h : bytes ≠ []) :
    (react lineStep rx (byteInputs (bytes.map fun byte => (now, byte)))).1.lastRxTick = now := by
  obtain ⟨front, byte, rfl⟩ := List.eq_nil_or_concat' bytes |>.resolve_left h
  rw [List.map_append, byteInputs, List.map_append, react_append]
  exact receiveByte_lastRxTick _ now byte

/-! ### One poll -/

theorem packetStream_ne_nil (packet : MpuPacket) (rest : List MpuPacket) :
    packetStream (packet :: rest) ≠ [] := by
  apply List.ne_nil_of_length_pos
  rw [packetStream_length, List.length_cons]
  omega

theorem packetStream_append (front back : List MpuPacket) :
    packetStream (front ++ back) = packetStream front ++ packetStream back :=
  List.flatMap_append

/-- After a silence the check of the clock leaves the buffer empty. -/
theorem resync_quiet {rx : UartRx} {schedule : Schedule}
    (h : Waiting rx schedule.now schedule.lastRead) (hquiet : schedule.Quiet) :
    received (rx.resync schedule.now) = [] := by
  unfold Schedule.Quiet at hquiet
  generalize schedule.lastRead = lastRead at h hquiet
  cases h with
  | fresh hrx => rw [resync_of_empty hrx, received, hrx, List.take_zero]
  | reset _ hrx _ => rw [resync_of_empty hrx, received, hrx, List.take_zero]
  | leftover read hrx hread =>
      have hlate := hquiet read rfl
      have hpartly : 0 < rx.rxLen := by
        by_contra hempty
        apply hrx.ne_nil
        rw [received, Nat.eq_zero_of_not_pos hempty, List.take_zero]
      rw [UartRx.resync, hread, if_pos ⟨hpartly, hlate⟩]
      rfl

/-- Without one, what was left over stays. -/
theorem resync_busy {rx : UartRx} {schedule : Schedule}
    (h : Waiting rx schedule.now schedule.lastRead) (hbusy : ¬schedule.Quiet) :
    Leftover (received (rx.resync schedule.now)) := by
  unfold Schedule.Quiet at hbusy
  generalize schedule.lastRead = lastRead at h hbusy
  cases h with
  | fresh _ =>
      apply absurd _ hbusy
      intro read hread
      cases hread
  | reset read _ hquiet =>
      apply absurd _ hbusy
      intro other hother
      cases hother
      exact hquiet
  | leftover read hrx hread =>
      rw [UartRx.resync, hread, if_neg]
      · exact hrx
      · rintro ⟨_, hquiet⟩
        apply hbusy
        intro other hother
        cases hother
        exact hquiet

/-- A quiet line: the first packet found is accepted, and no other. -/
theorem calls_quiet {rx : UartRx} {schedule : Schedule} (hgather : Gathering rx)
    (h : Waiting rx schedule.now schedule.lastRead) (hquiet : schedule.Quiet) (packet : MpuPacket)
    (rest : List MpuPacket) :
    ∃ after event, someipUartCalls rx [⟨schedule.now, (packetStream (packet :: rest)).map fun byte =>
        (schedule.now, byte)⟩] = (after, [event]) ∧ Gathering after ∧ Leftover (received after) ∧
      event.1 = packet.event.eventId := by
  obtain ⟨hafter, hreceived, hevents⟩ :=
    poll_refines rx schedule.now (packetStream (packet :: rest)) hgather
  obtain ⟨next, hnext, hstream⟩ := scanFrames_stream packet rest
  rw [resync_quiet h hquiet, hstream] at hreceived hevents
  generalize someipUartCalls rx [_] = result at hafter hreceived hevents ⊢
  obtain ⟨after, events⟩ := result
  cases hevents with
  | cons hevent hnone =>
      cases hnone
      refine ⟨after, _, rfl, hafter, ?_, hevent.1⟩
      rw [← hreceived]
      exact hnext

/-- A line that was not quiet: every packet found is swallowed. -/
theorem calls_busy {rx : UartRx} {schedule : Schedule} (hgather : Gathering rx)
    (h : Waiting rx schedule.now schedule.lastRead) (hbusy : ¬schedule.Quiet)
    (packets : List MpuPacket) :
    ∃ after, someipUartCalls rx [⟨schedule.now, (packetStream packets).map fun byte =>
        (schedule.now, byte)⟩] = (after, []) ∧ Gathering after ∧ Leftover (received after) := by
  obtain ⟨hafter, hreceived, hevents⟩ := poll_refines rx schedule.now (packetStream packets) hgather
  obtain ⟨next, hnext, hrest⟩ := scanFrames_leftovers (resync_busy h hbusy) packets
  rw [hrest] at hreceived hevents
  generalize someipUartCalls rx [_] = result at hafter hreceived hevents ⊢
  obtain ⟨after, events⟩ := result
  cases hevents
  refine ⟨after, rfl, hafter, ?_⟩
  rw [← hreceived]
  exact hnext

/-! ### One step, and a run -/

variable {wdtReady : Bool} {link : Link} {schedule : Schedule}

theorem boot_lockstep (wdtReady canDev led : Bool) (wake : Nat) :
    Lockstep wdtReady (Link.boot wdtReady canDev led wake) (Schedule.boot wake) where
  now := (foldl_call_frame _ _).2
  wake := rfl
  fifo := rfl
  heard := rfl
  gathering := (by decide : 0 < 40)
  waiting := .fresh rfl
  clean := Nat.le_refl 0
  board := boot_onSchedule wdtReady canDev led

/-- A silence stays one while time passes. -/
theorem waiting_tick {rx : UartRx} {now : Nat} {lastRead : Option Nat} (h : Waiting rx now lastRead) :
    Waiting rx (now + 1) lastRead := by
  cases h with
  | fresh hrx => exact .fresh hrx
  | reset read hrx hquiet => exact .reset read hrx (by omega)
  | leftover read hrx hread => exact .leftover read hrx hread

theorem tick_lockstep (h : Lockstep wdtReady link schedule) :
    Lockstep wdtReady { link with board := link.board.tick }
      { schedule with now := schedule.now + 1 } where
  now := by rw [tick_uptime, h.now]
  wake := h.wake
  fifo := h.fifo
  heard := h.heard
  gathering := h.gathering
  waiting := waiting_tick h.waiting
  clean := Nat.le_succ_of_le h.clean
  board := by
    show OnSchedule wdtReady link.board.tick (schedule.now + 1 - schedule.lastClean)
    rw [Nat.sub_add_comm h.clean]
    exact tick_onSchedule h.board

theorem write_lockstep (h : Lockstep wdtReady link schedule) (packet : MpuPacket) :
    Lockstep wdtReady { link with fifo := link.fifo ++ packet.bytes }
      { schedule with pending := schedule.pending ++ [packet] } where
  now := h.now
  wake := h.wake
  fifo := by
    show link.fifo ++ packet.bytes = packetStream (schedule.pending ++ [packet])
    rw [packetStream_append, h.fifo, packetStream, packetStream, List.flatMap_singleton]
  heard := h.heard
  gathering := h.gathering
  waiting := h.waiting
  clean := h.clean
  board := h.board

/-- A poll that finds nothing at most empties the buffer. -/
theorem waiting_empty {rx : UartRx} {now : Nat} {lastRead : Option Nat} (h : Waiting rx now lastRead) :
    Waiting (rx.resync now) now lastRead := by
  cases h with
  | fresh hrx =>
      rw [resync_of_empty hrx]
      exact .fresh hrx
  | reset read hrx hquiet =>
      rw [resync_of_empty hrx]
      exact .reset read hrx hquiet
  | leftover read hrx hread =>
      rw [UartRx.resync]
      split
      · next hlate => exact .reset read rfl (hread ▸ hlate.2)
      · exact .leftover read hrx hread

theorem poll_lockstep_empty (h : Lockstep wdtReady link schedule) (hpending : schedule.pending = []) :
    Lockstep wdtReady link.poll schedule.poll := by
  have hfifo : link.fifo = [] := by
    rw [h.fifo, hpending]
    rfl
  have hcalls : someipUartCalls link.rx [⟨link.board.uptime, []⟩] =
      (link.rx.resync link.board.uptime, []) := by
    rw [someipUartCalls_eq]
    rfl
  simp only [Link.poll, Schedule.poll, hfifo, hpending, List.map_nil, hcalls, List.foldl_nil]
  have hnow := h.now
  exact {
    now := hnow
    wake := congrArg (· + 10) hnow
    fifo := rfl
    heard := h.heard
    gathering := (resync_refines link.rx _ h.gathering).1
    waiting := by
      rw [hnow]
      exact waiting_empty h.waiting
    clean := h.clean
    board := h.board }

theorem poll_lockstep_found (h : Lockstep wdtReady link schedule) {packet : MpuPacket}
    {rest : List MpuPacket} (hpending : schedule.pending = packet :: rest) :
    Lockstep wdtReady link.poll schedule.poll := by
  have hnow := h.now
  have hread : ∀ after, someipUartCalls link.rx [⟨schedule.now, (packetStream (packet :: rest)).map
      fun byte => (schedule.now, byte)⟩] = after → after.1.lastRxTick = schedule.now := by
    rintro _ rfl
    rw [someipUartCalls_eq]
    show (react lineStep _ (.check _ :: (byteInputs _ ++ []))).1.lastRxTick = schedule.now
    rw [List.append_nil, react_cons]
    exact byteInputs_lastRxTick _ _ (packetStream_ne_nil packet rest)
  simp only [Link.poll, Schedule.poll, h.fifo, hnow, hpending]
  by_cases hquiet : schedule.Quiet
  · obtain ⟨after, event, hcalls, hgather, hleftover, hevent⟩ :=
      calls_quiet h.gathering h.waiting hquiet packet rest
    rw [hcalls]
    simp only [List.foldl_cons, List.foldl_nil, Link.accept, if_pos hquiet, hevent]
    exact {
      now := (kick_uptime _).trans hnow
      wake := rfl
      fifo := rfl
      heard := by simp [hquiet, h.heard]; rfl
      gathering := hgather
      waiting := .leftover _ hleftover (hread _ hcalls)
      clean := Nat.le_refl _
      board := by
        rw [Nat.sub_self]
        exact kick_onSchedule h.board }
  · obtain ⟨after, hcalls, hgather, hleftover⟩ :=
      calls_busy h.gathering h.waiting hquiet (packet :: rest)
    rw [hcalls]
    simp only [List.foldl_nil, if_neg hquiet]
    exact {
      now := hnow
      wake := rfl
      fifo := rfl
      heard := by simp [hquiet, h.heard]
      gathering := hgather
      waiting := .leftover _ hleftover (hread _ hcalls)
      clean := h.clean
      board := h.board }

theorem step_lockstep (h : Lockstep wdtReady link schedule) (event : LinkEvent) :
    Option.Rel (Lockstep wdtReady) (link.step event) (schedule.step event) := by
  cases event with
  | write packet => exact .some (write_lockstep h packet)
  | tick =>
      have hasleep : link.board.uptime < link.wake ↔ schedule.now < schedule.wake := by
        rw [h.now, h.wake]
      simp only [Link.step, Schedule.step, hasleep]
      split
      · exact .some (tick_lockstep h)
      · exact .none
  | poll =>
      have hawake : link.wake ≤ link.board.uptime ↔ schedule.wake ≤ schedule.now := by
        rw [h.now, h.wake]
      simp only [Link.step, Schedule.step, hawake]
      split
      · cases hpending : schedule.pending with
        | nil => exact .some (poll_lockstep_empty h hpending)
        | cons packet rest => exact .some (poll_lockstep_found h hpending)
      · exact .none

/-- The program and its schedule take the same runs. -/
theorem run_lockstep (wdtReady canDev led : Bool) (wake : Nat) (events : List LinkEvent) :
    Option.Rel (Lockstep wdtReady) (exec Link.step (Link.boot wdtReady canDev led wake) events)
      (exec Schedule.step (Schedule.boot wake) events) :=
  exec_lockstep _ (fun _ _ event h => step_lockstep h event) (boot_lockstep wdtReady canDev led wake)
    events

/-! ### The system never enters SAFE -/

theorem safeState_lockstep (h : Lockstep wdtReady link schedule) :
    link.board.safety.safetyIsSafeState = false ↔ schedule.now - schedule.lastClean < 100 := by
  rw [Safety.safetyIsSafeState, h.board.safeState, decide_eq_false_iff_not, Nat.not_le]

/-- From the first accepted heartbeat on, the system stays out of SAFE throughout a run exactly when
a poll finds a packet on a quiet line at least every 100 ms. -/
theorem neverSafe_iff (wdtReady canDev led : Bool) (wake : Nat) (events : List LinkEvent) :
    (∀ front link, front <+: events →
        exec Link.step (Link.boot wdtReady canDev led wake) front = some link → link.heard = true →
        link.board.safety.safetyIsSafeState = false) ↔
      ∀ front schedule, front <+: events →
        exec Schedule.step (Schedule.boot wake) front = some schedule → schedule.heard = true →
          schedule.now - schedule.lastClean < 100 := by
  have hrun := run_lockstep wdtReady canDev led wake
  constructor
  · -- a run of the schedule is a run of the program
    intro hnever front schedule hfront hschedule hheard
    have hrel := hrun front
    rw [hschedule] at hrel
    generalize hlink : exec Link.step (Link.boot wdtReady canDev led wake) front = reached at hrel
    cases hrel with
    | some h =>
        apply (safeState_lockstep h).mp
        exact hnever front _ hfront hlink (h.heard.trans hheard)
  · -- and the other way round
    intro hclean front link hfront hlink hheard
    have hrel := hrun front
    rw [hlink] at hrel
    generalize hschedule : exec Schedule.step (Schedule.boot wake) front = reached at hrel
    cases hrel with
    | some h =>
        apply (safeState_lockstep h).mpr
        exact hclean front _ hfront hschedule (h.heard.symm.trans hheard)

/-- The time since the last heartbeat was written. -/
def sinceHeartbeat (events : List LinkEvent) : Nat :=
  events.foldl (fun elapsed event =>
    match event with
    | .write packet => if packet.event.eventId = Mpu.eventHeartbeat then 0 else elapsed
    | .tick => elapsed + 1
    | .poll => elapsed) 0

/-- A heartbeat at 0 ms and one at 50 ms, with the polls of the first 100 ms. -/
def steadyHeartbeats : List LinkEvent :=
  let round : List LinkEvent := .poll :: List.replicate 10 .tick
  let rounds := (List.replicate 5 round).flatten
  .write (packetOf (.heartbeat 0) defaultSession) :: rounds ++
    .write (packetOf (.heartbeat 1) defaultSession) :: rounds

/-- The second heartbeat is swallowed by the padding of the first, and the timer enters SAFE. -/
theorem steadyHeartbeats_safe :
    (∀ front, front <+: steadyHeartbeats → sinceHeartbeat front ≤ 55) ∧
      ∃ link, exec Link.step (Link.boot true true true 0) steadyHeartbeats = some link ∧
        link.heard = true ∧ link.board.safety.safetyIsSafeState = true := by
  constructor
  · have hinits : ∀ front ∈ steadyHeartbeats.inits, sinceHeartbeat front ≤ 55 := by decide +kernel
    intro front hfront
    apply hinits
    exact (List.mem_inits front _).mpr hfront
  · have hschedule : (exec Schedule.step (Schedule.boot 0) steadyHeartbeats).map
        (fun schedule => (schedule.now, schedule.lastClean, schedule.heard)) = some (100, 0, true) := by
      decide +kernel
    have hrel := run_lockstep true true true 0 steadyHeartbeats
    generalize exec Link.step (Link.boot true true true 0) steadyHeartbeats = reached at hrel ⊢
    generalize exec Schedule.step (Schedule.boot 0) steadyHeartbeats = target at hrel hschedule
    cases hrel with
    | none => cases hschedule
    | some h =>
        simp only [Option.map_some, Option.some.injEq, Prod.mk.injEq] at hschedule
        obtain ⟨hnow, hclean, hheard⟩ := hschedule
        refine ⟨_, rfl, h.heard.trans hheard, ?_⟩
        rw [← Bool.not_eq_false, safeState_lockstep h, hnow, hclean]
        decide

end SdvZone.Heartbeat
