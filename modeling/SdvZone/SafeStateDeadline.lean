import SdvZone.FindPacing
import SdvZone.SafetyTiming

/-! How long the MCU stays in NORMAL. `safety_kick_watchdog` is three steps, between which the timer
may expire: the second restarts the timer, the third leaves SAFE. Each of these two buys 100 ms and no
more, and the warning is sent exactly when the timer has once not been restarted for 100 ms. -/

namespace SdvZone.Mcu

open Machine Wire

/-! ### The timer -/

/-- Calls that do not start the timer leave it alone. -/
theorem foldl_call_timer {calls : List DriverCall}
    (h : ∀ call ∈ calls, ∀ durationMs periodMs, call ≠ .timerStart durationMs periodMs) (board : Board) :
    (calls.foldl Board.call board).timer = board.timer := by
  induction calls generalizing board with
  | nil => rfl
  | cons call rest ih =>
      have hcall : (board.call call).timer = board.timer := by
        cases call with
        | timerStart durationMs periodMs => exact absurd rfl (h _ List.mem_cons_self durationMs periodMs)
        | wdtSetup | wdtFeed | canSendWarning | gpioPinToggle => rfl
      rw [List.foldl_cons, ih fun later hlater => h later (List.mem_cons_of_mem _ hlater), hcall]

theorem safetyTimeout_calls (wdtReady : Bool) (safety : Safety) :
    ∀ call ∈ (safety.safetyTimeout wdtReady).2, ∀ durationMs periodMs,
      call ≠ .timerStart durationMs periodMs := by
  unfold Safety.safetyTimeout Safety.enterSafeState Safety.warn
  cases safety.safeState <;> cases safety.safetyCanDev <;> cases safety.safetyLed <;> cases wdtReady <;> simp

theorem safetyTimeout_safeState (wdtReady : Bool) (safety : Safety) :
    (safety.safetyTimeout wdtReady).1.safeState = true := by
  unfold Safety.safetyTimeout Safety.enterSafeState
  cases hsafe : safety.safeState with
  | false => simp
  | true => simp [hsafe]

/-- The timer runs with a period of 100 ms and is next due at this time. -/
structure Board.Armed (board : Board) (expiry : ℕ) : Prop where
  timer : board.timer = some ⟨expiry, 100⟩
  later : board.uptime < expiry
  soon : expiry ≤ board.uptime + 100

theorem Board.Armed.tick_early {board : Board} {expiry : ℕ} (h : board.Armed expiry)
    (hearly : expiry ≠ board.uptime + 1) :
    board.tick = { board with uptime := board.uptime + 1 } ∧ board.tick.Armed expiry := by
  have htick : board.tick = { board with uptime := board.uptime + 1 } := by
    simp only [Board.tick, h.timer, if_neg hearly]
  have hlater := h.later
  have hsoon := h.soon
  refine ⟨htick, ?_⟩
  rw [htick]
  refine ⟨h.timer, ?_, ?_⟩
  · show board.uptime + 1 < expiry
    omega
  · show expiry ≤ board.uptime + 1 + 100
    omega

/-- When the timer was started last. -/
def Board.lastStart (board : Board) : ℕ :=
  ((board.calls.filter fun entry => entry.2 = .timerStart heartbeatTimeoutMs heartbeatTimeoutMs).getLast?.map
    Prod.fst).getD 0

theorem lastStart_of_calls {board next : Board} {made : List DriverCall} {now : ℕ}
    (hcalls : next.calls = board.calls ++ made.map (Prod.mk now))
    (hmade : ∀ call ∈ made, ∀ durationMs periodMs, call ≠ .timerStart durationMs periodMs) :
    next.lastStart = board.lastStart := by
  have hnone : (made.map (Prod.mk now)).filter
      (fun entry => decide (entry.2 = .timerStart heartbeatTimeoutMs heartbeatTimeoutMs)) = [] := by
    rw [List.filter_eq_nil_iff]
    intro entry hentry
    obtain ⟨call, hcall, rfl⟩ := List.mem_map.mp hentry
    exact fun hstart => hmade call hcall _ _ (of_decide_eq_true hstart)
  rw [Board.lastStart, hcalls, List.filter_append, hnone, List.append_nil, Board.lastStart]

/-- At an expiry the callback runs, and the timer is due again a period later. -/
theorem Board.Armed.tick_due {board : Board} {expiry : ℕ} (h : board.Armed expiry)
    (hdue : expiry = board.uptime + 1) :
    board.tick.safety = (board.safety.safetyTimeout board.wdtReady).1 ∧
      board.tick.calls = board.calls ++
        (board.safety.safetyTimeout board.wdtReady).2.map (Prod.mk (board.uptime + 1)) ∧
      board.tick.Armed (expiry + 100) := by
  have htick : board.tick = Board.perform
      { board with uptime := board.uptime + 1, timer := some ⟨expiry + 100, 100⟩ }
      (Safety.safetyTimeout board.wdtReady) := by
    simp only [Board.tick, h.timer, if_pos hdue]
  have huptime := tick_uptime board
  refine ⟨?_, ?_, ?_, ?_, ?_⟩
  · rw [htick, perform_safety]
  · rw [htick, perform_calls]
  · rw [htick]
    exact foldl_call_timer (safetyTimeout_calls _ _) _
  · rw [huptime]
    omega
  · rw [huptime]
    omega

namespace Firmware

/-- The next step of `safety_kick_watchdog` restarts the timer, or finds SAFE and leaves it. -/
def HoldsOff (firmware : Firmware) : Prop :=
  firmware.kicking = .timerStart ∨ (firmware.kicking = .recover ∧ firmware.board.safety.safeState = true)

instance (firmware : Firmware) : Decidable firmware.HoldsOff := inferInstanceAs (Decidable (_ ∨ _))

/-- The steps of `safety_kick_watchdog` that hold off SAFE, with their times and what they are made
for. -/
def kickActivity (firmware : Firmware) : FirmwareStep → List (Nat × Option Reception)
  | .dispatch =>
      if firmware.threads.someip = .kick ∧ firmware.HoldsOff then
        [(firmware.board.uptime, firmware.dispatching)]
      else []
  | _ => []

/-- What is recorded is the next step of `safety_kick_watchdog`, for the message handled. -/
theorem mem_kickActivity {firmware : Firmware} {input : FirmwareStep} {entry : ℕ × Option Reception}
    (h : entry ∈ firmware.kickActivity input) :
    input = .dispatch ∧ firmware.threads.someip = .kick ∧
      entry = (firmware.board.uptime, firmware.dispatching) := by
  unfold kickActivity at h
  split at h
  next =>
    split at h
    next hkick => exact ⟨rfl, hkick.1, List.mem_singleton.mp h⟩
    next => cases h
  next => cases h

/-- The frames that `can_send_warning` has handed to `can_send`. -/
def warnings (firmware : Firmware) : List Transmission :=
  firmware.transmissions.filter fun transmission => transmission.sender = .canSendWarning

/-- What a step does to the monitor. -/
inductive Monitors (firmware : Firmware) (input : FirmwareStep) (next : Firmware) : Prop where
  | tick (hactivity : firmware.kickActivity input = []) (hnext : next = firmware.tick)
  | other (hactivity : firmware.kickActivity input = []) (hboard : next.board = firmware.board)
      (hwarnings : next.warnings = firmware.warnings)
  | feed (hactivity : firmware.kickActivity input = []) (hboard : next.board = kickFeed firmware.board)
      (hwarnings : next.warnings = firmware.warnings)
  | timer (hactivity : firmware.kickActivity input = [(firmware.board.uptime, firmware.dispatching)])
      (hboard : next.board = kickTimer firmware.board) (hwarnings : next.warnings = firmware.warnings)
  | recover (hactivity : firmware.kickActivity input = [(firmware.board.uptime, firmware.dispatching)])
      (hsafe : firmware.board.safety.safeState = true)
      (hboard : next.board = kickRecover firmware.board) (hwarnings : next.warnings = firmware.warnings)

theorem canStep_warnings (firmware : Firmware) : firmware.canStep.warnings = firmware.warnings := by
  rw [canStep, warnings]
  split
  · rw [canSend, List.filter_append, warnings]
    exact List.append_nil _
  · rfl

/-- Only a millisecond brings warnings. -/
theorem effect_warnings {firmware next : Firmware} {input : FirmwareStep}
    (h : Effect firmware input next) (htime : next.board.uptime = firmware.board.uptime) :
    next.warnings = firmware.warnings := by
  cases h with
  | tick =>
      obtain ⟨gateway, warnings, htick, -⟩ := firmware.tick_eq
      rw [htick] at htime
      have huptime := tick_uptime firmware.board
      have hsame : firmware.board.tick.uptime = firmware.board.uptime := htime
      omega
  | can => exact canStep_warnings firmware
  | wait | accept | advance | kick | timer | recover => rfl

theorem kickFeed_frame (board : Board) : (kickFeed board).uptime = board.uptime ∧
    (kickFeed board).timer = board.timer ∧ (kickFeed board).safety = board.safety := by
  rw [kickFeed]
  split <;> exact ⟨rfl, rfl, rfl⟩

/-- In NORMAL the third step finds nothing to do. -/
theorem kickRecover_normal {board : Board} (h : board.safety.safeState = false) :
    kickRecover board = board := by
  rw [kickRecover, h]
  rfl

theorem step_monitors {firmware next : Firmware} {input : FirmwareStep}
    (h : firmware.step input = some next) : Monitors firmware input next := by
  have heffect := step_effect h
  have hother : firmware.kickActivity input = [] → next.board = firmware.board →
      Monitors firmware input next := fun hactivity hboard =>
    .other hactivity hboard (effect_warnings heffect (congrArg Board.uptime hboard))
  cases input with
  | tick => exact .tick rfl (Option.some.inj h).symm
  | can =>
      cases h
      exact hother rfl rfl
  | findService memory sendto =>
      obtain ⟨-, hnext⟩ := Option.ite_none_right_eq_some.mp h
      refine hother rfl ?_
      rcases findService_cases memory sendto firmware with ⟨-, hfind⟩ | ⟨-, hfind⟩
      all_goals
        rw [hfind] at hnext
        cases hnext
        rfl
  | lastFind =>
      obtain ⟨-, hnext⟩ := Option.ite_none_right_eq_some.mp h
      cases hnext
      exact hother rfl rfl
  | receiveUdp memory sendto datagram =>
      rw [step] at h
      split at h
      next udp htransport =>
        obtain ⟨-, hnext⟩ := Option.ite_none_right_eq_some.mp h
        cases hnext
        exact hother rfl (receiveUdp_frame memory sendto datagram firmware udp).2.2
      next => cases h
  | resyncUart =>
      rw [step] at h
      split at h
      next rx htransport =>
        obtain ⟨-, hnext⟩ := Option.ite_none_right_eq_some.mp h
        cases hnext
        exact hother rfl rfl
      next => cases h
  | pollUart byte =>
      rw [step] at h
      split at h
      next rx htransport =>
        obtain ⟨⟨-, hloop⟩, hnext⟩ := Option.ite_none_right_eq_some.mp h
        cases hnext
        exact hother rfl (pollUart_frame byte firmware rx hloop).2.2
      next => cases h
  | dispatch =>
      have hwarnings := effect_warnings heffect (dispatch_uptime h).2.2
      rw [step, dispatch.eq_def] at h
      split at h
      next hpc hkicking =>
        cases h
        exact .feed (if_neg fun hboth => by simp [HoldsOff, hkicking] at hboth) rfl rfl
      next hpc hkicking =>
        cases h
        exact .timer (if_pos ⟨hpc, .inl hkicking⟩) rfl rfl
      next hpc hkicking =>
        obtain ⟨threads, -, rfl⟩ := Option.map_eq_some_iff.mp h
        cases hsafe : firmware.board.safety.safeState with
        | true => exact .recover (if_pos ⟨hpc, .inr ⟨hkicking, hsafe⟩⟩) hsafe rfl hwarnings
        | false =>
            refine .other (if_neg fun hboth => ?_) (kickRecover_normal hsafe) hwarnings
            simp [HoldsOff, hkicking, hsafe] at hboth
      next hfeed htimer hrecover =>
        obtain ⟨threads, -, rfl⟩ := Option.map_eq_some_iff.mp h
        refine .other (if_neg fun hboth => ?_) rfl hwarnings
        rcases hboth.2 with hkicking | ⟨hkicking, -⟩
        · exact htimer hboth.1 hkicking
        · exact hrecover hboth.1 hkicking

theorem Monitors.uptime_le {firmware next : Firmware} {input : FirmwareStep}
    (h : Monitors firmware input next) : firmware.board.uptime ≤ next.board.uptime := by
  cases h with
  | tick _ hnext =>
      obtain ⟨gateway, warnings, htick, -⟩ := firmware.tick_eq
      rw [hnext, htick]
      show _ ≤ firmware.board.tick.uptime
      rw [tick_uptime]
      exact Nat.le_succ _
  | other _ hboard _ => rw [hboard]
  | feed _ hboard _ => rw [hboard, (kickFeed_frame _).1]
  | timer _ hboard _ => rw [hboard]; exact le_rfl
  | recover _ _ hboard _ => rw [hboard]; exact le_rfl

/-! ### The deadline -/

/-- When the monitor is in NORMAL, the next expiry is at most 100 ms after one of the times, or after
the start. -/
structure Deadline (times : List ℕ) (board : Board) : Prop where
  armed : ∃ expiry, board.Armed expiry ∧
    (board.safety.safeState = false → expiry ≤ 100 ∨ ∃ time ∈ times, expiry ≤ time + 100)

theorem boot_armed (wdtReady canDev led : Bool) : (Board.boot wdtReady canDev led).Armed 100 := by
  have hschedule := boot_onSchedule wdtReady canDev led
  have huptime : (Board.boot wdtReady canDev led).uptime = 0 := (foldl_call_frame _ _).2
  refine ⟨?_, ?_, ?_⟩
  · rw [hschedule.timer, huptime]
  · rw [huptime]
    decide
  · rw [huptime]

theorem kickTimer_armed (board : Board) : (kickTimer board).Armed (board.uptime + 100) :=
  ⟨rfl, show board.uptime < board.uptime + 100 by omega, le_rfl⟩

theorem Deadline.step {firmware next : Firmware} {input : FirmwareStep} {times : List ℕ}
    (h : Deadline times firmware.board) (hstep : Monitors firmware input next) :
    Deadline (times ++ (firmware.kickActivity input).map Prod.fst) next.board := by
  obtain ⟨expiry, harmed, hnormal⟩ := h.armed
  have hkept : firmware.kickActivity input = [] →
      times ++ (firmware.kickActivity input).map Prod.fst = times := by
    intro hnone
    rw [hnone, List.map_nil, List.append_nil]
  cases hstep with
  | tick hactivity hnext =>
      obtain ⟨gateway, warnings, htick, -⟩ := firmware.tick_eq
      rw [hkept hactivity, hnext, htick]
      by_cases hdue : expiry = firmware.board.uptime + 1
      · obtain ⟨hsafety, -, hnextArmed⟩ := harmed.tick_due hdue
        refine ⟨expiry + 100, hnextArmed, fun hstays => ?_⟩
        rw [hsafety, safetyTimeout_safeState] at hstays
        cases hstays
      · obtain ⟨hboard, hsameArmed⟩ := harmed.tick_early hdue
        refine ⟨expiry, hsameArmed, fun hstays => hnormal ?_⟩
        rw [hboard] at hstays
        exact hstays
  | other hactivity hboard _ =>
      rw [hkept hactivity, hboard]
      exact h
  | feed hactivity hboard _ =>
      obtain ⟨huptime, htimer, hsafety⟩ := kickFeed_frame firmware.board
      rw [hkept hactivity, hboard]
      refine ⟨expiry, ⟨htimer.trans harmed.timer, ?_, ?_⟩, ?_⟩
      · rw [huptime]
        exact harmed.later
      · rw [huptime]
        exact harmed.soon
      · rw [hsafety]
        exact hnormal
  | timer hactivity hboard _ =>
      rw [hactivity, hboard]
      refine ⟨firmware.board.uptime + 100, kickTimer_armed _, fun _ => .inr ⟨firmware.board.uptime, ?_, le_rfl⟩⟩
      exact List.mem_append_right _ List.mem_cons_self
  | recover hactivity _ hboard _ =>
      rw [hactivity, hboard]
      refine ⟨expiry, ⟨harmed.timer, harmed.later, harmed.soon⟩, fun _ =>
        .inr ⟨firmware.board.uptime, ?_, harmed.soon⟩⟩
      exact List.mem_append_right _ List.mem_cons_self

/-- What `safety_kick_watchdog` is called for has a property, whenever it holds off SAFE. -/
theorem run_activity {property : Reception → Prop} {wdtReady : Bool} {transport : Transport}
    {steps : List FirmwareStep} {last : Firmware}
    (hdelivers : Along step (DeliversOnly property) (start wdtReady transport) steps)
    (hrun : exec step (start wdtReady transport) steps = some last) :
    ∀ entry ∈ observe step kickActivity (start wdtReady transport) steps, entry.1 ≤ last.board.uptime ∧
      ∃ reception, entry.2 = some reception ∧ property reception := by
  refine exec_induction (start wdtReady transport) (fun steps last =>
    Along step (DeliversOnly property) (start wdtReady transport) steps →
    ∀ entry ∈ observe step kickActivity (start wdtReady transport) steps, entry.1 ≤ last.board.uptime ∧
      ∃ reception, entry.2 = some reception ∧ property reception) ?_ ?_ steps last hrun hdelivers
  · intro _ entry hentry
    cases hentry
  · intro steps mid input last hmid hbefore hstep halong entry hentry
    have htime := (step_monitors hstep).uptime_le
    rw [observe_snoc kickActivity hmid, List.mem_append] at hentry
    rcases hentry with hearlier | hnow
    · obtain ⟨hpast, hreception⟩ := hbefore halong.front entry hearlier
      exact ⟨hpast.trans htime, hreception⟩
    · have hhandles := run_handles halong.front hmid
      obtain ⟨-, hkick, rfl⟩ := mem_kickActivity hnow
      have hawaits := hhandles.awaits
      rw [hkick] at hawaits
      obtain ⟨reception, hdispatching⟩ := hawaits
      exact ⟨htime, reception, hdispatching, hhandles.handled reception hdispatching⟩

theorem run_deadline {wdtReady : Bool} {transport : Transport} {steps : List FirmwareStep}
    {last : Firmware} (hrun : exec step (start wdtReady transport) steps = some last) :
    Deadline ((observe step kickActivity (start wdtReady transport) steps).map Prod.fst) last.board := by
  refine exec_induction (start wdtReady transport) (fun steps last =>
    Deadline ((observe step kickActivity (start wdtReady transport) steps).map Prod.fst) last.board)
    ?_ ?_ steps last hrun
  · exact ⟨100, boot_armed wdtReady true true, fun _ => .inl le_rfl⟩
  · intro steps mid input last hmid hdeadline hstep
    rw [observe_snoc kickActivity hmid, List.map_append]
    exact hdeadline.step (step_monitors hstep)

/-- In NORMAL, 100 ms after the start or later, `safety_kick_watchdog` has held off SAFE within the
last 100 ms, for a message with the property of all that are completed. -/
theorem normal_activity {property : Reception → Prop} {wdtReady : Bool} {transport : Transport}
    {steps : List FirmwareStep} {last : Firmware}
    (hdelivers : Along step (DeliversOnly property) (start wdtReady transport) steps)
    (hrun : exec step (start wdtReady transport) steps = some last)
    (hnormal : last.board.safety.safetyIsSafeState = false) (hlate : 100 ≤ last.board.uptime) :
    ∃ time reception,
      (time, some reception) ∈ observe step kickActivity (start wdtReady transport) steps ∧
      time ≤ last.board.uptime ∧ last.board.uptime < time + 100 ∧ property reception := by
  obtain ⟨expiry, harmed, hdue⟩ := (run_deadline hrun).armed
  have hlater := harmed.later
  rcases hdue hnormal with hstart | ⟨time, htime, hsoon⟩
  · omega
  · obtain ⟨⟨moment, handled⟩, hentry, rfl⟩ := List.mem_map.mp htime
    obtain ⟨hpast, reception, hreception, hproperty⟩ := run_activity hdelivers hrun _ hentry
    dsimp only at hpast hreception hsoon
    subst hreception
    exact ⟨moment, reception, hentry, hpast, by omega, hproperty⟩

/-- Between the two boards the timer has been restarted, or SAFE has been left. -/
def HeldOff (before after : Board) : Prop :=
  after = before.call (.timerStart heartbeatTimeoutMs heartbeatTimeoutMs) ∨
    (before.safety.safeState = true ∧ after.safety.safeState = false)

theorem Monitors.heldOff {firmware next : Firmware} {input : FirmwareStep}
    (h : Monitors firmware input next) (hactivity : firmware.kickActivity input ≠ []) :
    HeldOff firmware.board next.board := by
  cases h with
  | tick hnone _ | other hnone _ _ | feed hnone _ _ => exact absurd hnone hactivity
  | timer _ hboard _ => exact .inl hboard
  | recover _ hsafe hboard _ =>
      refine .inr ⟨hsafe, ?_⟩
      rw [hboard, kickRecover, hsafe]
      rfl

/-- In NORMAL, 100 ms after the start or later, a step of `safety_kick_watchdog` has restarted the timer
or left SAFE within the last 100 ms, for a message with the property of all that are returned: whatever
falls between its steps. -/
theorem normal_kicked (property : Reception → Prop) (wdtReady : Bool) (transport : Transport)
    (steps : List FirmwareStep) (last : Firmware)
    (hdelivers : Along step (DeliversOnly property) (start wdtReady transport) steps)
    (hrun : exec step (start wdtReady transport) steps = some last)
    (hnormal : last.board.safety.safetyIsSafeState = false) (hlate : 100 ≤ last.board.uptime) :
    ∃ front back mid next reception, steps = front ++ .dispatch :: back ∧
      exec step (start wdtReady transport) front = some mid ∧ mid.step .dispatch = some next ∧
      exec step next back = some last ∧ mid.threads.someip = .kick ∧
      mid.dispatching = some reception ∧ property reception ∧ HeldOff mid.board next.board ∧
      mid.board.uptime ≤ last.board.uptime ∧ last.board.uptime < mid.board.uptime + 100 := by
  obtain ⟨time, reception, hentry, hpast, hrecent, hproperty⟩ :=
    normal_activity hdelivers hrun hnormal hlate
  obtain ⟨front, input, back, mid, next, hsteps, hmid, hnext, hlast, hactive⟩ := mem_observe hrun hentry
  obtain ⟨rfl, hkick, heq⟩ := mem_kickActivity hactive
  obtain ⟨rfl, hdispatching⟩ := Prod.mk.inj heq
  exact ⟨front, back, mid, next, reception, hsteps, hmid, hnext, hlast, hkick, hdispatching.symm, hproperty,
    (step_monitors hnext).heldOff (List.ne_nil_of_mem hactive), hpast, hrecent⟩

/-- A Heartbeat in the middle of the first 140 ms. -/
def heardRun : List FirmwareStep :=
  List.replicate 70 .tick ++ eventRun (eventDatagram 2 7) ++ List.replicate 70 .tick

theorem normal_kicked_heard :
    ∃ last, exec step (start true (.udp .static)) heardRun = some last ∧ last.board.uptime = 140 ∧
      ∃ front back mid next reception, heardRun = front ++ .dispatch :: back ∧
        exec step (start true (.udp .static)) front = some mid ∧ mid.step .dispatch = some next ∧
        exec step next back = some last ∧ mid.threads.someip = .kick ∧
        mid.dispatching = some reception ∧ Uart.Notification reception.message ∧
        HeldOff mid.board next.board ∧
        mid.board.uptime ≤ last.board.uptime ∧ last.board.uptime < mid.board.uptime + 100 := by
  have hreached : (exec step (start true (.udp .static)) heardRun).map (fun last =>
      (last.board.safety.safetyIsSafeState, last.board.uptime)) = some (false, 140) := by
    decide +kernel
  obtain ⟨last, hrun, hlast⟩ := Option.map_eq_some_iff.mp hreached
  obtain ⟨hnormal, huptime⟩ := Prod.mk.inj hlast
  refine ⟨last, hrun, huptime, normal_kicked (fun reception => Uart.Notification reception.message) true
    (.udp .static) heardRun last ?_ hrun hnormal (by omega)⟩
  intro front input mid _ _ reception hdelivers
  exact hdelivers.notification.1

/-! ### The warning -/

theorem kickFeed_lastStart (board : Board) : (kickFeed board).lastStart = board.lastStart := by
  rw [kickFeed]
  split
  · apply @lastStart_of_calls board _ [.wdtFeed] board.uptime rfl
    intro call hcall durationMs periodMs
    rw [List.mem_singleton.mp hcall]
    exact DriverCall.noConfusion
  · rfl

theorem kickTimer_lastStart (board : Board) : (kickTimer board).lastStart = board.uptime := by
  rw [kickTimer, Board.lastStart]
  show ((List.filter _ (board.calls ++ [_])).getLast?.map Prod.fst).getD 0 = _
  rw [List.filter_append, List.filter_cons_of_pos (by simp), List.filter_nil, List.getLast?_concat]
  rfl

/-- 100 ms have passed since the timer was started last. -/
def Overdue (firmware : Firmware) : Prop := firmware.board.lastStart + 100 ≤ firmware.board.uptime

instance (firmware : Firmware) : Decidable firmware.Overdue := inferInstanceAs (Decidable (_ ≤ _))

/-- The callback sends a warning whenever it runs. -/
theorem foldl_driverCall_warned {calls : List (ℕ × DriverCall)} (firmware : Firmware)
    (h : .canSendWarning ∈ calls.map Prod.snd) :
    (calls.foldl (fun firmware call => firmware.driverCall call.2) firmware).warnings ≠ [] := by
  have hgrows : ∀ (calls : List (ℕ × DriverCall)) (firmware : Firmware), firmware.warnings ≠ [] →
      (calls.foldl (fun firmware call => firmware.driverCall call.2) firmware).warnings ≠ [] := by
    intro calls
    induction calls with
    | nil => exact fun _ hwarned => hwarned
    | cons call rest ih =>
        intro firmware hwarned
        rw [List.foldl_cons]
        apply ih
        cases call.2 with
        | canSendWarning =>
            rw [driverCall, warnings, canSend, List.filter_append]
            exact List.append_ne_nil_of_left_ne_nil hwarned _
        | wdtSetup | wdtFeed | timerStart | gpioPinToggle => exact hwarned
  obtain ⟨front, back, hcalls⟩ := List.append_of_mem h
  obtain ⟨before, later, rfl, hbefore, hlater⟩ := List.map_eq_append_iff.mp hcalls
  obtain ⟨call, rest, rfl, hcall, -⟩ := List.map_eq_cons_iff.mp hlater
  rw [List.foldl_append, List.foldl_cons, hcall]
  apply hgrows
  rw [driverCall, warnings, canSend, List.filter_append]
  exact List.append_ne_nil_of_right_ne_nil _ (List.cons_ne_nil _ _)

/-- The timer is due 100 ms after its start, or later, behind a warning; there has been a warning when
the start was once 100 ms ago. -/
structure Watched (steps : List FirmwareStep) (firstState last : Firmware) : Prop where
  canDev : last.board.safety.safetyCanDev = true
  safe : last.board.safety.safeState = true → last.warnings ≠ []
  due : ∃ expiry, last.board.Armed expiry ∧ last.board.lastStart + 100 ≤ expiry ∧
    (last.board.lastStart + 100 < expiry → last.warnings ≠ [])
  warned : last.warnings ≠ [] ↔ Once step Overdue firstState steps

/-- A state in which the timer is due later than 100 ms after its start has seen a warning. -/
theorem overdue_warned {firmware : Firmware}
    (h : ∃ expiry, firmware.board.Armed expiry ∧ firmware.board.lastStart + 100 ≤ expiry ∧
      (firmware.board.lastStart + 100 < expiry → firmware.warnings ≠ [])) (hoverdue : firmware.Overdue) :
    firmware.warnings ≠ [] := by
  obtain ⟨expiry, harmed, -, hwarned⟩ := h
  exact hwarned (Nat.lt_of_le_of_lt hoverdue harmed.later)

/-- A step that brings no warning keeps the account of the warnings. -/
theorem Watched.unwarned {steps : List FirmwareStep} {input : FirmwareStep} {firstState mid last : Firmware}
    (h : Watched steps firstState mid) (hrun : exec step firstState (steps ++ [input]) = some last)
    (hwarnings : last.warnings = mid.warnings) (hcanDev : last.board.safety.safetyCanDev = true)
    (hsafe : last.board.safety.safeState = true → mid.board.safety.safeState = true)
    (hdue : ∃ expiry, last.board.Armed expiry ∧ last.board.lastStart + 100 ≤ expiry ∧
      (last.board.lastStart + 100 < expiry → last.warnings ≠ [])) :
    Watched (steps ++ [input]) firstState last := by
  refine ⟨hcanDev, fun hnow => ?_, hdue, ?_⟩
  · rw [hwarnings]
    exact h.safe (hsafe hnow)
  · rw [once_snoc hrun, ← h.warned, ← hwarnings]
    exact (or_iff_left_of_imp (overdue_warned hdue)).symm

theorem Watched.tick {steps : List FirmwareStep} {input : FirmwareStep} {firstState mid : Firmware}
    (h : Watched steps firstState mid) (hrun : exec step firstState (steps ++ [input]) = some mid.tick) :
    Watched (steps ++ [input]) firstState mid.tick := by
  obtain ⟨expiry, harmed, hstart, hlate⟩ := h.due
  obtain ⟨gateway, sent, htick, -⟩ := mid.tick_eq
  have hboard : mid.tick.board = mid.board.tick := by rw [htick]
  by_cases hdue : expiry = mid.board.uptime + 1
  · obtain ⟨hsafety, hcalls, hnextArmed⟩ := harmed.tick_due hdue
    have hwarned : mid.tick.warnings ≠ [] := by
      have hmade : mid.board.tick.calls.drop mid.board.calls.length =
          (mid.board.safety.safetyTimeout mid.board.wdtReady).2.map (Prod.mk (mid.board.uptime + 1)) := by
        rw [hcalls, List.drop_left]
      apply foldl_driverCall_warned { mid with board := mid.board.tick }
      rw [hmade, List.map_map]
      have hcount := (count_safetyTimeout mid.board.wdtReady h.canDev).1
      have hmem : DriverCall.canSendWarning ∈ (mid.board.safety.safetyTimeout mid.board.wdtReady).2 :=
        List.count_pos_iff.mp (by omega)
      exact List.mem_map.mpr ⟨_, hmem, rfl⟩
    have hsame : mid.board.tick.lastStart = mid.board.lastStart :=
      lastStart_of_calls hcalls (safetyTimeout_calls _ _)
    refine ⟨?_, fun _ => hwarned, ⟨expiry + 100, ?_, ?_, fun _ => hwarned⟩, iff_of_true hwarned ?_⟩
    · rw [hboard, hsafety, safetyTimeout_canDev]
      exact h.canDev
    · rw [hboard]
      exact hnextArmed
    · rw [hboard, hsame]
      omega
    · rw [once_snoc hrun]
      right
      rw [Overdue, hboard, hsame, tick_uptime]
      omega
  · obtain ⟨hearly, hnextArmed⟩ := harmed.tick_early hdue
    have hcalls : mid.board.tick.calls.drop mid.board.calls.length = [] := by
      rw [hearly, List.drop_length]
    have hquiet : mid.tick = { mid with board := mid.board.tick } := by
      rw [Firmware.tick, hcalls, List.foldl_nil]
    have hwarnings : mid.tick.warnings = mid.warnings := by rw [hquiet]; rfl
    apply h.unwarned hrun hwarnings
    · rw [hboard, hearly]
      exact h.canDev
    · rw [hboard, hearly]
      exact id
    · rw [hwarnings, hboard]
      refine ⟨expiry, hnextArmed, ?_⟩
      rw [hearly]
      exact ⟨hstart, hlate⟩

theorem Watched.step {steps : List FirmwareStep} {input : FirmwareStep} {firstState mid last : Firmware}
    (h : Watched steps firstState mid) (hrun : exec step firstState (steps ++ [input]) = some last)
    (hstep : Monitors mid input last) : Watched (steps ++ [input]) firstState last := by
  obtain ⟨expiry, harmed, hstart, hlate⟩ := h.due
  cases hstep with
  | tick _ hnext =>
      subst hnext
      exact h.tick hrun
  | other _ hboard hwarnings =>
      apply h.unwarned hrun hwarnings
      · rw [hboard]
        exact h.canDev
      · rw [hboard]
        exact id
      · rw [hboard, hwarnings]
        exact ⟨expiry, harmed, hstart, hlate⟩
  | feed _ hboard hwarnings =>
      obtain ⟨huptime, htimer, hsafety⟩ := kickFeed_frame mid.board
      have hsame : (kickFeed mid.board).lastStart = mid.board.lastStart := kickFeed_lastStart mid.board
      apply h.unwarned hrun hwarnings
      · rw [hboard, hsafety]
        exact h.canDev
      · rw [hboard, hsafety]
        exact id
      · rw [hboard, hwarnings, hsame]
        refine ⟨expiry, ⟨htimer.trans harmed.timer, ?_, ?_⟩, hstart, hlate⟩
        · rw [huptime]
          exact harmed.later
        · rw [huptime]
          exact harmed.soon
  | timer _ hboard hwarnings =>
      have hnow : (kickTimer mid.board).lastStart = mid.board.uptime := kickTimer_lastStart mid.board
      apply h.unwarned hrun hwarnings
      · rw [hboard]
        exact h.canDev
      · rw [hboard]
        exact id
      · rw [hboard, hnow]
        exact ⟨mid.board.uptime + 100, kickTimer_armed _, le_rfl, fun hlater => absurd hlater (lt_irrefl _)⟩
  | recover _ hsafe hboard hwarnings =>
      have hcanDev : (kickRecover mid.board).safety.safetyCanDev = mid.board.safety.safetyCanDev := by
        rw [kickRecover]
        split <;> rfl
      apply h.unwarned hrun hwarnings
      · rw [hboard, hcanDev]
        exact h.canDev
      · exact fun _ => hsafe
      · rw [hboard, hwarnings]
        exact ⟨expiry, ⟨harmed.timer, harmed.later, harmed.soon⟩, hstart, hlate⟩

theorem start_watched (wdtReady : Bool) (transport : Transport) :
    Watched [] (start wdtReady transport) (start wdtReady transport) := by
  have harmed := boot_armed wdtReady true true
  have hstart : (Board.boot wdtReady true true).lastStart = 0 := by cases wdtReady <;> rfl
  have huptime : (Board.boot wdtReady true true).uptime = 0 := (foldl_call_frame _ _).2
  refine ⟨?_, fun hsafe => ?_, ⟨100, harmed, ?_, fun hlater => ?_⟩, iff_of_false (not_not_intro rfl) ?_⟩
  · exact (boot_onRecord wdtReady true).canDev
  · have hnormal := (boot_onSchedule wdtReady true true).safeState
    have hsame : (Board.boot wdtReady true true).safety.safeState = true := hsafe
    rw [hsame] at hnormal
    cases hnormal
  · show (Board.boot wdtReady true true).lastStart + 100 ≤ 100
    rw [hstart]
  · have hafter : (Board.boot wdtReady true true).lastStart + 100 < 100 := hlater
    omega
  · rw [once_nil]
    show ¬(Board.boot wdtReady true true).lastStart + 100 ≤ (Board.boot wdtReady true true).uptime
    omega

theorem run_watched {wdtReady : Bool} {transport : Transport} {steps : List FirmwareStep} {last : Firmware}
    (hrun : exec step (start wdtReady transport) steps = some last) :
    Watched steps (start wdtReady transport) last := by
  refine exec_induction (start wdtReady transport) (fun steps last =>
    Watched steps (start wdtReady transport) last) (start_watched wdtReady transport) ?_ steps last hrun
  intro steps mid input last hmid hwatched hstep
  exact hwatched.step ((exec_snoc _ _ _ _).mpr ⟨mid, hmid, hstep⟩) (step_monitors hstep)

theorem warnings_iff (firmware : Firmware) : firmware.warnings ≠ [] ↔
    ∃ transmission ∈ firmware.transmissions, transmission.sender = .canSendWarning := by
  rw [warnings, ne_eq, List.filter_eq_nil_iff]
  simp only [decide_eq_true_eq, not_forall, not_not, exists_prop]

/-- A warning has been handed to `can_send` exactly when the timer was once not restarted for 100 ms, and
SAFE does not come without one. -/
theorem warned_iff_overdue (wdtReady : Bool) (transport : Transport) (steps : List FirmwareStep)
    (last : Firmware) (hrun : exec step (start wdtReady transport) steps = some last) :
    ((∃ transmission ∈ last.transmissions, transmission.sender = .canSendWarning) ↔
        Once step Overdue (start wdtReady transport) steps) ∧
      (last.board.safety.safetyIsSafeState = true →
        ∃ transmission ∈ last.transmissions, transmission.sender = .canSendWarning) := by
  have hwatched := run_watched hrun
  rw [← warnings_iff]
  exact ⟨hwatched.warned, hwatched.safe⟩

/-- Nothing is heard for 100 ms. -/
def silentRun : List FirmwareStep := List.replicate 100 .tick

theorem warned_iff_overdue_silent :
    ∃ last, exec step (start true (.udp .static)) silentRun = some last ∧
      last.board.safety.safetyIsSafeState = true ∧
      ((∃ transmission ∈ last.transmissions, transmission.sender = .canSendWarning) ↔
        Once step Overdue (start true (.udp .static)) silentRun) ∧
      (last.board.safety.safetyIsSafeState = true →
        ∃ transmission ∈ last.transmissions, transmission.sender = .canSendWarning) := by
  have hreached : (exec step (start true (.udp .static)) silentRun).map (fun last =>
      last.board.safety.safetyIsSafeState) = some true := by
    decide +kernel
  obtain ⟨last, hrun, hsafe⟩ := Option.map_eq_some_iff.mp hreached
  exact ⟨last, hrun, hsafe, warned_iff_overdue true (.udp .static) silentRun last hrun⟩

end Firmware

end SdvZone.Mcu
