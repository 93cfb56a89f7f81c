import SdvZone.SafetyWatchdog

/-! What the safety timer has done since the last kick: how often it has sent the warning and fed the
watchdog. The record of driver calls carries their instants; what the callback does at the instant of
a kick comes before it. -/

namespace SdvZone.Mcu

namespace Board

/-- How often a driver has been called in the last `elapsed` milliseconds. -/
def madeSince (board : Board) (elapsed : ℕ) (driverCall : DriverCall) : ℕ :=
  board.calls.countP fun entry => decide (board.uptime - elapsed < entry.1) && entry.2 == driverCall

end Board

/-! ### The record of calls -/

theorem foldl_call_calls (calls : List DriverCall) (board : Board) :
    (calls.foldl Board.call board).calls = board.calls ++ calls.map (Prod.mk board.uptime) := by
  induction calls generalizing board with
  | nil => exact (List.append_nil _).symm
  | cons call rest ih =>
      have hcall : (board.call call).calls = board.calls ++ [(board.uptime, call)] := by
        cases call <;> rfl
      have huptime : (board.call call).uptime = board.uptime := (foldl_call_frame [call] board).2
      rw [List.foldl_cons, ih, hcall, huptime, List.append_assoc]
      rfl

theorem perform_calls (board : Board) (function : Safety → Safety × List DriverCall) :
    (board.perform function).calls =
      board.calls ++ (function board.safety).2.map (Prod.mk board.uptime) :=
  foldl_call_calls _ _

theorem perform_safety (board : Board) (function : Safety → Safety × List DriverCall) :
    (board.perform function).safety = (function board.safety).1 :=
  (foldl_call_frame _ _).1

/-- Every call recorded is counted when it was made after the kick. -/
theorem countP_made (k now : ℕ) (h : k < now) (made : List DriverCall) (driverCall : DriverCall) :
    (made.map (Prod.mk now)).countP (fun entry => decide (k < entry.1) && entry.2 == driverCall) =
      made.count driverCall := by
  rw [List.countP_map, List.count]
  apply List.countP_congr
  intro call _
  simp [h]

/-- What the callback calls: the warning every time, a feed from the second time on. -/
theorem count_safetyTimeout (wdtReady : Bool) {safety : Safety} (hcan : safety.safetyCanDev = true) :
    (safety.safetyTimeout wdtReady).2.count .canSendWarning = 1 ∧
      (safety.safetyTimeout wdtReady).2.count .wdtFeed =
        if safety.safeState && wdtReady then 1 else 0 := by
  unfold Safety.safetyTimeout Safety.enterSafeState Safety.warn
  rw [hcan]
  cases safety.safeState <;> cases safety.safetyLed <;> cases wdtReady <;> exact ⟨rfl, rfl⟩

theorem safetyTimeout_canDev (wdtReady : Bool) (safety : Safety) :
    (safety.safetyTimeout wdtReady).1.safetyCanDev = safety.safetyCanDev := by
  unfold Safety.safetyTimeout Safety.enterSafeState
  cases safety.safeState <;> rfl

theorem safetyKickWatchdog_canDev (wdtReady : Bool) (safety : Safety) :
    (safety.safetyKickWatchdog wdtReady).1.safetyCanDev = safety.safetyCanDev := by
  unfold Safety.safetyKickWatchdog
  cases safety.safeState <;> rfl

/-! ### Since the last kick -/

/-- The timer has expired every 100 ms since the kick. -/
structure OnRecord (wdtReady : Bool) (board : Board) (elapsed : ℕ) : Prop where
  canDev : board.safety.safetyCanDev = true
  past : ∀ entry ∈ board.calls, entry.1 ≤ board.uptime
  elapsed_le : elapsed ≤ board.uptime
  warnings : board.madeSince elapsed .canSendWarning = elapsed / 100
  feeds : board.madeSince elapsed .wdtFeed = if wdtReady then elapsed / 100 - 1 else 0

/-- Nothing has been done since this instant. -/
theorem madeSince_zero {board : Board} (hpast : ∀ entry ∈ board.calls, entry.1 ≤ board.uptime)
    (driverCall : DriverCall) : board.madeSince 0 driverCall = 0 := by
  rw [Board.madeSince, List.countP_eq_zero]
  intro entry hentry
  have hle := hpast entry hentry
  rw [Nat.sub_zero, decide_eq_false (by omega), Bool.false_and]
  exact Bool.false_ne_true

/-- Calls are recorded at the present instant. -/
theorem perform_past {board : Board} (hpast : ∀ entry ∈ board.calls, entry.1 ≤ board.uptime)
    (function : Safety → Safety × List DriverCall) :
    ∀ entry ∈ (board.perform function).calls, entry.1 ≤ (board.perform function).uptime := by
  have huptime : (board.perform function).uptime = board.uptime := (foldl_call_frame _ _).2
  intro entry hentry
  rw [perform_calls, List.mem_append] at hentry
  rw [huptime]
  rcases hentry with hbefore | hnow
  · exact hpast entry hbefore
  · obtain ⟨call, -, rfl⟩ := List.mem_map.mp hnow
    exact le_rfl

theorem onRecord_zero {wdtReady : Bool} {board : Board} (hcan : board.safety.safetyCanDev = true)
    (hpast : ∀ entry ∈ board.calls, entry.1 ≤ board.uptime) : OnRecord wdtReady board 0 := by
  refine ⟨hcan, hpast, Nat.zero_le _, madeSince_zero hpast _, ?_⟩
  rw [madeSince_zero hpast]
  cases wdtReady <;> rfl

theorem boot_onRecord (wdtReady led : Bool) : OnRecord wdtReady (Board.boot wdtReady true led) 0 := by
  apply onRecord_zero
  · rw [Board.boot, perform_safety]
    rfl
  · apply perform_past
    intro entry hentry
    cases hentry

theorem kick_onRecord {wdtReady : Bool} {board : Board} {elapsed : ℕ}
    (h : OnRecord wdtReady board elapsed) : OnRecord wdtReady board.kick 0 := by
  apply onRecord_zero
  · rw [Board.kick, perform_safety, safetyKickWatchdog_canDev, h.canDev]
  · exact perform_past h.past _

theorem tick_onRecord {wdtReady : Bool} {board : Board} {elapsed : ℕ}
    (hschedule : OnSchedule wdtReady board elapsed) (h : OnRecord wdtReady board elapsed) :
    OnRecord wdtReady board.tick (elapsed + 1) := by
  have hle := h.elapsed_le
  have hkick : board.uptime + 1 - (elapsed + 1) = board.uptime - elapsed := Nat.add_sub_add_right _ _ _
  have hwarnings := h.warnings
  have hfeeds := h.feeds
  have hpast : ∀ entry ∈ board.calls, entry.1 ≤ board.uptime + 1 := fun entry hentry =>
    (h.past entry hentry).trans (Nat.le_succ _)
  unfold Board.madeSince at hwarnings hfeeds
  by_cases hexpiry : (elapsed + 1) % 100 = 0
  case neg =>
    have hsame : (elapsed + 1) / 100 = elapsed / 100 := by omega
    rw [tick_quiet hschedule hexpiry]
    refine ⟨h.canDev, hpast, Nat.succ_le_succ hle, ?_, ?_⟩
    · rw [Board.madeSince, hsame, ← hwarnings, hkick]
    · rw [Board.madeSince, hsame, ← hfeeds, hkick]
  case pos =>
    have hnext : (elapsed + 1) / 100 = elapsed / 100 + 1 := by omega
    have hafter : board.uptime - elapsed < board.uptime + 1 := by omega
    obtain ⟨hwarned, hfed⟩ := count_safetyTimeout wdtReady h.canDev
    have huptime := tick_uptime board
    rw [tick_expiry hschedule hexpiry] at huptime ⊢
    refine ⟨?_, ?_, ?_, ?_, ?_⟩
    · rw [perform_safety, safetyTimeout_canDev, h.canDev]
    · exact perform_past hpast _
    · rw [huptime]
      exact Nat.succ_le_succ hle
    · rw [Board.madeSince, huptime, hkick, perform_calls, List.countP_append, hwarnings,
        countP_made _ _ hafter, hwarned, hnext]
    · rw [Board.madeSince, huptime, hkick, perform_calls, List.countP_append, hfeeds,
        countP_made _ _ hafter, hfed, hnext, hschedule.safeState]
      -- the first expiry finds NORMAL and does not feed
      cases wdtReady with
      | false =>
          rw [Bool.and_false]
          rfl
      | true =>
          rw [Bool.and_true, if_pos rfl, if_pos rfl]
          by_cases hlater : 100 ≤ elapsed
          · rw [decide_eq_true hlater, if_pos rfl]
            omega
          · rw [decide_eq_false hlater, if_neg Bool.false_ne_true]
            omega

theorem run_onRecord (wdtReady led : Bool) (events : List SafetyEvent) :
    OnRecord wdtReady ((Board.boot wdtReady true led).run events) (sinceKick events) := by
  induction events using List.reverseRecOn with
  | nil => exact boot_onRecord wdtReady led
  | append_singleton events event ih =>
      have hschedule := run_onSchedule wdtReady true led events
      rw [Board.run, List.foldl_append]
      cases event with
      | tick =>
          rw [sinceKick_snoc_tick]
          exact tick_onRecord hschedule ih
      | kick =>
          rw [sinceKick_snoc_kick]
          exact kick_onRecord ih

/-- The state, the warnings and the feeds are functions of the time since the last kick. -/
theorem safe_state_timing (wdtReady led : Bool) (events : List SafetyEvent) :
    (((Board.boot wdtReady true led).run events).safety.safetyIsSafeState = true ↔
        100 ≤ sinceKick events) ∧
      ((Board.boot wdtReady true led).run events).madeSince (sinceKick events) .canSendWarning =
        sinceKick events / 100 ∧
      ((Board.boot wdtReady true led).run events).madeSince (sinceKick events) .wdtFeed =
        if wdtReady then sinceKick events / 100 - 1 else 0 := by
  have hrecord := run_onRecord wdtReady led events
  refine ⟨?_, hrecord.warnings, hrecord.feeds⟩
  rw [Safety.safetyIsSafeState, (run_onSchedule wdtReady true led events).safeState, decide_eq_true_eq]

/-- A watchdog that is not ready is not fed at the second expiry. -/
theorem unready_watchdog_unfed :
    ¬ ∀ (wdtReady led : Bool) (events : List SafetyEvent),
      (((Board.boot wdtReady true led).run events).safety.safetyIsSafeState = true ↔
          100 ≤ sinceKick events) ∧
        ((Board.boot wdtReady true led).run events).madeSince (sinceKick events) .canSendWarning =
          sinceKick events / 100 ∧
        ((Board.boot wdtReady true led).run events).madeSince (sinceKick events) .wdtFeed =
          sinceKick events / 100 - 1 := by
  intro hall
  have hsince : sinceKick (List.replicate 200 .tick) = 200 := by decide +kernel
  have hfed := (hall false true (List.replicate 200 .tick)).2.2
  rw [(run_onRecord false true _).feeds, hsince] at hfed
  revert hfed
  decide

end SdvZone.Mcu
