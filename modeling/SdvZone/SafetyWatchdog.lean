import SdvZone.McuSafety
import Mathlib.Data.List.Induction
import Mathlib.Order.Basic
import Mathlib.Tactic.SplitIfs
import Mathlib.Data.Nat.Basic

/-! The state of the safety monitor as a function of the time since the last kick. The first expiry
after a kick enters SAFE and does not feed the watchdog; the expiries after it do. So for the first
200 ms the watchdog is as old as the kick, and it bites at 150 ms. -/

namespace SdvZone.Mcu

/-- The milliseconds since the last kick of a run, or since `safety_init`. -/
def sinceKick (events : List SafetyEvent) : Nat :=
  events.foldl (fun elapsed event =>
    match event with
    | .tick => elapsed + 1
    | .kick => 0) 0

theorem sinceKick_snoc_tick (events : List SafetyEvent) :
    sinceKick (events ++ [.tick]) = sinceKick events + 1 := by
  simp [sinceKick]

theorem sinceKick_snoc_kick (events : List SafetyEvent) : sinceKick (events ++ [.kick]) = 0 := by
  simp [sinceKick]

/-- The age of the last feed, `elapsed` milliseconds after a kick. -/
def feedAgeAt (elapsed : Nat) : Nat := if elapsed < 200 then elapsed else elapsed % 100

/-- The board `elapsed` milliseconds after a kick, with nothing but the timer running since. -/
structure OnSchedule (wdtReady : Bool) (board : Board) (elapsed : Nat) : Prop where
  ready : board.wdtReady = wdtReady
  safeState : board.safety.safeState = decide (100 ≤ elapsed)
  timer : board.timer = some ⟨board.uptime + (100 - elapsed % 100), 100⟩
  wdt : wdtReady = true → ∃ lastFeed, board.wdt = some ⟨wdtTimeoutMs, lastFeed⟩ ∧
    lastFeed + feedAgeAt elapsed = board.uptime

namespace OnSchedule

theorem feedAge {board : Board} {elapsed : Nat} (h : OnSchedule true board elapsed) :
    board.feedAge = feedAgeAt elapsed := by
  obtain ⟨lastFeed, hwdt, hage⟩ := h.wdt rfl
  calc
    board.feedAge = board.uptime - lastFeed := by rw [Board.feedAge, hwdt]
    _ = lastFeed + feedAgeAt elapsed - lastFeed := by rw [hage]
    _ = feedAgeAt elapsed := Nat.add_sub_cancel_left ..

end OnSchedule

/-- The warning frame and the LED leave the board as it is, but for the record of calls. -/
theorem foldl_warn (board : Board) (safety : Safety) :
    ∃ calls, safety.warn.foldl Board.call board = { board with calls := calls } := by
  unfold Safety.warn
  cases safety.safetyCanDev <;> cases safety.safetyLed <;> exact ⟨_, rfl⟩

/-- Before the third expiry the last feed is the kick itself. -/
theorem feedAgeAt_early {elapsed : Nat} (h : elapsed < 200) : feedAgeAt elapsed = elapsed := if_pos h

/-- At an expiry that feeds the watchdog its age is zero. -/
theorem feedAgeAt_expiry {elapsed : Nat} (h : 200 ≤ elapsed) (hexpiry : elapsed % 100 = 0) :
    feedAgeAt elapsed = 0 := by
  rw [feedAgeAt, if_neg (not_lt.mpr h), hexpiry]

/-- Between expiries the age grows with the clock. -/
theorem feedAgeAt_succ {elapsed : Nat} (h : elapsed + 1 < 200 ∨ (elapsed + 1) % 100 ≠ 0) :
    feedAgeAt (elapsed + 1) = feedAgeAt elapsed + 1 := by
  unfold feedAgeAt
  split_ifs <;> omega

theorem boot_onSchedule (wdtReady canDev led : Bool) :
    OnSchedule wdtReady (Board.boot wdtReady canDev led) 0 := by
  cases wdtReady with
  | true => exact ⟨rfl, rfl, rfl, fun _ => ⟨0, rfl, rfl⟩⟩
  | false =>
      refine ⟨rfl, rfl, rfl, ?_⟩
      intro hready
      cases hready

/-- Driver calls touch neither the static variables nor the clock. -/
theorem foldl_call_frame (calls : List DriverCall) (board : Board) :
    (calls.foldl Board.call board).safety = board.safety ∧
      (calls.foldl Board.call board).uptime = board.uptime := by
  induction calls generalizing board with
  | nil => exact ⟨rfl, rfl⟩
  | cons call rest ih =>
      obtain ⟨hsafety, huptime⟩ := ih (board.call call)
      rw [List.foldl_cons, hsafety, huptime]
      cases call <;> exact ⟨rfl, rfl⟩

theorem kick_uptime (board : Board) : board.kick.uptime = board.uptime :=
  (foldl_call_frame _ _).2

theorem tick_uptime (board : Board) : board.tick.uptime = board.uptime + 1 := by
  simp only [Board.tick]
  split
  · rfl
  · split
    · exact (foldl_call_frame _ _).2
    · rfl

theorem kick_safeState (board : Board) : board.kick.safety.safeState = false := by
  rw [Board.kick, Board.perform, (foldl_call_frame _ _).1]
  show (if board.safety.safeState then { board.safety with safeState := false }
    else board.safety).safeState = false
  cases h : board.safety.safeState
  · rw [if_neg Bool.false_ne_true, h]
  · rfl

theorem kick_onSchedule {wdtReady : Bool} {board : Board} {elapsed : Nat}
    (h : OnSchedule wdtReady board elapsed) : OnSchedule wdtReady board.kick 0 := by
  have hsafe := kick_safeState board
  have hready := h.ready
  unfold Board.kick Board.perform Safety.safetyKickWatchdog at hsafe ⊢
  rw [hready] at hsafe ⊢
  cases wdtReady with
  | true =>
      obtain ⟨lastFeed, hwdt, -⟩ := h.wdt rfl
      refine ⟨rfl, hsafe, rfl, fun _ => ⟨board.uptime, ?_, rfl⟩⟩
      simp [Board.call, hwdt]
  | false =>
      refine ⟨rfl, hsafe, rfl, ?_⟩
      intro hready
      cases hready

/-- A millisecond in which the timer does not expire only moves the clock. -/
theorem tick_quiet {wdtReady : Bool} {board : Board} {elapsed : Nat}
    (h : OnSchedule wdtReady board elapsed) (hquiet : (elapsed + 1) % 100 ≠ 0) :
    board.tick = { board with uptime := board.uptime + 1 } := by
  have hexpiry : ¬board.uptime + (100 - elapsed % 100) = board.uptime + 1 := by omega
  simp only [Board.tick, h.timer, if_neg hexpiry]

/-- At an expiry the callback runs on the rearmed timer. -/
theorem tick_expiry {wdtReady : Bool} {board : Board} {elapsed : Nat}
    (h : OnSchedule wdtReady board elapsed) (hexpiry : (elapsed + 1) % 100 = 0) :
    board.tick = Board.perform
      { board with uptime := board.uptime + 1, timer := some ⟨board.uptime + 1 + 100, 100⟩ }
      (Safety.safetyTimeout wdtReady) := by
  have hdue : board.uptime + (100 - elapsed % 100) = board.uptime + 1 := by omega
  simp only [Board.tick, h.timer, h.ready, hdue, if_true]

/-- The first expiry enters SAFE and does not feed the watchdog. -/
theorem tick_first {wdtReady : Bool} {board : Board} {elapsed : Nat}
    (h : OnSchedule wdtReady board elapsed) (hfirst : elapsed + 1 = 100) :
    OnSchedule wdtReady board.tick (elapsed + 1) := by
  have hsafe := h.safeState
  rw [decide_eq_false (by omega)] at hsafe
  rw [tick_expiry h (by rw [hfirst])]
  unfold Board.perform Safety.safetyTimeout Safety.enterSafeState
  simp only [hsafe, Bool.not_false, if_true, Bool.false_eq_true, if_false]
  obtain ⟨calls, hcalls⟩ := foldl_warn { board with
    uptime := board.uptime + 1
    timer := some ⟨board.uptime + 1 + 100, 100⟩
    safety := { board.safety with safeState := true } } board.safety
  rw [hcalls]
  refine ⟨h.ready, (decide_eq_true (by omega)).symm, by rw [hfirst], ?_⟩
  intro hready
  obtain ⟨lastFeed, hwdt, hage⟩ := h.wdt hready
  refine ⟨lastFeed, hwdt, ?_⟩
  rw [feedAgeAt_succ (Or.inl (by omega)), ← Nat.add_assoc, hage]

/-- Every later expiry finds SAFE and feeds the watchdog. -/
theorem tick_later {wdtReady : Bool} {board : Board} {elapsed : Nat}
    (h : OnSchedule wdtReady board elapsed) (hexpiry : (elapsed + 1) % 100 = 0)
    (hlater : elapsed + 1 ≠ 100) : OnSchedule wdtReady board.tick (elapsed + 1) := by
  have hsafe := h.safeState
  rw [decide_eq_true (by omega)] at hsafe
  rw [tick_expiry h hexpiry]
  unfold Board.perform Safety.safetyTimeout
  simp only [hsafe, Bool.not_true, Bool.false_eq_true, if_false, List.foldl_append]
  obtain ⟨calls, hcalls⟩ := foldl_warn { board with
    uptime := board.uptime + 1
    timer := some ⟨board.uptime + 1 + 100, 100⟩ } board.safety
  rw [hcalls]
  have hsafeNow : board.safety.safeState = decide (100 ≤ elapsed + 1) := by
    rw [hsafe, decide_eq_true (by omega)]
  cases wdtReady with
  | true =>
      obtain ⟨lastFeed, hwdt, -⟩ := h.wdt rfl
      refine ⟨h.ready, hsafeNow, by rw [hexpiry]; rfl, ?_⟩
      intro _
      refine ⟨board.uptime + 1, ?_, ?_⟩
      · simp [Board.call, hwdt]
      · rw [feedAgeAt_expiry (by omega) hexpiry]
        rfl
  | false =>
      refine ⟨h.ready, hsafeNow, by rw [hexpiry]; rfl, ?_⟩
      intro hready
      cases hready

theorem tick_onSchedule {wdtReady : Bool} {board : Board} {elapsed : Nat}
    (h : OnSchedule wdtReady board elapsed) : OnSchedule wdtReady board.tick (elapsed + 1) := by
  by_cases hexpiry : (elapsed + 1) % 100 = 0
  case pos =>
    by_cases hfirst : elapsed + 1 = 100
    · exact tick_first h hfirst
    · exact tick_later h hexpiry hfirst
  case neg =>
    rw [tick_quiet h hexpiry]
    refine ⟨h.ready, ?_, ?_, ?_⟩
    · rw [h.safeState]
      apply decide_eq_decide.mpr
      omega
    · rw [h.timer]
      simp only [Option.some.injEq, KTimer.mk.injEq, and_true]
      omega
    · intro hready
      obtain ⟨lastFeed, hwdt, hage⟩ := h.wdt hready
      refine ⟨lastFeed, hwdt, ?_⟩
      rw [feedAgeAt_succ (Or.inr hexpiry), ← Nat.add_assoc, hage]

/-- After every run the board is on the schedule of its last kick. -/
theorem run_onSchedule (wdtReady canDev led : Bool) (events : List SafetyEvent) :
    OnSchedule wdtReady ((Board.boot wdtReady canDev led).run events) (sinceKick events) := by
  induction events using List.reverseRecOn with
  | nil => exact boot_onSchedule wdtReady canDev led
  | append_singleton events event ih =>
      rw [Board.run, List.foldl_append]
      cases event with
      | tick =>
          rw [sinceKick_snoc_tick]
          exact tick_onSchedule ih
      | kick =>
          rw [sinceKick_snoc_kick]
          exact kick_onSchedule ih

/-- A run that has gone so long without a kick has passed every shorter time without one. -/
theorem exists_prefix_sinceKick (events : List SafetyEvent) {elapsed : Nat}
    (h : elapsed ≤ sinceKick events) : ∃ front, front <+: events ∧ sinceKick front = elapsed := by
  induction events using List.reverseRecOn with
  | nil => exact ⟨[], List.prefix_refl _, (Nat.le_zero.mp h).symm⟩
  | append_singleton events event ih =>
      by_cases hlast : elapsed = sinceKick (events ++ [event])
      · exact ⟨_, List.prefix_refl _, hlast.symm⟩
      · cases event with
        | tick =>
            rw [sinceKick_snoc_tick] at h hlast
            obtain ⟨front, hfront, hsince⟩ := ih (by omega)
            exact ⟨front, hfront.trans (List.prefix_append _ _), hsince⟩
        | kick =>
            rw [sinceKick_snoc_kick] at h hlast
            omega

/-- The watchdog is fed in time throughout a run exactly when the run is never without a kick for
150 ms. -/
theorem watchdog_held_iff (canDev led : Bool) (events : List SafetyEvent) :
    (∀ front, front <+: events → ((Board.boot true canDev led).run front).feedAge < wdtTimeoutMs) ↔
      ∀ front, front <+: events → sinceKick front < wdtTimeoutMs := by
  have hage : ∀ front, ((Board.boot true canDev led).run front).feedAge = feedAgeAt (sinceKick front) :=
    fun front => (run_onSchedule true canDev led front).feedAge
  constructor
  · intro hheld front hfront
    by_contra hlong
    obtain ⟨first, hfirst, hsince⟩ := exists_prefix_sinceKick front (not_lt.mp hlong)
    have hbite := hheld first (hfirst.trans hfront)
    rw [hage, hsince] at hbite
    have hnofeed : ¬feedAgeAt wdtTimeoutMs < wdtTimeoutMs := by decide
    exact hnofeed hbite
  · intro hkicked front hfront
    have hrecent := hkicked front hfront
    rw [hage, feedAgeAt_early (hrecent.trans (by decide))]
    exact hrecent

/-- Without any kick the watchdog bites in SAFE, 50 ms before the callback that would feed it. -/
theorem watchdog_bites_unkicked :
    ((Board.boot true true true).run (List.replicate 150 .tick)).feedAge = wdtTimeoutMs ∧
      ((Board.boot true true true).run (List.replicate 150 .tick)).safety.safeState = true := by
  have hsince : sinceKick (List.replicate 150 .tick) = 150 := by decide +kernel
  have hschedule := run_onSchedule true true true (List.replicate 150 .tick)
  rw [hsince] at hschedule
  constructor
  · rw [hschedule.feedAge]
    rfl
  · rw [hschedule.safeState]
    rfl

end SdvZone.Mcu
