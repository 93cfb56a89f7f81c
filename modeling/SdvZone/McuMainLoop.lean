import SdvZone.MachineComposition
import SdvZone.SafeStateDeadline

/-! The loop of `main` in `MCU/src/main.cpp`, beside the threads it has created. It toggles the LED every
500 ms in NORMAL and leaves it to the safety monitor in SAFE; between its look at `safe_state` and the
toggle anything may happen. -/

namespace SdvZone.Mcu

open Machine

/-- Where `main` stands: `k_msleep` returns when the uptime has reached `wake`. -/
inductive MainPc where
  | check
  | toggle
  | sleep (wake : ℕ)
  deriving DecidableEq, Repr

/-- What a step of `main` finds: the uptime, and `safety_is_safe_state`. -/
structure Glance where
  uptime : ℕ
  safeState : Bool
  deriving DecidableEq, Repr

/-- `toggles` is what there was to see whenever `main` has toggled the LED. -/
structure MainLoop where
  pc : MainPc
  toggles : List Glance
  deriving DecidableEq, Repr

namespace MainLoop

def start : MainLoop := { pc := .check, toggles := [] }

def step (loop : MainLoop) (glance : Glance) : Option MainLoop :=
  match loop.pc with
  | .check =>
      if !glance.safeState then some { loop with pc := .toggle }
      else some { loop with pc := .sleep (glance.uptime + 100) }
  | .toggle => some { pc := .sleep (glance.uptime + 500), toggles := loop.toggles ++ [glance] }
  | .sleep wake => if wake ≤ glance.uptime then some { loop with pc := .check } else none

end MainLoop

def Firmware.glance (firmware : Firmware) : Glance :=
  ⟨firmware.board.uptime, firmware.board.safety.safetyIsSafeState⟩

namespace MainLoop

/-- The firmware with all its threads. -/
def withMain : Firmware × MainLoop → FirmwareStep ⊕ Glance → Option (Firmware × MainLoop) :=
  compose Firmware.step step fun firmware _ glance => glance = firmware.glance

/-- The entries into SAFE, by their times. -/
def entries (pair : Firmware × MainLoop) : FirmwareStep ⊕ Glance → List ℕ
  | .inl input =>
      match pair.1.step input with
      | some next =>
          if pair.1.glance.safeState = false ∧ next.glance.safeState = true then [next.board.uptime] else []
      | none => []
  | .inr _ => []

/-- When the LED may be toggled next. -/
def ready (firmware : Firmware) (loop : MainLoop) : ℕ :=
  match loop.pc with
  | .check | .toggle => firmware.board.uptime
  | .sleep wake => wake

/-- `main` has looked in NORMAL and will toggle in SAFE. -/
def astray (firmware : Firmware) (loop : MainLoop) : ℕ :=
  if loop.pc = .toggle ∧ firmware.glance.safeState = true then 1 else 0

/-- The toggles lie 500 ms apart, also from the next one, and each one in SAFE has an entry of its own. -/
structure Toggled (entered : ℕ) (pair : Firmware × MainLoop) : Prop where
  spaced : pair.2.toggles.Pairwise fun earlier later => earlier.uptime + 500 ≤ later.uptime
  next : ∀ toggle ∈ pair.2.toggles, toggle.uptime + 500 ≤ ready pair.1 pair.2
  strays : pair.2.toggles.countP Glance.safeState + astray pair.1 pair.2 ≤ entered

theorem astray_le (firmware : Firmware) (loop : MainLoop) : astray firmware loop ≤ 1 := by
  rw [astray]
  split
  · exact le_rfl
  · exact Nat.zero_le 1

/-- A step of the threads takes time, and may enter SAFE. -/
theorem Toggled.threads {entered : ℕ} {firmware next : Firmware} {loop : MainLoop} {input : FirmwareStep}
    (h : Toggled entered (firmware, loop)) (hstep : firmware.step input = some next) :
    Toggled (entered + (entries (firmware, loop) (.inl input)).length) (next, loop) := by
  have htime := (Firmware.step_monitors hstep).uptime_le
  refine ⟨h.spaced, ?_, ?_⟩
  · intro toggle htoggle
    apply (h.next toggle htoggle).trans
    show ready firmware loop ≤ ready next loop
    rw [ready, ready]
    cases loop.pc with
    | check | toggle => exact htime
    | sleep wake => exact le_rfl
  · have hstrays := h.strays
    simp only [entries, hstep]
    dsimp only at hstrays ⊢
    by_cases hentry : firmware.glance.safeState = false ∧ next.glance.safeState = true
    · have hnext := astray_le next loop
      rw [if_pos hentry, List.length_singleton]
      omega
    · have hless : astray next loop ≤ astray firmware loop := by
        rw [astray, astray]
        by_cases hnow : loop.pc = .toggle ∧ next.glance.safeState = true
        · have hbefore : firmware.glance.safeState = true :=
            Bool.of_not_eq_false fun hnormal => hentry ⟨hnormal, hnow.2⟩
          rw [if_pos hnow, if_pos ⟨hnow.1, hbefore⟩]
        · rw [if_neg hnow]
          exact Nat.zero_le _
      rw [if_neg hentry, List.length_nil]
      omega

/-- `main` goes to toggle the LED in NORMAL only. -/
theorem Toggled.main {entered : ℕ} {firmware : Firmware} {loop next : MainLoop}
    (h : Toggled entered (firmware, loop)) (hstep : loop.step firmware.glance = some next) :
    Toggled entered (firmware, next) := by
  obtain ⟨pc, toggles⟩ := loop
  have hspaced := h.spaced
  have hnext := h.next
  have hstrays := h.strays
  cases pc with
  | check =>
      cases hsafe : firmware.glance.safeState with
      | false =>
          rw [step, hsafe] at hstep
          cases hstep
          refine ⟨hspaced, hnext, ?_⟩
          have hcalm : astray firmware ⟨.toggle, toggles⟩ = 0 := by
            rw [astray, hsafe, if_neg (fun h => Bool.false_ne_true h.2)]
          show toggles.countP Glance.safeState + astray firmware ⟨.toggle, toggles⟩ ≤ entered
          rw [hcalm]
          exact (Nat.le_add_right _ _).trans hstrays
      | true =>
          rw [step, hsafe] at hstep
          cases hstep
          refine ⟨hspaced, fun toggle htoggle => (hnext toggle htoggle).trans (Nat.le_add_right _ 100), ?_⟩
          exact (Nat.le_add_right _ _).trans hstrays
  | toggle =>
      cases hstep
      refine ⟨?_, ?_, ?_⟩
      · apply List.pairwise_append.mpr
        refine ⟨hspaced, List.pairwise_singleton _ _, ?_⟩
        intro earlier hearlier later hlater
        rw [List.mem_singleton.mp hlater]
        exact hnext earlier hearlier
      · intro toggle htoggle
        rcases List.mem_append.mp htoggle with hbefore | hnow
        · exact (hnext toggle hbefore).trans (Nat.le_add_right _ 500)
        · rw [List.mem_singleton.mp hnow]
          exact le_rfl
      · show (toggles ++ [firmware.glance]).countP Glance.safeState + 0 ≤ entered
        rw [List.countP_append, List.countP_singleton]
        dsimp only [astray] at hstrays
        rw [Nat.add_zero]
        simpa using hstrays
  | sleep wake =>
      rw [step] at hstep
      obtain ⟨hwake, hcheck⟩ := Option.ite_none_right_eq_some.mp hstep
      cases hcheck
      refine ⟨hspaced, fun toggle htoggle => (hnext toggle htoggle).trans hwake, ?_⟩
      exact (Nat.le_add_right _ _).trans hstrays

/-- `main` toggles the LED at most every 500 ms, and in SAFE at most once for each time that SAFE has been
entered. -/
theorem led_toggles (wdtReady : Bool) (transport : Transport) (steps : List (FirmwareStep ⊕ Glance))
    (firmware : Firmware) (loop : MainLoop)
    (hrun : exec withMain (.start wdtReady transport, .start) steps = some (firmware, loop)) :
    (loop.toggles.Pairwise fun earlier later => earlier.uptime + 500 ≤ later.uptime) ∧
      loop.toggles.countP Glance.safeState ≤
        (observe withMain entries (.start wdtReady transport, .start) steps).length := by
  suffices htoggled : Toggled (observe withMain entries (.start wdtReady transport, .start) steps).length
      (firmware, loop) from ⟨htoggled.spaced, (Nat.le_add_right _ _).trans htoggled.strays⟩
  refine exec_induction (Firmware.start wdtReady transport, start) (fun steps last => Toggled
    (observe withMain entries (.start wdtReady transport, .start) steps).length last) ?_ ?_
    steps (firmware, loop) hrun
  · refine ⟨List.Pairwise.nil, ?_, Nat.zero_le _⟩
    intro toggle htoggle
    cases htoggle
  · rintro steps ⟨firmware, loop⟩ input last hmid hbefore hstep
    rw [observe_snoc entries hmid, List.length_append]
    rcases compose_cases hstep with ⟨own, rfl, hown, hsame⟩ | ⟨own, rfl, hlink, hown, hsame⟩
    · obtain ⟨next, same⟩ := last
      cases hsame
      exact hbefore.threads hown
    · obtain ⟨same, next⟩ := last
      cases hsame
      cases hlink
      exact hbefore.main hown

/-- `main` looks in NORMAL, SAFE is entered, and `main` toggles. -/
def strayRun : List (FirmwareStep ⊕ Glance) :=
  .inr ⟨0, false⟩ :: List.replicate 100 (.inl .tick) ++ [.inr ⟨100, true⟩]

theorem led_toggles_stray :
    ∃ firmware loop,
      exec withMain (.start true (.udp .static), .start) strayRun = some (firmware, loop) ∧
      loop.toggles = [⟨100, true⟩] ∧
      (loop.toggles.Pairwise fun earlier later => earlier.uptime + 500 ≤ later.uptime) ∧
        loop.toggles.countP Glance.safeState ≤
          (observe withMain entries (.start true (.udp .static), .start) strayRun).length := by
  have hreached : (exec withMain (.start true (.udp .static), .start) strayRun).map (fun last =>
      last.2.toggles) = some [⟨100, true⟩] := by
    decide +kernel
  obtain ⟨⟨firmware, loop⟩, hrun, htoggles⟩ := Option.map_eq_some_iff.mp hreached
  exact ⟨firmware, loop, hrun, htoggles, led_toggles true (.udp .static) strayRun firmware loop hrun⟩

end MainLoop

end SdvZone.Mcu
