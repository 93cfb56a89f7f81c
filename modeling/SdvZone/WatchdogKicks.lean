import SdvZone.FirmwareRuns

/-! What keeps the MCU out of SAFE. `someip_thread` calls `safety_kick_watchdog` for every message
`someip_receive` accepts, and neither looks at the method id beyond telling a Notify from the rest. -/

namespace SdvZone.Mcu

open Wire Machine Uart

/-- The method id is that of a Notify or a Heartbeat. -/
def EventMethod (message : Bytes) : Prop :=
  beNat (slice message 2 4) = eventNotify ∨ beNat (slice message 2 4) = eventHeartbeat

instance (message : Bytes) : Decidable (EventMethod message) := inferInstanceAs (Decidable (_ ∨ _))

/-- A message that may keep the MCU out of SAFE. -/
structure KeepAlive (message : Bytes) : Prop extends Notification message where
  method : EventMethod message

namespace Firmware

/-- When every message that is completed has the method id of a Notify or a Heartbeat, every call of
`safety_kick_watchdog` is for such a notification. -/
theorem kicks_keepAlive (wdtReady : Bool) (transport : Transport) (steps : List FirmwareStep)
    (last : Firmware)
    (hmethods : Along step (DeliversOnly fun reception => EventMethod reception.message)
      (start wdtReady transport) steps)
    (hrun : exec step (start wdtReady transport) steps = some last) :
    ∀ kick ∈ last.kickedFor, ∃ reception, kick = some reception ∧ KeepAlive reception.message := by
  have hkeeps : Along step (DeliversOnly fun reception => KeepAlive reception.message)
      (start wdtReady transport) steps := by
    refine hmethods.mono fun firmware input hmethod reception hdelivers => ?_
    exact ⟨hdelivers.notification.1, hmethod reception hdelivers⟩
  exact (run_handles hkeeps hrun).kicked

theorem kicks_keepAlive_heartbeat :
    ∃ last, exec step (start true (.udp .static)) (eventRun (eventDatagram 2 7)) = some last ∧
      last.kickedFor.length = 1 ∧
      ∀ kick ∈ last.kickedFor, ∃ reception, kick = some reception ∧ KeepAlive reception.message :=
  ⟨_, rfl, rfl, kicks_keepAlive true (.udp .static) (eventRun (eventDatagram 2 7)) _
    (along_eventRun (show EventMethod (eventDatagram 2 7) from by decide)) rfl⟩

/-- In a run at whose end no event is being dispatched, no other condition would do. -/
theorem eventMethod_of_kicks {wdtReady : Bool} {transport : Transport} {steps : List FirmwareStep}
    {last : Firmware} (hrun : exec step (start wdtReady transport) steps = some last)
    (hrest : last.dispatching = none)
    (hkicks : ∀ kick ∈ last.kickedFor, ∃ reception, kick = some reception ∧
      KeepAlive reception.message) :
    Along step (DeliversOnly fun reception => EventMethod reception.message)
      (start wdtReady transport) steps := by
  refine (run_kicks hrun).mono fun firmware input hkicked reception hdelivers => ?_
  rcases hkicked reception hdelivers with hearlier | hdispatching
  · obtain ⟨_, hsame, hkeep⟩ := hkicks _ hearlier
    cases hsame
    exact hkeep.method
  · rw [hrest] at hdispatching
    cases hdispatching

/-- An event with the method id 0x8003 is a kick as well. -/
theorem kicks_otherEvent :
    ¬∀ steps last, exec step (start true (.udp .static)) steps = some last →
      ∀ kick ∈ last.kickedFor, ∃ reception, kick = some reception ∧ KeepAlive reception.message := by
  intro hkeeps
  obtain ⟨reception, hkick, hkeep⟩ := hkeeps (eventRun (eventDatagram 3 7)) _ rfl _
    (List.mem_singleton.mpr rfl)
  cases hkick
  exact absurd hkeep.method (by decide)

end Firmware

end SdvZone.Mcu
