import SdvZone.FirmwareRuns

/-! Where the levels on the CAN bus come from. Between the message and the frame a level passes through
the shared variable and the hands of both threads; whatever all messages have in common holds of the
message behind each frame. -/

namespace SdvZone.Mcu

open Wire Machine

/-- The level is the payload byte of a Notify with the property. -/
def Notified (property : Reception → Prop) (level : Nat) : Prop :=
  ∃ reception, property reception ∧ reception.event.1 = eventNotify ∧ level = reception.event.2.toNat

/-- The frame carries a level that was notified, and not 0. -/
def Transmission.Notified (property : Reception → Prop) (transmission : Transmission) : Prop :=
  transmission.sender = .canThread →
    0 < transmission.level.toNat ∧ Mcu.Notified property transmission.level.toNat

namespace Firmware

/-- Every level between the receiver and the bus has been notified. -/
structure Carries (property : Reception → Prop) (firmware : Firmware) : Prop where
  handles : Handles property firmware
  level : 0 < firmware.threads.shared.drowsinessLevel →
    Notified property firmware.threads.shared.drowsinessLevel
  sending : ∀ level, firmware.threads.can = .send level → 0 < level ∧ Notified property level
  sent : ∀ transmission ∈ firmware.transmissions, transmission.Notified property

theorem start_carries (property : Reception → Prop) (wdtReady : Bool) (transport : Transport) :
    Carries property (start wdtReady transport) where
  handles := start_handles property wdtReady transport
  level h := absurd h (Nat.lt_irrefl 0)
  sending := by
    intro level h
    cases h
  sent := by
    intro transmission h
    cases h

theorem SafeWarning.notified {transmission : Transmission} (h : SafeWarning transmission)
    (property : Reception → Prop) : transmission.Notified property := by
  intro hsender
  rw [h.1] at hsender
  cases hsender

/-- A payload byte goes out as it came in. -/
theorem canThread_notified {property : Reception → Prop} {level : Nat}
    (h : 0 < level ∧ Notified property level) (safeState : Bool) (gateway : CanGateway) :
    (Transmission.mk .canThread safeState (gateway.frame (UInt8.ofNat level))).Notified property := by
  intro _
  obtain ⟨hpositive, reception, hproperty, hnotify, hlevel⟩ := h
  have hsame : (UInt8.ofNat level).toNat = level :=
    UInt8.toNat_ofNat_of_lt' (by rw [hlevel]; exact reception.event.2.toNat_lt)
  show 0 < (UInt8.ofNat level).toNat ∧ Mcu.Notified property (UInt8.ofNat level).toNat
  rw [hsame]
  exact ⟨hpositive, reception, hproperty, hnotify, hlevel⟩

theorem canStep_carries {property : Reception → Prop} {firmware : Firmware} (h : Carries property firmware)
    (hhandles : Handles property firmware.canStep) : Carries property firmware.canStep := by
  refine ⟨hhandles, ?_, ?_, ?_⟩
  · show 0 < firmware.threads.canStep.shared.drowsinessLevel →
      Notified property firmware.threads.canStep.shared.drowsinessLevel
    unfold Threads.canStep
    split
    · exact h.level
    · exact h.level
    · exact fun hzero => absurd hzero (Nat.lt_irrefl 0)
    · exact h.level
  · intro level hsend
    have hpc : firmware.threads.canStep.can = .send level := hsend
    unfold Threads.canStep at hpc
    split at hpc
    · dsimp only at hpc
      split_ifs at hpc with hpositive
      cases hpc
      exact ⟨hpositive, h.level hpositive⟩
    · cases hpc
    · cases hpc
    · cases hpc
  · intro transmission hmem
    simp only [canStep, canSend] at hmem
    split at hmem
    next level hpc =>
      rcases List.mem_append.mp hmem with hearlier | hlast
      · exact h.sent transmission hearlier
      · rw [List.mem_singleton.mp hlast]
        exact canThread_notified (h.sending level hpc) _ _
    next => exact h.sent transmission hmem

/-- Only the payload of the event that is handled is stored. -/
theorem someipStep_carries {property : Reception → Prop} {threads next : Threads} {uptime : Nat}
    {dispatching : Option Reception}
    (hlevel : 0 < threads.shared.drowsinessLevel → Notified property threads.shared.drowsinessLevel)
    (hawaits : Awaits threads.someip dispatching) (hhandled : ∀ reception ∈ dispatching, property reception)
    (hnext : threads.someipStep uptime = some next) :
    (0 < next.shared.drowsinessLevel → Notified property next.shared.drowsinessLevel) ∧
      next.can = threads.can := by
  unfold Threads.someipStep at hnext
  split at hnext
  next => cases hnext
  next =>
    cases hnext
    exact ⟨hlevel, rfl⟩
  next event hpc =>
    cases hnext
    refine ⟨?_, rfl⟩
    rw [hpc] at hawaits
    obtain ⟨message, hdispatching⟩ := hawaits
    show 0 < (threads.shared.storeLevel event).drowsinessLevel →
      Notified property (threads.shared.storeLevel event).drowsinessLevel
    rw [Shared.storeLevel]
    split
    next hnotify => exact fun _ => ⟨⟨message, event⟩, hhandled _ hdispatching, hnotify, rfl⟩
    next => exact hlevel
  next =>
    cases hnext
    exact ⟨hlevel, rfl⟩

theorem effect_carries {property : Reception → Prop} {firmware next : Firmware} {input : FirmwareStep}
    (h : Carries property firmware) (hdelivers : DeliversOnly property firmware input)
    (heffect : Effect firmware input next) : Carries property next := by
  have hhandles := effect_handles h.handles hdelivers heffect
  cases heffect with
  | tick =>
      obtain ⟨gateway, warnings, htick, hwarnings⟩ := firmware.tick_eq
      rw [htick] at hhandles ⊢
      refine ⟨hhandles, h.level, h.sending, ?_⟩
      intro transmission hmem
      rcases List.mem_append.mp hmem with hearlier | hwarning
      · exact h.sent transmission hearlier
      · exact (hwarnings transmission hwarning).notified property
  | can => exact canStep_carries h hhandles
  | advance threads hthreads hkick =>
      obtain ⟨hlevel, hcan⟩ := someipStep_carries h.level h.handles.awaits h.handles.handled hthreads
      exact ⟨hhandles, hlevel, fun level hsend => h.sending level (hcan ▸ hsend), h.sent⟩
  | wait loop lastFind transport => exact ⟨hhandles, h.level, h.sending, h.sent⟩
  | accept reception transport hreceive hreception => exact ⟨hhandles, h.level, h.sending, h.sent⟩
  | kick hkick hkicking => exact ⟨hhandles, h.level, h.sending, h.sent⟩
  | timer hkick hkicking => exact ⟨hhandles, h.level, h.sending, h.sent⟩
  | recover hkick hkicking => exact ⟨hhandles, h.level, h.sending, h.sent⟩

/-- What holds of all messages that are completed holds of the one behind each frame of `can_thread`. -/
theorem run_carries {property : Reception → Prop} {wdtReady : Bool} {transport : Transport}
    {steps : List FirmwareStep} {last : Firmware}
    (hdelivers : Along step (DeliversOnly property) (start wdtReady transport) steps)
    (hrun : exec step (start wdtReady transport) steps = some last) : Carries property last :=
  hdelivers.exec_induction (start_carries property wdtReady transport)
    (fun _ _ _ hcarries honly hstep => effect_carries hcarries honly (step_effect hstep)) hrun

end Firmware

end SdvZone.Mcu
