import SdvZone.FirmwareRuns

/-! The level byte of the CAN frames. `someip_thread` stores the payload byte of a Notify unchecked
and `can_thread` sends what it finds: a payload above 100 reaches the bus, and 255 reads as the
warning. -/

namespace SdvZone.Mcu

open Wire Machine Uart

/-- A Notify carries a level in the documented range. -/
def LevelEvent (event : UartEvent) : Prop := event.1 = eventNotify → event.2.toNat ≤ 100

instance (event : UartEvent) : Decidable (LevelEvent event) := inferInstanceAs (Decidable (_ → _))

/-- The level byte tells a drowsiness level from the warning, which is sent in SAFE only. -/
structure Transmission.Unambiguous (transmission : Transmission) : Prop where
  drowsiness : transmission.sender = .canThread →
    1 ≤ transmission.level.toNat ∧ transmission.level.toNat ≤ 100
  warning : transmission.level = 0xFF →
    transmission.sender = .canSendWarning ∧ transmission.safeState = true

namespace Firmware

theorem SafeWarning.unambiguous {transmission : Transmission} (h : SafeWarning transmission) :
    transmission.Unambiguous where
  drowsiness := by
    intro hsender
    rw [h.1] at hsender
    cases hsender
  warning _ := ⟨h.1, h.2.1⟩

/-- A level on its way from the shared variable to the bus. -/
theorem canThread_unambiguous {level : Nat} (h : 1 ≤ level ∧ level ≤ 100) (safeState : Bool)
    (gateway : CanGateway) :
    (Transmission.mk .canThread safeState (gateway.frame (UInt8.ofNat level))).Unambiguous := by
  have hlevel : (UInt8.ofNat level).toNat = level := UInt8.toNat_ofNat_of_lt' (h.2.trans_lt (by decide))
  constructor
  · intro _
    show 1 ≤ (UInt8.ofNat level).toNat ∧ (UInt8.ofNat level).toNat ≤ 100
    rw [hlevel]
    exact h
  · intro hwarning
    have hcode : (UInt8.ofNat level).toNat = 0xFF := congrArg UInt8.toNat hwarning
    omega

/-- Every level between the receiver and the bus is in range. -/
structure InRange (firmware : Firmware) : Prop where
  handles : Handles (fun reception => LevelEvent reception.event) firmware
  level : firmware.threads.shared.drowsinessLevel ≤ 100
  sending : ∀ level, firmware.threads.can = .send level → 1 ≤ level ∧ level ≤ 100
  sent : ∀ transmission ∈ firmware.transmissions, transmission.Unambiguous

theorem start_inRange (wdtReady : Bool) (transport : Transport) :
    InRange (start wdtReady transport) where
  handles := start_handles _ wdtReady transport
  level := Nat.zero_le _
  sending := by
    intro level h
    cases h
  sent := by
    intro transmission h
    cases h

theorem canStep_inRange {firmware : Firmware} (h : InRange firmware)
    (hhandles : Handles (fun reception => LevelEvent reception.event) firmware.canStep) :
    InRange firmware.canStep := by
  refine ⟨hhandles, ?_, ?_, ?_⟩
  · show firmware.threads.canStep.shared.drowsinessLevel ≤ 100
    unfold Threads.canStep
    split
    · exact h.level
    · exact h.level
    · exact Nat.zero_le _
    · exact h.level
  · intro level hsend
    have hpc : firmware.threads.canStep.can = .send level := hsend
    unfold Threads.canStep at hpc
    split at hpc
    · dsimp only at hpc
      split_ifs at hpc with hpositive
      cases hpc
      exact ⟨hpositive, h.level⟩
    · cases hpc
    · cases hpc
    · cases hpc
  · intro transmission hmem
    simp only [canStep, canSend] at hmem
    split at hmem
    next level hpc =>
      rcases List.mem_append.mp hmem with hearlier | hlast
      · exact h.sent transmission hearlier
      · rw [List.mem_singleton.mp hlast]
        exact canThread_unambiguous (h.sending level hpc) _ _
    next => exact h.sent transmission hmem

/-- Only the payload of a Notify is stored. -/
theorem someipStep_inRange {threads next : Threads} {uptime : Nat} {dispatching : Option Reception}
    (hlevel : threads.shared.drowsinessLevel ≤ 100) (hawaits : Awaits threads.someip dispatching)
    (hhandled : ∀ reception ∈ dispatching, LevelEvent reception.event)
    (hnext : threads.someipStep uptime = some next) :
    next.shared.drowsinessLevel ≤ 100 ∧ next.can = threads.can := by
  unfold Threads.someipStep at hnext
  split at hnext
  next => cases hnext
  next =>
    cases hnext
    exact ⟨hlevel, rfl⟩
  next event hpc =>
    cases hnext
    refine ⟨?_, rfl⟩
    rw [hpc] at hawaits
    obtain ⟨message, hdispatching⟩ := hawaits
    have hevent : LevelEvent event := hhandled ⟨message, event⟩ hdispatching
    show (threads.shared.storeLevel event).drowsinessLevel ≤ 100
    rw [Shared.storeLevel]
    split
    next hnotify => exact hevent hnotify
    next => exact hlevel
  next =>
    cases hnext
    exact ⟨hlevel, rfl⟩

theorem effect_inRange {firmware next : Firmware} {input : FirmwareStep} (h : InRange firmware)
    (hdelivers : DeliversOnly (fun reception => LevelEvent reception.event) firmware input)
    (heffect : Effect firmware input next) : InRange next := by
  have hhandles := effect_handles h.handles hdelivers heffect
  cases heffect with
  | tick =>
      obtain ⟨gateway, warnings, htick, hwarnings⟩ := firmware.tick_eq
      rw [htick] at hhandles ⊢
      refine ⟨hhandles, h.level, h.sending, ?_⟩
      intro transmission hmem
      rcases List.mem_append.mp hmem with hearlier | hwarning
      · exact h.sent transmission hearlier
      · exact (hwarnings transmission hwarning).unambiguous
  | can => exact canStep_inRange h hhandles
  | advance threads hthreads hkick =>
      obtain ⟨hlevel, hcan⟩ :=
        someipStep_inRange h.level h.handles.awaits h.handles.handled hthreads
      exact ⟨hhandles, hlevel, fun level hsend => h.sending level (hcan ▸ hsend), h.sent⟩
  | wait loop lastFind transport => exact ⟨hhandles, h.level, h.sending, h.sent⟩
  | accept reception transport hreceive hreception => exact ⟨hhandles, h.level, h.sending, h.sent⟩
  | kick hkick hkicking => exact ⟨hhandles, h.level, h.sending, h.sent⟩
  | timer hkick hkicking => exact ⟨hhandles, h.level, h.sending, h.sent⟩
  | recover hkick hkicking => exact ⟨hhandles, h.level, h.sending, h.sent⟩

/-- When every Notify that is completed carries a level of at most 100, `can_thread` sends levels in
1..100 only, and the warning code means the warning. -/
theorem levels_unambiguous (wdtReady : Bool) (transport : Transport) (steps : List FirmwareStep)
    (last : Firmware)
    (hlevels : Along step (DeliversOnly fun reception => LevelEvent reception.event)
      (start wdtReady transport) steps)
    (hrun : exec step (start wdtReady transport) steps = some last) :
    ∀ transmission ∈ last.transmissions, transmission.Unambiguous :=
  (hlevels.exec_induction (start_inRange wdtReady transport)
    (fun _ _ _ hrange honly hstep => effect_inRange hrange honly (step_effect hstep)) hrun).sent

theorem levels_unambiguous_notify :
    ∃ last, exec step (start true (.udp .static)) (eventRun (eventDatagram 1 85)) = some last ∧
      last.transmissions.length = 1 ∧
      ∀ transmission ∈ last.transmissions, transmission.Unambiguous :=
  ⟨_, rfl, rfl, levels_unambiguous true (.udp .static) (eventRun (eventDatagram 1 85)) _
    (along_eventRun (show LevelEvent (eventNotify, 85) from by decide)) rfl⟩

/-- Whatever `can_thread` finds in the shared variable goes to the bus. -/
theorem canStep_sends {firmware : Firmware} (hpc : firmware.threads.can = .get)
    (hlevel : 0 < firmware.threads.shared.drowsinessLevel) :
    firmware.canStep.canStep.transmissions = firmware.transmissions ++
      [⟨.canThread, firmware.board.safety.safeState,
        firmware.threads.gateway.frame (UInt8.ofNat firmware.threads.shared.drowsinessLevel)⟩] := by
  have hread : firmware.canStep.threads.can = .send firmware.threads.shared.drowsinessLevel := by
    simp only [canStep, Threads.canStep, hpc, if_pos hlevel]
  have hgateway : firmware.canStep.threads.gateway = firmware.threads.gateway := by
    simp only [canStep, Threads.canStep, hpc]
  rw [canStep]
  simp only [hread, canSend, hgateway]
  simp only [canStep, hpc]

/-- A Notify with the payload 255 is sent as the warning code, in NORMAL and by `can_thread`. -/
theorem levels_ambiguous :
    ¬∀ steps last, exec step (start true (.udp .static)) steps = some last →
      ∀ transmission ∈ last.transmissions, transmission.Unambiguous := by
  intro hunambiguous
  have hsent := hunambiguous (eventRun (eventDatagram 1 0xFF)) _ rfl _ (List.mem_singleton.mpr rfl)
  have hsender := (hsent.warning rfl).1
  cases hsender

end Firmware

end SdvZone.Mcu
