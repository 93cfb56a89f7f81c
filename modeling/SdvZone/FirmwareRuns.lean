import SdvZone.McuFirmware
import SdvZone.SafetyWatchdog
import SdvZone.UartReceiver
import SdvZone.UdpReceiver

/-! What one step of the MCU does, said once for all results about its runs: which messages a step
completes is read off their bytes, and a millisecond brings warnings only in SAFE. -/

namespace SdvZone.Mcu

open Wire Machine Uart

/-! ### The safety monitor -/

/-- With nothing between its steps, `safety_kick_watchdog` is what the monitor does with a kick. -/
theorem kick_steps (board : Board) :
    Firmware.kickRecover (Firmware.kickTimer (Firmware.kickFeed board)) = board.kick := by
  obtain ⟨uptime, wdtReady, timer, wdt, safety, calls⟩ := board
  cases wdtReady <;> rfl

/-- The callback of the timer leaves the monitor in SAFE, and nothing else calls a driver. -/
theorem tick_calls (board : Board) :
    board.tick.calls = board.calls ∨ board.tick.safety.safeState = true := by
  simp only [Board.tick]
  split
  · exact .inl rfl
  · split
    · right
      rw [Board.perform, (foldl_call_frame _ _).1]
      show (Safety.safetyTimeout board.wdtReady board.safety).1.safeState = true
      cases hsafe : board.safety.safeState with
      | false => simp [Safety.safetyTimeout, Safety.enterSafeState, hsafe]
      | true => simp [Safety.safetyTimeout, hsafe]
    · exact .inl rfl

namespace Firmware

/-- A frame that `can_send_warning` has sent in SAFE. -/
def SafeWarning (transmission : Transmission) : Prop :=
  transmission.sender = .canSendWarning ∧ transmission.safeState = true ∧ transmission.level = 0xFF

/-- Driver calls made in SAFE leave the threads alone and add warnings. -/
theorem foldl_driverCall (calls : List (Nat × DriverCall)) (firmware : Firmware)
    (hsafe : firmware.board.safety.safeState = true) :
    ∃ gateway warnings, calls.foldl (fun firmware call => firmware.driverCall call.2) firmware =
        { firmware with
          threads := { firmware.threads with gateway := gateway }
          transmissions := firmware.transmissions ++ warnings } ∧
      ∀ transmission ∈ warnings, SafeWarning transmission := by
  induction calls generalizing firmware with
  | nil => exact ⟨firmware.threads.gateway, [], by rw [List.append_nil]; rfl, by simp⟩
  | cons call rest ih =>
      rw [List.foldl_cons]
      cases hcall : call.2 with
      | canSendWarning =>
          obtain ⟨gateway, warnings, hrest, hwarnings⟩ := ih (firmware.driverCall .canSendWarning) hsafe
          refine ⟨gateway, ⟨.canSendWarning, true, firmware.threads.gateway.frame 0xFF⟩ :: warnings,
            ?_, ?_⟩
          · rw [hrest]
            simp only [driverCall, canSend, hsafe, List.append_assoc, List.singleton_append]
          · intro transmission htransmission
            rcases List.mem_cons.mp htransmission with rfl | hlater
            · exact ⟨rfl, rfl, rfl⟩
            · exact hwarnings transmission hlater
      | wdtSetup _ | wdtFeed | timerStart _ _ | gpioPinToggle => exact ih firmware hsafe

/-- A millisecond moves the board, and may bring warnings. -/
theorem tick_eq (firmware : Firmware) :
    ∃ gateway warnings, firmware.tick =
        { firmware with
          threads := { firmware.threads with gateway := gateway }
          board := firmware.board.tick
          transmissions := firmware.transmissions ++ warnings } ∧
      ∀ transmission ∈ warnings, SafeWarning transmission := by
  rcases tick_calls firmware.board with hcalls | hsafe
  · refine ⟨firmware.threads.gateway, [], ?_, by simp⟩
    rw [tick, hcalls, List.drop_length, List.append_nil]
    rfl
  · exact foldl_driverCall _ { firmware with board := firmware.board.tick } hsafe

/-! ### Messages -/

/-- The step completes a message, by its bytes: a datagram with a payload byte, or a frame of the
UART with its last byte. The payload byte of a frame is the one `rx_buf` has behind the header. -/
inductive Delivers (firmware : Firmware) : FirmwareStep → Reception → Prop where
  | datagram (memory : Vector UInt8 64) (sendto : Outgoing → Int) (datagram : Bytes)
      (hlength : 17 ≤ datagram.length) (hvalid : Notification datagram) :
      Delivers firmware (.receiveUdp memory sendto (some datagram))
        ⟨datagram, (beNat (slice datagram 2 4), getU8 datagram 16)⟩
  | frame (rx : UartRx) (byte : UInt8) (htransport : firmware.transport = .uart rx)
      (hroom : rx.rxLen < 64) (hcomplete : Complete (received rx ++ [byte])) :
      Delivers firmware (.pollUart (some byte))
        ⟨received rx ++ [byte],
          (beNat (slice (received rx ++ [byte]) 2 4), getU8 (rx.rxBuf.toList.set rx.rxLen byte) 16)⟩

theorem Delivers.notification {firmware : Firmware} {input : FirmwareStep} {reception : Reception}
    (h : Delivers firmware input reception) :
    Notification reception.message ∧ reception.event.1 = beNat (slice reception.message 2 4) := by
  cases h with
  | datagram _ _ _ _ hvalid => exact ⟨hvalid, rfl⟩
  | frame _ _ _ _ hcomplete => exact ⟨hcomplete.toNotification, rfl⟩

/-- What a step can do. -/
inductive Effect (firmware : Firmware) (input : FirmwareStep) : Firmware → Prop where
  | tick : Effect firmware input firmware.tick
  | can : Effect firmware input firmware.canStep
  | wait (loop : LoopPc) (lastFind : Nat) (transport : Transport) :
      Effect firmware input
        { firmware with loop := loop, lastFind := lastFind, transport := transport }
  | accept (reception : Reception) (transport : Transport)
      (hreceive : firmware.threads.someip = .receive) (hdelivers : Delivers firmware input reception) :
      Effect firmware input
        ({ firmware with transport := transport }.accept reception.message reception.event)
  | advance (threads : Threads)
      (hthreads : firmware.threads.someipStep firmware.board.uptime = some threads)
      (hkick : firmware.threads.someip ≠ .kick) :
      Effect firmware input { firmware with threads := threads }
  | kick (hkick : firmware.threads.someip = .kick) (hkicking : firmware.kicking = .wdtFeed) :
      Effect firmware input
        { firmware with
          kicking := .timerStart
          board := kickFeed firmware.board
          kickedFor := firmware.kickedFor ++ [firmware.dispatching] }
  | timer (hkick : firmware.threads.someip = .kick) (hkicking : firmware.kicking = .timerStart) :
      Effect firmware input { firmware with kicking := .recover, board := kickTimer firmware.board }
  | recover (hkick : firmware.threads.someip = .kick) (hkicking : firmware.kicking = .recover) :
      Effect firmware input
        { firmware with
          threads := { firmware.threads with someip := .receive, kicks := firmware.threads.kicks + 1 }
          kicking := .wdtFeed
          board := kickRecover firmware.board
          dispatching := none }

theorem receiveUdp_effect (memory : Vector UInt8 64) (sendto : Outgoing → Int)
    (datagram : Option Bytes) {firmware : Firmware} (udp : SomeipUdp)
    (hpc : firmware.threads.someip = .receive) :
    Effect firmware (.receiveUdp memory sendto datagram)
      (firmware.receiveUdp memory sendto datagram udp) := by
  cases datagram with
  | none => exact .wait .findService firmware.lastFind _
  | some datagram =>
      rw [receiveUdp]
      cases hreceive : udp.someipUdpReceive memory sendto (some datagram) with
      | mk after event =>
          cases event with
          | none => exact .wait .findService firmware.lastFind (.udp after)
          | some event =>
              have hevent := congrArg Prod.snd hreceive
              have hlength : 17 ≤ datagram.length := by
                by_contra hshort
                rw [Udp.someipUdpReceive_eq, if_pos (by omega)] at hevent
                cases hevent
              obtain ⟨hvalid, rfl⟩ :=
                (Udp.someipUdpReceive_event_iff memory sendto udp hlength event).mp hevent
              exact .accept ⟨datagram, _⟩ (.udp after) hpc
                (.datagram memory sendto datagram hlength hvalid)

theorem pollUart_effect (byte : Option UInt8) {firmware : Firmware} {rx : UartRx}
    (htransport : firmware.transport = .uart rx) (hpc : firmware.threads.someip = .receive) :
    Effect firmware (.pollUart byte) (firmware.pollUart byte rx) := by
  cases byte with
  | none => exact .wait .receive firmware.lastFind firmware.transport
  | some byte =>
      rw [pollUart]
      cases hreceive : rx.receiveByte firmware.board.uptime byte with
      | mk after event =>
          cases event with
          | none => exact .wait firmware.loop firmware.lastFind (.uart after)
          | some event =>
              obtain ⟨hroom, hcomplete, rfl⟩ :=
                (receiveByte_event_iff rx _ byte event).mp (congrArg Prod.snd hreceive)
              exact .accept ⟨_, _⟩ (.uart after) hpc (.frame rx byte htransport hroom hcomplete)

theorem dispatch_effect {firmware next : Firmware} (h : firmware.dispatch = some next)
    (input : FirmwareStep) : Effect firmware input next := by
  rw [dispatch.eq_def] at h
  split at h
  next hpc hkicking =>
    cases h
    exact .kick hpc hkicking
  next hpc hkicking =>
    cases h
    exact .timer hpc hkicking
  next hpc hkicking =>
    rw [Threads.someipStep, hpc] at h
    cases h
    exact .recover hpc hkicking
  next hfeed htimer hrecover =>
    obtain ⟨threads, hthreads, rfl⟩ := Option.map_eq_some_iff.mp h
    refine .advance threads hthreads ?_
    intro hkick
    cases hkicking : firmware.kicking with
    | wdtFeed => exact hfeed hkick hkicking
    | timerStart => exact htimer hkick hkicking
    | recover => exact hrecover hkick hkicking

theorem dispatch_transport {firmware next : Firmware} (h : firmware.dispatch = some next) :
    next.transport = firmware.transport := by
  rw [dispatch.eq_def] at h
  split at h
  next =>
    cases h
    rfl
  next =>
    cases h
    rfl
  next =>
    obtain ⟨threads, -, rfl⟩ := Option.map_eq_some_iff.mp h
    rfl
  next =>
    obtain ⟨threads, -, rfl⟩ := Option.map_eq_some_iff.mp h
    rfl

theorem step_effect {firmware next : Firmware} {input : FirmwareStep}
    (h : firmware.step input = some next) : Effect firmware input next := by
  cases input with
  | tick =>
      cases h
      exact .tick
  | can =>
      cases h
      exact .can
  | dispatch => exact dispatch_effect h .dispatch
  | findService memory sendto =>
      simp only [step, findService] at h
      split_ifs at h <;> cases h
      · exact .wait .lastFind firmware.lastFind _
      · exact .wait .receive firmware.lastFind firmware.transport
  | lastFind =>
      simp only [step] at h
      split_ifs at h
      cases h
      exact .wait .receive firmware.uptime32 firmware.transport
  | receiveUdp memory sendto datagram =>
      simp only [step] at h
      split at h
      · split_ifs at h with hpc
        cases h
        exact receiveUdp_effect memory sendto datagram _ hpc.1
      · cases h
  | resyncUart =>
      simp only [step] at h
      split at h
      · split_ifs at h
        cases h
        exact .wait .poll firmware.lastFind _
      · cases h
  | pollUart byte =>
      simp only [step] at h
      split at h
      next rx htransport =>
        split_ifs at h with hpc
        cases h
        exact pollUart_effect byte htransport hpc.1
      · cases h

/-- A message that is completed is the one dispatched next. -/
theorem delivers_accepts {firmware next : Firmware} {input : FirmwareStep} {reception : Reception}
    (hdelivers : Delivers firmware input reception) (hstep : firmware.step input = some next) :
    next.dispatching = some reception := by
  cases hdelivers with
  | datagram memory sendto datagram hlength hvalid =>
      simp only [step] at hstep
      split at hstep
      next udp _ =>
        split_ifs at hstep
        cases hstep
        have hevent := (Udp.someipUdpReceive_event_iff memory sendto udp hlength _).mpr ⟨hvalid, rfl⟩
        rw [receiveUdp]
        generalize udp.someipUdpReceive memory sendto (some datagram) = answer at hevent
        obtain ⟨after, event⟩ := answer
        cases hevent
        rfl
      next => cases hstep
  | frame rx byte htransport hroom hcomplete =>
      simp only [step, htransport] at hstep
      split_ifs at hstep
      cases hstep
      have hevent :=
        (receiveByte_event_iff rx firmware.board.uptime byte _).mpr ⟨hroom, hcomplete, rfl⟩
      rw [pollUart]
      generalize rx.receiveByte firmware.board.uptime byte = answer at hevent
      obtain ⟨after, event⟩ := answer
      cases hevent
      rfl

/-! ### Whole runs -/

/-- `someip_thread` is between a message and its kick. -/
def Awaits (pc : SomeipPc) (dispatching : Option Reception) : Prop :=
  match pc with
  | .receive => dispatching = none
  | .heartbeat event => ∃ message, dispatching = some ⟨message, event⟩
  | .level event => ∃ message, dispatching = some ⟨message, event⟩
  | .kick => ∃ reception, dispatching = some reception

/-- Whatever `someip_thread` handles, and has called `safety_kick_watchdog` for, has a property. -/
structure Handles (property : Reception → Prop) (firmware : Firmware) : Prop where
  awaits : Awaits firmware.threads.someip firmware.dispatching
  kicking : firmware.kicking ≠ .wdtFeed →
    firmware.threads.someip = .kick ∧ firmware.dispatching ∈ firmware.kickedFor
  handled : ∀ reception ∈ firmware.dispatching, property reception
  kicked : ∀ kick ∈ firmware.kickedFor, ∃ reception, kick = some reception ∧ property reception

/-- Every message that is completed has a property. -/
def DeliversOnly (property : Reception → Prop) (firmware : Firmware) (input : FirmwareStep) : Prop :=
  ∀ reception, Delivers firmware input reception → property reception

theorem start_handles (property : Reception → Prop) (wdtReady : Bool) (transport : Transport) :
    Handles property (start wdtReady transport) where
  awaits := rfl
  kicking h := absurd rfl h
  handled := by
    intro reception h
    cases h
  kicked := by
    intro kick h
    cases h

theorem canStep_someip (threads : Threads) : threads.canStep.someip = threads.someip := by
  unfold Threads.canStep
  split <;> rfl

theorem awaits_someipStep {threads next : Threads} {uptime : Nat} {dispatching : Option Reception}
    (h : Awaits threads.someip dispatching) (hkick : threads.someip ≠ .kick)
    (hnext : threads.someipStep uptime = some next) : Awaits next.someip dispatching := by
  unfold Threads.someipStep at hnext
  split at hnext
  next => cases hnext
  next event hpc =>
    cases hnext
    rw [hpc] at h
    exact h
  next event hpc =>
    cases hnext
    rw [hpc] at h
    obtain ⟨message, hmessage⟩ := h
    exact ⟨_, hmessage⟩
  next hpc => exact absurd hpc hkick

theorem effect_handles {property : Reception → Prop} {firmware next : Firmware} {input : FirmwareStep}
    (h : Handles property firmware) (hdelivers : DeliversOnly property firmware input)
    (heffect : Effect firmware input next) : Handles property next := by
  cases heffect with
  | tick =>
      obtain ⟨gateway, warnings, htick, -⟩ := firmware.tick_eq
      rw [htick]
      exact ⟨h.awaits, h.kicking, h.handled, h.kicked⟩
  | can =>
      have hpc : firmware.canStep.threads.someip = firmware.threads.someip :=
        canStep_someip firmware.threads
      exact ⟨hpc.symm ▸ h.awaits, hpc.symm ▸ h.kicking, h.handled, h.kicked⟩
  | wait loop lastFind transport => exact ⟨h.awaits, h.kicking, h.handled, h.kicked⟩
  | accept reception transport hreceive hreception =>
      refine ⟨⟨reception.message, rfl⟩, ?_, ?_, h.kicked⟩
      · intro hkicking
        have hpc := (h.kicking hkicking).1
        rw [hreceive] at hpc
        cases hpc
      · intro handled hhandled
        cases hhandled
        exact hdelivers reception hreception
  | advance threads hthreads hkick =>
      refine ⟨awaits_someipStep h.awaits hkick hthreads, ?_, h.handled, h.kicked⟩
      intro hkicking
      exact absurd (h.kicking hkicking).1 hkick
  | kick hkick hkicking =>
      refine ⟨h.awaits, fun _ => ⟨hkick, List.mem_append_right _ List.mem_cons_self⟩, h.handled, ?_⟩
      intro kick hmem
      rcases List.mem_append.mp hmem with hearlier | hlast
      · exact h.kicked kick hearlier
      · have hawaits := h.awaits
        rw [hkick] at hawaits
        obtain ⟨reception, hdispatching⟩ := hawaits
        exact ⟨reception, (List.mem_singleton.mp hlast).trans hdispatching,
          h.handled reception hdispatching⟩
  | timer hkick hkicking =>
      refine ⟨h.awaits, fun _ => h.kicking ?_, h.handled, h.kicked⟩
      rw [hkicking]
      decide
  | recover hkick hkicking =>
      refine ⟨rfl, fun hwaiting => absurd rfl hwaiting, ?_, h.kicked⟩
      intro handled hhandled
      cases hhandled

/-- What is delivered along a run is what is handled in it. -/
theorem run_handles {property : Reception → Prop} {wdtReady : Bool} {transport : Transport}
    {steps : List FirmwareStep} {last : Firmware}
    (hdelivers : Along step (DeliversOnly property) (start wdtReady transport) steps)
    (hrun : exec step (start wdtReady transport) steps = some last) : Handles property last :=
  hdelivers.exec_induction (start_handles property wdtReady transport)
    (fun _ _ _ hhandles honly hstep => effect_handles hhandles honly (step_effect hstep)) hrun

/-- `safety_kick_watchdog` has been called for the message, or will be when it has been dispatched. -/
def Kicks (reception : Reception) (firmware : Firmware) : Prop :=
  some reception ∈ firmware.kickedFor ∨ firmware.dispatching = some reception

theorem effect_kicks {reception : Reception} {firmware next : Firmware} {input : FirmwareStep}
    (hhandles : Handles (fun _ => True) firmware) (h : Kicks reception firmware)
    (heffect : Effect firmware input next) : Kicks reception next := by
  cases heffect with
  | tick =>
      obtain ⟨gateway, warnings, htick, -⟩ := firmware.tick_eq
      rw [htick]
      exact h
  | can => exact h
  | wait loop lastFind transport => exact h
  | accept later transport hreceive hlater =>
      have hawaits := hhandles.awaits
      rw [hreceive] at hawaits
      rcases h with hkicked | hdispatching
      · exact .inl hkicked
      · exact absurd (hawaits.symm.trans hdispatching) (by simp)
  | advance threads hthreads hkick => exact h
  | kick hkick hkicking =>
      rcases h with hkicked | hdispatching
      · exact .inl (List.mem_append_left _ hkicked)
      · exact .inr hdispatching
  | timer hkick hkicking => exact h
  | recover hkick hkicking =>
      left
      rcases h with hkicked | hdispatching
      · exact hkicked
      · rw [← hdispatching]
        exact (hhandles.kicking (by rw [hkicking]; decide)).2

/-- No message that a run completes goes without its kick. -/
theorem run_kicks {wdtReady : Bool} {transport : Transport} {steps : List FirmwareStep}
    {last : Firmware} (hrun : exec step (start wdtReady transport) steps = some last) :
    Along step (DeliversOnly fun reception => Kicks reception last) (start wdtReady transport)
      steps := by
  refine exec_induction (start wdtReady transport) (fun steps last =>
    Along step (DeliversOnly fun reception => Kicks reception last) (start wdtReady transport) steps)
    ?_ ?_ steps last hrun
  · intro front input mid hfront
    have hlength := hfront.length_le
    simp at hlength
  · intro steps mid input last hmid halong hstep front earlier state hfront hstate reception hdelivers
    rcases List.prefix_concat_iff.mp hfront with heq | hshorter
    · obtain ⟨rfl, hinput⟩ := List.append_inj' heq rfl
      rw [hmid] at hstate
      cases hstate
      cases hinput
      exact .inr (delivers_accepts hdelivers hstep)
    · have hhandles : Handles (fun _ => True) mid :=
        run_handles (fun _ _ _ _ _ _ _ => trivial) hmid
      exact effect_kicks hhandles (halong front earlier state hshorter hstate reception hdelivers)
        (step_effect hstep)

/-! ### One event -/

/-- A datagram as the MPU sends it, with a method id of 0x8000 and up. -/
def eventDatagram (methodId payload : UInt8) : Bytes :=
  [0x12, 0x34, 0x80, methodId, 0, 0, 0, 9, 0, 1, 0, 1, 1, 1, 2, 0, payload, 0, 0, 0, 0, 0, 0, 0]

/-- The datagram is received, its event is dispatched, and `can_thread` looks at the level. -/
def eventRun (datagram : Bytes) : List FirmwareStep :=
  [.findService (Vector.replicate 64 0) (fun _ => 0),
    .receiveUdp (Vector.replicate 64 0) (fun _ => 0) (some datagram),
    .dispatch, .dispatch, .dispatch, .dispatch, .dispatch, .can, .can]

theorem along_eventRun {property : Reception → Prop} {firmware : Firmware} {datagram : Bytes}
    (h : property ⟨datagram, (beNat (slice datagram 2 4), getU8 datagram 16)⟩) :
    Along step (DeliversOnly property) firmware (eventRun datagram) := by
  apply along_of_forall
  intro input hinput mid reception hdelivers
  cases hdelivers with
  | datagram memory sendto received _ _ =>
      simp [eventRun] at hinput
      rw [hinput.2.2]
      exact h
  | frame rx byte _ _ _ => simp [eventRun] at hinput

end Firmware

end SdvZone.Mcu
