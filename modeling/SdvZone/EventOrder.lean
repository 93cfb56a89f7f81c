import SdvZone.FirmwareRuns

/-! Every message is handled once, and in its turn. What `someip_receive` hands over has been kicked for
or is still in the hands of `someip_thread`; what `someip_thread` stores has been sent, is in the hands
of `can_thread`, or has been overwritten. Both are laws of conservation: each step moves its message or
its level from one place to the next. -/

namespace SdvZone.Mcu

open Wire Machine Uart

/-- The level that an event brings. -/
def UartEvent.notified (event : UartEvent) : List ℕ :=
  if event.1 = eventNotify then [event.2.toNat] else []

/-- The level `can_thread` will send unless another one is stored before it looks. -/
def Threads.inHand (threads : Threads) : List ℕ :=
  match threads.can with
  | .send level => [level]
  | .clear => []
  | .get | .sleep => if 0 < threads.shared.drowsinessLevel then [threads.shared.drowsinessLevel] else []

/-- The level `someip_thread` has still to store. -/
def Threads.unstored (threads : Threads) : List ℕ :=
  match threads.someip with
  | .heartbeat event | .level event => event.notified
  | .receive | .kick => []

namespace Firmware

/-- What `someip_receive` returns with in a step. -/
def returned (firmware : Firmware) : FirmwareStep → List Reception
  | .receiveUdp memory sendto (some datagram) =>
      match firmware.transport with
      | .udp udp => (udp.someipUdpReceive memory sendto (some datagram)).2.toList.map (.mk datagram)
      | .uart _ => []
  | .pollUart (some byte) =>
      match firmware.transport with
      | .uart rx =>
          (rx.receiveByte firmware.board.uptime byte).2.toList.map (.mk (received rx ++ [byte]))
      | .udp _ => []
  | _ => []

/-- The message whose kick has still to come. -/
def unkicked (firmware : Firmware) : List (Option Reception) :=
  match firmware.kicking with
  | .wdtFeed => firmware.dispatching.toList.map some
  | .timerStart | .recover => []

/-- The levels that `can_thread` has sent. -/
def levelsSent (firmware : Firmware) : List ℕ :=
  (firmware.transmissions.filter fun transmission => transmission.sender = .canThread).map
    fun transmission => transmission.level.toNat

/-! ### Messages -/

/-- What becomes of a message that comes in, or of the state when none does. -/
inductive Turn (firmware : Firmware) : List Reception → Firmware → Prop where
  | quiet {next : Firmware} (input : FirmwareStep)
      (hsilent : ∀ reception, ¬Delivers firmware input reception) (heffect : Effect firmware input next) :
      Turn firmware [] next
  | accept (reception : Reception) (transport : Transport) (hpc : firmware.threads.someip = .receive) :
      Turn firmware [reception]
        ({ firmware with transport := transport }.accept reception.message reception.event)

theorem Turn.wait (firmware : Firmware) (loop : LoopPc) (transport : Transport) :
    Turn firmware [] { firmware with loop := loop, transport := transport } := by
  refine .quiet .tick ?_ (.wait loop firmware.lastFind transport)
  intro reception hdelivers
  cases hdelivers

theorem receiveUdp_turn (firmware : Firmware) (hpc : firmware.threads.someip = .receive)
    (memory : Vector UInt8 64) (sendto : Outgoing → Int) (datagram : Bytes) (udp : SomeipUdp) :
    Turn firmware ((udp.someipUdpReceive memory sendto (some datagram)).2.toList.map (.mk datagram))
      (firmware.receiveUdp memory sendto (some datagram) udp) := by
  rw [receiveUdp]
  cases udp.someipUdpReceive memory sendto (some datagram) with
  | mk after event =>
      cases event with
      | none => exact .wait firmware .findService (.udp after)
      | some event => exact .accept ⟨datagram, event⟩ (.udp after) hpc

theorem pollUart_turn (firmware : Firmware) (hpc : firmware.threads.someip = .receive) (byte : UInt8)
    (rx : UartRx) :
    Turn firmware ((rx.receiveByte firmware.board.uptime byte).2.toList.map (.mk (received rx ++ [byte])))
      (firmware.pollUart (some byte) rx) := by
  rw [pollUart]
  cases rx.receiveByte firmware.board.uptime byte with
  | mk after event =>
      cases event with
      | none => exact .wait firmware firmware.loop (.uart after)
      | some event => exact .accept ⟨received rx ++ [byte], event⟩ (.uart after) hpc

theorem step_turn {firmware next : Firmware} {input : FirmwareStep} (hstep : firmware.step input = some next) :
    Turn firmware (firmware.returned input) next := by
  cases input with
  | receiveUdp memory sendto datagram =>
      simp only [step] at hstep
      split at hstep
      next udp htransport =>
        split_ifs at hstep with hpc
        cases hstep
        cases datagram with
        | none => exact .wait firmware .findService (.udp (udp.someipUdpReceive memory sendto none).1)
        | some datagram =>
            rw [returned, htransport]
            exact receiveUdp_turn firmware hpc.1 memory sendto datagram udp
      next => cases hstep
  | pollUart byte =>
      simp only [step] at hstep
      split at hstep
      next rx htransport =>
        split_ifs at hstep with hpc
        cases hstep
        cases byte with
        | none => exact .wait firmware .receive firmware.transport
        | some byte =>
            rw [returned, htransport]
            exact pollUart_turn firmware hpc.1 byte rx
      next => cases hstep
  | tick | can | findService | lastFind | resyncUart | dispatch =>
      refine .quiet _ ?_ (step_effect hstep)
      intro reception hdelivers
      cases hdelivers

/-- A step hands over the messages, and passes on the others. -/
def Passes (firmware next : Firmware) (messages : List Reception) : Prop :=
  next.kickedFor ++ next.unkicked = firmware.kickedFor ++ firmware.unkicked ++ messages.map some

/-- While `someip_thread` waits for a message none is in its hands. -/
theorem unkicked_receive {property : Reception → Prop} {firmware : Firmware}
    (h : Handles property firmware) (hpc : firmware.threads.someip = .receive) :
    firmware.unkicked = [] := by
  have hawaits := h.awaits
  rw [hpc] at hawaits
  rw [unkicked, show firmware.dispatching = none from hawaits]
  cases firmware.kicking <;> rfl

theorem kicking_receive {property : Reception → Prop} {firmware : Firmware}
    (h : Handles property firmware) (hpc : firmware.threads.someip = .receive) :
    firmware.kicking = .wdtFeed := by
  by_contra hkicking
  have hkick := (h.kicking hkicking).1
  rw [hpc] at hkick
  cases hkick

/-- Steps that complete no message. -/
theorem effect_passes {property : Reception → Prop} {firmware next : Firmware} {input : FirmwareStep}
    (h : Handles property firmware) (hsilent : ∀ reception, ¬Delivers firmware input reception)
    (heffect : Effect firmware input next) : Passes firmware next [] := by
  rw [Passes, List.map_nil, List.append_nil]
  cases heffect with
  | tick =>
      obtain ⟨gateway, warnings, htick, -⟩ := firmware.tick_eq
      rw [htick]
      rfl
  | can | wait | advance => rfl
  | accept reception transport hreceive hdelivers => exact absurd hdelivers (hsilent reception)
  | kick hkick hkicking =>
      have hawaits := h.awaits
      rw [hkick] at hawaits
      obtain ⟨reception, hdispatching⟩ := hawaits
      simp only [unkicked, hkicking, hdispatching, List.append_nil]
      rfl
  | timer hkick hkicking =>
      simp only [unkicked, hkicking]
  | recover hkick hkicking =>
      simp only [unkicked, hkicking]
      rfl

/-- The message that comes in is the one in hand. -/
theorem accept_passes {property : Reception → Prop} {firmware : Firmware} (h : Handles property firmware)
    (hpc : firmware.threads.someip = .receive) (transport : Transport) (reception : Reception) :
    Passes firmware ({ firmware with transport := transport }.accept reception.message reception.event)
      [reception] := by
  have hkicking := kicking_receive h hpc
  rw [Passes, unkicked_receive h hpc]
  simp only [unkicked, accept, hkicking, List.append_nil]
  rfl

/-- In a run every message that has been returned has been passed on. -/
theorem run_passes {wdtReady : Bool} {transport : Transport} {steps : List FirmwareStep} {last : Firmware}
    (hrun : exec step (start wdtReady transport) steps = some last) :
    Passes (start wdtReady transport) last (observe step returned (start wdtReady transport) steps) := by
  refine exec_induction (start wdtReady transport) (fun steps last =>
    Passes (start wdtReady transport) last (observe step returned (start wdtReady transport) steps))
    rfl ?_ steps last hrun
  intro steps mid input last hmid hbefore hstep
  have hhandles : Handles (fun _ => True) mid := run_handles (fun _ _ _ _ _ _ _ => trivial) hmid
  rw [observe_snoc returned hmid, Passes, List.map_append, ← List.append_assoc, ← hbefore]
  have hturn := step_turn hstep
  generalize mid.returned input = messages at hturn
  cases hturn with
  | quiet silent hsilent heffect => exact effect_passes hhandles hsilent heffect
  | accept reception transport hpc => exact accept_passes hhandles hpc transport reception

/-- A message that is completed is among those returned. -/
theorem run_returned {wdtReady : Bool} {transport : Transport} {steps : List FirmwareStep} {last : Firmware}
    (hrun : exec step (start wdtReady transport) steps = some last) :
    Along step (DeliversOnly fun reception =>
      reception ∈ observe step returned (start wdtReady transport) steps) (start wdtReady transport) steps := by
  refine (run_kicks hrun).mono ?_
  intro firmware input honly reception hdelivers
  have hhandles : Handles (fun _ => True) last := run_handles (fun _ _ _ _ _ _ _ => trivial) hrun
  have hpasses : last.kickedFor ++ last.unkicked =
      (observe step returned (start wdtReady transport) steps).map some := run_passes hrun
  suffices hpassed : some reception ∈ last.kickedFor ++ last.unkicked by
    rw [hpasses] at hpassed
    exact (List.mem_map_of_injective (Option.some_injective _)).mp hpassed
  rcases honly reception hdelivers with hkicked | hdispatching
  · exact List.mem_append_left _ hkicked
  · by_cases hkicking : last.kicking = .wdtFeed
    · apply List.mem_append_right
      rw [unkicked, hkicking, hdispatching]
      exact List.mem_singleton.mpr rfl
    · apply List.mem_append_left
      rw [← hdispatching]
      exact (hhandles.kicking hkicking).2

/-- `safety_kick_watchdog` is called once for each message for which `someip_receive` has returned 0, in
the order in which it has; only the call for the last message may still be to come. -/
theorem kicked_in_order (wdtReady : Bool) (transport : Transport) (steps : List FirmwareStep)
    (last : Firmware) (hrun : exec step (start wdtReady transport) steps = some last) :
    last.kickedFor ++ last.unkicked =
        (observe step returned (start wdtReady transport) steps).map some ∧
      last.unkicked.length ≤ 1 := by
  refine ⟨run_passes hrun, ?_⟩
  rw [unkicked]
  cases last.kicking with
  | wdtFeed => cases last.dispatching <;> simp
  | timerStart | recover => exact Nat.zero_le 1

theorem kicked_in_order_notify :
    ∃ last, exec step (start true (.udp .static)) (eventRun (eventDatagram 1 85)) = some last ∧
      (last.kickedFor ++ last.unkicked = (observe step returned (start true (.udp .static))
          (eventRun (eventDatagram 1 85))).map some ∧
        last.unkicked.length ≤ 1) :=
  ⟨_, rfl, kicked_in_order true (.udp .static) (eventRun (eventDatagram 1 85)) _ rfl⟩

/-! ### Levels -/

/-- The levels that have been sent and that are on their way, in the order in which they came. -/
def levelsHeld (firmware : Firmware) : List ℕ :=
  firmware.levelsSent ++ firmware.threads.inHand ++ firmware.threads.unstored

theorem levelsSent_warnings (firmware : Firmware) {warnings : List Transmission}
    (h : ∀ transmission ∈ warnings, SafeWarning transmission) (threads : Threads) (board : Board) :
    levelsSent { firmware with
      threads := threads, board := board, transmissions := firmware.transmissions ++ warnings } =
        firmware.levelsSent := by
  have hnone : warnings.filter (fun transmission => transmission.sender = .canThread) = [] := by
    apply List.filter_eq_nil_iff.mpr
    intro transmission hmem
    rw [(h transmission hmem).1]
    decide
  rw [levelsSent, List.filter_append, hnone, List.append_nil]
  rfl

/-- `can_thread` sends the level it has read, or drops it: nothing comes to the bus from elsewhere. -/
theorem canStep_held (firmware : Firmware)
    (hbyte : ∀ level ∈ firmware.threads.inHand, level < 256) :
    firmware.canStep.levelsSent ++ firmware.canStep.threads.inHand =
      firmware.levelsSent ++ firmware.threads.inHand := by
  obtain ⟨⟨can, someip, shared, gateway, accesses, kicks⟩, loop, lastFind, transport, kicking, board,
    dispatching, kickedFor, transmissions⟩ := firmware
  cases can with
  | get =>
      by_cases hlevel : 0 < shared.drowsinessLevel
      · simp only [canStep, Threads.canStep, levelsSent, Threads.inHand, if_pos hlevel]
      · simp only [canStep, Threads.canStep, levelsSent, Threads.inHand, if_neg hlevel]
  | send level =>
      have hlevel : (UInt8.ofNat level).toNat = level :=
        UInt8.toNat_ofNat_of_lt' (hbyte level List.mem_cons_self)
      simp only [canStep, Threads.canStep, canSend, levelsSent, Threads.inHand, List.filter_append,
        List.map_append, List.append_nil]
      rw [List.filter_cons_of_pos (by simp), List.filter_nil, List.map_singleton]
      exact congrArg (fun sent => _ ++ [sent]) hlevel
  | clear => rfl
  | sleep => rfl

/-- A level that is stored takes the place of the one before. -/
theorem someipStep_held {threads next : Threads} {uptime : ℕ}
    (h : threads.someipStep uptime = some next) :
    (next.inHand ++ next.unstored).Sublist (threads.inHand ++ threads.unstored) := by
  obtain ⟨can, someip, shared, gateway, accesses, kicks⟩ := threads
  cases someip with
  | receive => cases h
  | heartbeat event =>
      cases h
      exact List.Sublist.refl _
  | level event =>
      cases h
      by_cases hnotify : event.1 = eventNotify
      · simp only [Threads.inHand, Threads.unstored, Shared.storeLevel, UartEvent.notified,
          if_pos hnotify, List.append_nil]
        cases can with
        | get | sleep =>
            refine List.Sublist.trans ?_ (List.sublist_append_right _ _)
            show (if 0 < event.2.toNat then [event.2.toNat] else []).Sublist [event.2.toNat]
            split
            · exact List.Sublist.refl _
            · exact List.nil_sublist _
        | send level => exact List.sublist_append_left _ _
        | clear => exact List.nil_sublist _
      · simp only [Threads.inHand, Threads.unstored, Shared.storeLevel, UartEvent.notified,
          if_neg hnotify]
        exact List.Sublist.refl _
  | kick =>
      cases h
      exact List.Sublist.refl _

/-- The levels that messages bring. -/
def notifiedLevels (messages : List Reception) : List ℕ :=
  messages.flatMap fun reception => reception.event.notified

/-- Levels are bytes. -/
theorem lt_of_mem_notifiedLevels {messages : List Reception} {level : ℕ}
    (h : level ∈ notifiedLevels messages) : level < 256 := by
  obtain ⟨reception, -, hlevel⟩ := List.mem_flatMap.mp h
  rw [UartEvent.notified] at hlevel
  split at hlevel
  · rw [List.mem_singleton.mp hlevel]
    exact reception.event.2.toNat_lt
  · cases hlevel

/-- Whatever is held has been brought, in the same order. -/
def Holds (firmware : Firmware) (messages : List Reception) : Prop :=
  firmware.levelsHeld.Sublist (notifiedLevels messages)

theorem effect_holds {firmware next : Firmware} {input : FirmwareStep} {messages : List Reception}
    (h : Holds firmware messages) (hsilent : ∀ reception, ¬Delivers firmware input reception)
    (heffect : Effect firmware input next) : Holds next messages := by
  cases heffect with
  | tick =>
      obtain ⟨gateway, warnings, htick, hwarnings⟩ := firmware.tick_eq
      rw [htick, Holds, levelsHeld, levelsSent_warnings firmware hwarnings]
      exact h
  | can =>
      have hbyte : ∀ level ∈ firmware.threads.inHand, level < 256 := by
        intro level hlevel
        apply lt_of_mem_notifiedLevels
        apply h.subset
        exact List.mem_append_left _ (List.mem_append_right _ hlevel)
      have hunstored : firmware.canStep.threads.unstored = firmware.threads.unstored := by
        rw [Threads.unstored, Threads.unstored,
          show firmware.canStep.threads.someip = firmware.threads.someip from canStep_someip firmware.threads]
      rw [Holds, levelsHeld, canStep_held firmware hbyte, hunstored]
      exact h
  | accept reception transport hreceive hdelivers => exact absurd hdelivers (hsilent reception)
  | advance threads hthreads hkick =>
      rw [Holds, levelsHeld, List.append_assoc] at h ⊢
      exact (List.Sublist.append_left (someipStep_held hthreads) _).trans h
  | recover hkick hkicking =>
      have hunstored : firmware.threads.unstored = [] := by rw [Threads.unstored, hkick]
      rw [Holds, levelsHeld, hunstored] at h
      exact h
  | wait | kick | timer => exact h

/-- A message that comes in brings its level. -/
theorem accept_holds {firmware : Firmware} {messages : List Reception} (h : Holds firmware messages)
    (hpc : firmware.threads.someip = .receive) (transport : Transport) (reception : Reception) :
    Holds ({ firmware with transport := transport }.accept reception.message reception.event)
      (messages ++ [reception]) := by
  have hunstored : firmware.threads.unstored = [] := by rw [Threads.unstored, hpc]
  rw [Holds, levelsHeld, hunstored, List.append_nil] at h
  rw [Holds, notifiedLevels, List.flatMap_append, List.flatMap_singleton]
  exact List.Sublist.append_right h _

theorem turn_holds {firmware next : Firmware} {messages returned : List Reception} (h : Holds firmware messages)
    (hturn : Turn firmware returned next) : Holds next (messages ++ returned) := by
  cases hturn with
  | quiet input hsilent heffect =>
      rw [List.append_nil]
      exact effect_holds h hsilent heffect
  | accept reception transport hpc => exact accept_holds h hpc transport reception

theorem run_holds {wdtReady : Bool} {transport : Transport} {steps : List FirmwareStep} {last : Firmware}
    (hrun : exec step (start wdtReady transport) steps = some last) :
    Holds last (observe step returned (start wdtReady transport) steps) := by
  refine exec_induction (start wdtReady transport) (fun steps last =>
    Holds last (observe step returned (start wdtReady transport) steps)) (List.nil_sublist _) ?_ steps last hrun
  intro steps mid input last hmid hbefore hstep
  rw [observe_snoc returned hmid]
  exact turn_holds hbefore (step_turn hstep)

theorem Holds.sent {firmware : Firmware} {messages : List Reception} (h : Holds firmware messages) :
    firmware.levelsSent.Sublist (notifiedLevels messages) := by
  rw [Holds, levelsHeld, List.append_assoc] at h
  exact (List.sublist_append_left _ _).trans h

/-- `can_thread` sends each level that `someip_receive` hands over at most once, and the levels in the
order in which they came, however the threads interleave. -/
theorem levels_in_order (wdtReady : Bool) (transport : Transport) (steps : List FirmwareStep)
    (last : Firmware) (hrun : exec step (start wdtReady transport) steps = some last) :
    last.levelsSent.Sublist
      (notifiedLevels (observe step returned (start wdtReady transport) steps)) :=
  (run_holds hrun).sent

theorem levels_in_order_notify :
    ∃ last, exec step (start true (.udp .static)) (eventRun (eventDatagram 1 85)) = some last ∧
      last.levelsSent = [85] ∧ last.levelsSent.Sublist (notifiedLevels
        (observe step returned (start true (.udp .static)) (eventRun (eventDatagram 1 85)))) :=
  ⟨_, rfl, rfl, levels_in_order true (.udp .static) (eventRun (eventDatagram 1 85)) _ rfl⟩

end Firmware

end SdvZone.Mcu
