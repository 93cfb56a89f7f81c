import SdvZone.EventOrder

/-! The MCU over the UART. The bytes that `someip_uart_receive` polls in a run, with the buffer cleared
where the run lets 50 ms pass, are a run of the framer: its buffer is the received part of `rx_buf`, and
its frames are the messages returned. -/

namespace SdvZone.Mcu.Firmware

open Wire Machine Uart

/-- The bytes that `uart_poll_in` yields. -/
def polled : FirmwareStep → Bytes
  | .pollUart (some byte) => [byte]
  | _ => []

/-- The line as the receiver takes it: the bytes it polls, and `none` where the check of the clock clears
the buffer. -/
def lineRead (firmware : Firmware) : FirmwareStep → List (Option UInt8)
  | .resyncUart =>
      match firmware.transport with
      | .uart rx => if 0 < rx.rxLen ∧ 50 < firmware.board.uptime - rx.lastRxTick then [none] else []
      | .udp _ => []
  | .pollUart (some byte) => [some byte]
  | _ => []

theorem lineRead_polled (firmware : Firmware) (input : FirmwareStep) :
    (firmware.lineRead input).reduceOption = polled input := by
  cases input with
  | resyncUart =>
      rw [lineRead]
      split
      · split <;> rfl
      · rfl
  | pollUart byte => cases byte <;> rfl
  | tick | can | findService | lastFind | receiveUdp | dispatch => rfl

/-- The receiver and the messages it has returned come from a run of the framer over the line. -/
def Scanned (inputs : List (Option UInt8)) (messages : List Reception) (transport : Transport) : Prop :=
  ∃ rx, transport = .uart rx ∧ Gathering rx ∧ (scanFrames [] inputs).1 = received rx ∧
    List.Forall₂ SameEvent (messages.map Reception.event) (scanFrames [] inputs).2

theorem scanned_init : Scanned [] [] (.uart .init) := ⟨.init, rfl, (by decide : 0 < 40), rfl, .nil⟩

/-- The check of the clock is a resynchronisation of the framer, or nothing. -/
theorem Scanned.resync {inputs : List (Option UInt8)} {messages : List Reception} {rx : UartRx}
    (h : Scanned inputs messages (.uart rx)) (now : ℕ) :
    Scanned (inputs ++ if 0 < rx.rxLen ∧ 50 < now - rx.lastRxTick then [none] else []) messages
      (.uart (rx.resync now)) := by
  obtain ⟨same, hsame, hgather, hbuffer, hevents⟩ := h
  cases hsame
  obtain ⟨hgathers, hreceived⟩ := resync_refines rx now hgather
  refine ⟨_, rfl, hgathers, ?_⟩
  rw [hreceived]
  split
  · rw [scanFrames, Framer.scan, react_snoc]
    refine ⟨rfl, ?_⟩
    simp only [Framer.step, Option.toList_none, List.append_nil]
    exact hevents
  · rw [List.append_nil]
    exact ⟨hbuffer, hevents⟩

/-- A byte is a step of the framer. -/
theorem Scanned.receiveByte {inputs : List (Option UInt8)} {messages : List Reception} {rx : UartRx}
    (h : Scanned inputs messages (.uart rx)) (now : ℕ) (byte : UInt8) (message : Bytes) :
    Scanned (inputs ++ [some byte])
      (messages ++ (rx.receiveByte now byte).2.toList.map (.mk message)) (.uart (rx.receiveByte now byte).1) := by
  obtain ⟨same, hsame, hgather, hbuffer, hevents⟩ := h
  cases hsame
  obtain ⟨hgathers, hstep, hframe⟩ := receiveByte_refines rx now byte hgather
  refine ⟨_, rfl, hgathers, ?_, ?_⟩
  · rw [scanFrames, Framer.scan, react_snoc]
    show (Framer.step frameVerdict (scanFrames [] inputs).1 (some byte)).1 = _
    rw [hbuffer, hstep]
  · rw [scanFrames, Framer.scan, react_snoc, List.map_append, List.map_map]
    refine List.rel_append hevents ?_
    show List.Forall₂ SameEvent (List.map id _)
      (Framer.step frameVerdict (scanFrames [] inputs).1 (some byte)).2.toList
    rw [hbuffer, List.map_id]
    exact hframe

theorem step_scanned {firmware next : Firmware} {input : FirmwareStep} {inputs : List (Option UInt8)}
    {messages : List Reception} (h : Scanned inputs messages firmware.transport)
    (hstep : firmware.step input = some next) :
    Scanned (inputs ++ firmware.lineRead input) (messages ++ firmware.returned input) next.transport := by
  obtain ⟨rx, htransport⟩ : ∃ rx, firmware.transport = .uart rx := ⟨_, h.choose_spec.1⟩
  rw [htransport] at h
  have hkept : next.transport = firmware.transport →
      Scanned (inputs ++ []) (messages ++ []) next.transport := by
    intro hsame
    rw [hsame, htransport, List.append_nil, List.append_nil]
    exact h
  cases input with
  | tick =>
      apply hkept
      cases hstep
      obtain ⟨gateway, warnings, htick, -⟩ := firmware.tick_eq
      rw [htick]
  | can =>
      cases hstep
      exact hkept rfl
  | dispatch => exact hkept (dispatch_transport hstep)
  | findService memory sendto =>
      obtain ⟨-, hnext⟩ := Option.ite_none_right_eq_some.mp hstep
      cases hnext
      apply hkept
      rw [findService]
      split
      · show sendFind memory sendto firmware.transport = firmware.transport
        rw [htransport]
        rfl
      · rfl
  | lastFind =>
      obtain ⟨-, hnext⟩ := Option.ite_none_right_eq_some.mp hstep
      cases hnext
      exact hkept rfl
  | receiveUdp memory sendto datagram =>
      rw [step, htransport] at hstep
      cases hstep
  | resyncUart =>
      rw [step, htransport] at hstep
      obtain ⟨-, hnext⟩ := Option.ite_none_right_eq_some.mp hstep
      cases hnext
      rw [lineRead, htransport]
      show Scanned _ (messages ++ []) (.uart (rx.resync firmware.board.uptime))
      rw [List.append_nil]
      exact h.resync _
  | pollUart byte =>
      rw [step, htransport] at hstep
      obtain ⟨-, hnext⟩ := Option.ite_none_right_eq_some.mp hstep
      cases hnext
      cases byte with
      | none =>
          apply hkept
          rfl
      | some byte =>
          have hafter : (firmware.pollUart (some byte) rx).transport =
              .uart (rx.receiveByte firmware.board.uptime byte).1 := by
            rw [pollUart]
            cases rx.receiveByte firmware.board.uptime byte with
            | mk after event => cases event <;> rfl
          rw [lineRead, returned, htransport, hafter]
          exact h.receiveByte _ byte _

/-- The messages that a run returns are the frames of the line. -/
theorem run_scanned {wdtReady : Bool} {steps : List FirmwareStep} {last : Firmware}
    (hrun : exec step (start wdtReady (.uart .init)) steps = some last) :
    Scanned (observe step lineRead (start wdtReady (.uart .init)) steps)
      (observe step returned (start wdtReady (.uart .init)) steps) last.transport := by
  refine exec_induction (start wdtReady (.uart .init)) (fun steps last =>
    Scanned (observe step lineRead (start wdtReady (.uart .init)) steps)
      (observe step returned (start wdtReady (.uart .init)) steps) last.transport) scanned_init ?_ steps last hrun
  intro steps mid input last hmid hbefore hstep
  rw [observe_snoc lineRead hmid, observe_snoc returned hmid]
  exact step_scanned hbefore hstep

/-- The bytes of the line are those polled. -/
theorem run_polled {wdtReady : Bool} {steps : List FirmwareStep} {last : Firmware}
    (hrun : exec step (start wdtReady (.uart .init)) steps = some last) :
    (observe step lineRead (start wdtReady (.uart .init)) steps).reduceOption = steps.flatMap polled := by
  refine exec_induction (start wdtReady (.uart .init)) (fun steps _ =>
    (observe step lineRead (start wdtReady (.uart .init)) steps).reduceOption = steps.flatMap polled)
    rfl ?_ steps last hrun
  intro steps mid input last hmid hbefore _
  rw [observe_snoc lineRead hmid, List.reduceOption_append, List.flatMap_append, List.flatMap_singleton,
    hbefore, lineRead_polled]

end SdvZone.Mcu.Firmware
