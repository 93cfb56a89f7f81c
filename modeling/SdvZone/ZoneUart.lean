import Mathlib.Data.List.Flatten
import SdvZone.UartFirmware
import SdvZone.WireReports
import SdvZone.ZoneUdp

/-! MPU and MCU over the UART. The line carries the bytes that the serial device has taken, in order and
without loss; how far the MCU has read, and when it looks at the clock, is open. Each call of `write`
hands over its packet in one piece. -/

namespace SdvZone.Mpu

open Wire

namespace MpuProcess

/-- The device has taken each packet as a whole, or nothing of it. -/
def Whole (process : MpuProcess) : Prop :=
  ∀ call ∈ process.sends, call.outcome.taken = 0 ∨ 24 ≤ call.outcome.taken

instance (process : MpuProcess) : Decidable process.Whole :=
  inferInstanceAs (Decidable (∀ call ∈ process.sends, call.outcome.taken = 0 ∨ 24 ≤ call.outcome.taken))

/-- The calls of `write` of which the device has taken something. -/
def writes (process : MpuProcess) : List SendCall :=
  process.sends.filter fun call => 0 < call.outcome.taken

def written (process : MpuProcess) : List MpuPacket := process.writes.map SendCall.packet

/-- The bytes on the line are the packets written, back to back. -/
theorem stream_whole {process : MpuProcess} (h : process.Whole) :
    process.stream = Uart.packetStream process.written := by
  rw [stream, written, writes, Uart.packetStream]
  rw [Whole] at h
  generalize process.sends = sends at h
  induction sends with
  | nil => rfl
  | cons call rest ih =>
      have hrest := ih fun later hlater => h later (List.mem_cons_of_mem _ hlater)
      rw [List.flatMap_cons, hrest]
      rcases h call List.mem_cons_self with hnone | hall
      · rw [hnone, List.take_zero, List.nil_append, List.filter_cons_of_neg (by simp [hnone])]
      · rw [List.take_of_length_le (by rw [Uart.packet_length]; exact hall),
          List.filter_cons_of_pos (by simp only [decide_eq_true_eq]; omega), List.map_cons,
          List.flatMap_cons]

end MpuProcess

end SdvZone.Mpu

namespace SdvZone.Zone

open Wire Machine

/-- The MCU, and the bytes it has read from the line. -/
abbrev UartSide := Mcu.Firmware × Bytes

def uartSide (side : UartSide) (input : Mcu.FirmwareStep) : Option UartSide :=
  (side.1.step input).map fun next => (next, side.2 ++ Mcu.Firmware.polled input)

/-- The MCU reads what the MPU has written. -/
def uartStep : Mpu.MpuProcess × UartSide → ZoneStep → Option (Mpu.MpuProcess × UartSide) :=
  compose Mpu.MpuProcess.step uartSide fun process side input =>
    side.2 ++ Mcu.Firmware.polled input <+: process.stream

def uartStart (dest : Option Mpu.DottedQuad) (camera wdtReady : Bool) : Mpu.MpuProcess × UartSide :=
  (.boot dest camera, .start wdtReady (.uart .init), [])

theorem run_uartSide {firmware : Mcu.Firmware} {steps : List Mcu.FirmwareStep} {last : UartSide}
    (hrun : exec uartSide (firmware, []) steps = some last) :
    exec Mcu.Firmware.step firmware steps = some last.1 ∧ last.2 = steps.flatMap Mcu.Firmware.polled := by
  refine exec_induction (firmware, []) (fun steps last =>
    exec Mcu.Firmware.step firmware steps = some last.1 ∧ last.2 = steps.flatMap Mcu.Firmware.polled)
    ⟨rfl, rfl⟩ ?_ steps last hrun
  rintro steps mid input last - ⟨hfirmware, hread⟩ hstep
  obtain ⟨next, hnext, rfl⟩ := Option.map_eq_some_iff.mp hstep
  refine ⟨(exec_snoc _ _ _ _).mpr ⟨mid.1, hfirmware, hnext⟩, ?_⟩
  rw [List.flatMap_append, List.flatMap_singleton, ← hread]

/-- What has been read has been written. -/
theorem run_read {dest : Option Mpu.DottedQuad} {camera wdtReady : Bool} {steps : List ZoneStep}
    {last : Mpu.MpuProcess × UartSide}
    (hrun : exec uartStep (uartStart dest camera wdtReady) steps = some last) :
    last.2.2 <+: last.1.stream := by
  refine exec_induction (uartStart dest camera wdtReady) (fun _ last => last.2.2 <+: last.1.stream)
    List.nil_prefix ?_ steps last hrun
  rintro steps mid input last - hbefore hstep
  rcases compose_cases hstep with ⟨own, rfl, hown, hsame⟩ | ⟨own, rfl, hlink, hown, hsame⟩
  · rw [hsame]
    exact hbefore.trans (Mpu.MpuProcess.moves_stream (Mpu.MpuProcess.step_moves hown))
  · obtain ⟨next, -, hnext⟩ := Option.map_eq_some_iff.mp hown
    rw [hsame, ← hnext]
    exact hlink

/-- A run of the zone is a run of each side. -/
theorem uart_run {dest : Option Mpu.DottedQuad} {camera wdtReady : Bool} {steps : List ZoneStep}
    {last : Mpu.MpuProcess × UartSide}
    (hrun : exec uartStep (uartStart dest camera wdtReady) steps = some last) :
    exec Mpu.MpuProcess.step (.boot dest camera) (lefts steps) = some last.1 ∧
      exec Mcu.Firmware.step (.start wdtReady (.uart .init)) (rights steps) = some last.2.1 ∧
      (rights steps).flatMap Mcu.Firmware.polled <+: last.1.stream := by
  obtain ⟨hmpu, hside, -⟩ := compose_run (fun _ _ _ => True) (fun _ _ _ _ => trivial)
    (fun _ _ _ _ _ _ _ => trivial) hrun
  obtain ⟨hmcu, hread⟩ := run_uartSide hside
  exact ⟨hmpu, hmcu, hread ▸ run_read hrun⟩

/-- What `someip_receive` returns with in a run. -/
def uartReturned (wdtReady : Bool) (steps : List ZoneStep) : List Mcu.Reception :=
  observe Mcu.Firmware.step Mcu.Firmware.returned (.start wdtReady (.uart .init)) (rights steps)

/-- The line as the receiver takes it in a run. -/
def uartRead (wdtReady : Bool) (steps : List ZoneStep) : List (Option UInt8) :=
  observe Mcu.Firmware.step Mcu.Firmware.lineRead (.start wdtReady (.uart .init)) (rights steps)

/-- The line is a beginning of the packets written, and the messages returned are its frames. -/
theorem uart_scanned {dest : Option Mpu.DottedQuad} {camera wdtReady : Bool} {steps : List ZoneStep}
    {last : Mpu.MpuProcess × UartSide}
    (hrun : exec uartStep (uartStart dest camera wdtReady) steps = some last) (hwhole : last.1.Whole) :
    (uartRead wdtReady steps).reduceOption <+: Uart.packetStream last.1.written ∧
      List.Forall₂ Uart.SameEvent ((uartReturned wdtReady steps).map Mcu.Reception.event)
        (Uart.scanFrames [] (uartRead wdtReady steps)).2 := by
  obtain ⟨-, hmcu, hread⟩ := uart_run hrun
  obtain ⟨rx, -, -, -, hevents⟩ := Mcu.Firmware.run_scanned hmcu
  rw [← Mcu.Firmware.run_polled hmcu, Mpu.MpuProcess.stream_whole hwhole] at hread
  exact ⟨hread, hevents⟩

/-- The messages returned are packets written: none twice, none that was not written, in order. -/
theorem uart_returned {dest : Option Mpu.DottedQuad} {camera wdtReady : Bool} {steps : List ZoneStep}
    {last : Mpu.MpuProcess × UartSide}
    (hrun : exec uartStep (uartStart dest camera wdtReady) steps = some last) (hwhole : last.1.Whole) :
    ((uartReturned wdtReady steps).map Mcu.Reception.event).Sublist (last.1.written.map Uart.mcuSent) := by
  obtain ⟨hread, hevents⟩ := uart_scanned hrun hwhole
  exact Uart.sublist_of_sameEvents hevents
    (Framer.scan_sublist_front Uart.frameVerdict (by decide) (Uart.packetStream_aligned _) _ hread)

/-- `safety_kick_watchdog` is called at most once for each packet that the MPU has written, in the order
in which it has, wherever the pauses between the bytes fall. -/
theorem uart_kicks (dest : Option Mpu.DottedQuad) (camera wdtReady : Bool) (steps : List ZoneStep)
    (process : Mpu.MpuProcess) (firmware : Mcu.Firmware) (read : Bytes)
    (hrun : exec uartStep (uartStart dest camera wdtReady) steps = some (process, firmware, read))
    (hwhole : process.Whole) :
    ∃ messages : List Mcu.Reception, firmware.kickedFor = messages.map some ∧
      (messages.map Mcu.Reception.event).Sublist (process.written.map Uart.mcuSent) := by
  have hpasses : firmware.kickedFor ++ firmware.unkicked = (uartReturned wdtReady steps).map some :=
    Mcu.Firmware.run_passes (uart_run hrun).2.1
  obtain ⟨kicked, waiting, hsplit, hkicked, -⟩ := List.map_eq_append_iff.mp hpasses.symm
  refine ⟨kicked, hkicked.symm, ?_⟩
  have hreturned := uart_returned hrun hwhole
  rw [hsplit, List.map_append] at hreturned
  exact (List.sublist_append_left _ _).trans hreturned

/-- A Notify and a heartbeat are written; the MCU reads the frame of the first and hears of it. -/
def frameReception : List Mcu.FirmwareStep :=
  [.findService (Vector.replicate 64 0) (fun _ => 0), .resyncUart] ++
    ((Uart.eventWire 1 0 1 80).take 17).map (fun byte => .pollUart (some byte)) ++
    [.dispatch, .dispatch, .dispatch, .dispatch, .dispatch, .can, .can]

def frameRun : List ZoneStep := Mpu.MpuProcess.alarmRun.map .inl ++ frameReception.map .inr

theorem frameRun_reaches :
    ∃ process firmware read, exec uartStep (uartStart none true true) frameRun = some (process, firmware, read) ∧
      process.Whole ∧ firmware.kickedFor.length = 1 ∧ firmware.levelsSent = [80] := by
  have hreached : (exec uartStep (uartStart none true true) frameRun).map (fun last =>
      (decide last.1.Whole, last.2.1.kickedFor.length, last.2.1.levelsSent)) = some (true, 1, [80]) := by
    decide +kernel
  obtain ⟨⟨process, firmware, read⟩, hrun, hlast⟩ := Option.map_eq_some_iff.mp hreached
  simp only [Prod.mk.injEq, decide_eq_true_eq] at hlast
  exact ⟨process, firmware, read, hrun, hlast⟩

theorem uart_kicks_frame :
    ∃ process firmware read, exec uartStep (uartStart none true true) frameRun = some (process, firmware, read) ∧
      firmware.kickedFor.length = 1 ∧
      ∃ messages : List Mcu.Reception, firmware.kickedFor = messages.map some ∧
        (messages.map Mcu.Reception.event).Sublist (process.written.map Uart.mcuSent) := by
  obtain ⟨process, firmware, read, hrun, hwhole, hkicked, -⟩ := frameRun_reaches
  exact ⟨process, firmware, read, hrun, hkicked,
    uart_kicks none true true frameRun process firmware read hrun hwhole⟩

/-- In NORMAL, 100 ms after the start or later, a packet that the MPU has written has held off SAFE within
the last 100 ms: no piece of a frame and nothing else on the line does. -/
theorem uart_normal (dest : Option Mpu.DottedQuad) (camera wdtReady : Bool) (steps : List ZoneStep)
    (process : Mpu.MpuProcess) (firmware : Mcu.Firmware) (read : Bytes)
    (hrun : exec uartStep (uartStart dest camera wdtReady) steps = some (process, firmware, read))
    (hwhole : process.Whole) (hnormal : firmware.board.safety.safetyIsSafeState = false)
    (hlate : 100 ≤ firmware.board.uptime) :
    ∃ time reception, ∃ packet ∈ process.written, Mcu.Reception.event reception = Uart.mcuSent packet ∧
      (time, some reception) ∈ observe Mcu.Firmware.step Mcu.Firmware.kickActivity
        (.start wdtReady (.uart .init)) (rights steps) ∧
      time ≤ firmware.board.uptime ∧ firmware.board.uptime < time + 100 := by
  obtain ⟨-, hmcu, -⟩ := uart_run hrun
  obtain ⟨time, reception, hentry, hpast, hrecent, hreturned⟩ :=
    Mcu.Firmware.normal_activity (Mcu.Firmware.run_returned hmcu) hmcu hnormal hlate
  have hevent : reception.event ∈ process.written.map Uart.mcuSent :=
    (uart_returned hrun hwhole).subset (List.mem_map_of_mem hreturned)
  obtain ⟨packet, hpacket, hsame⟩ := List.mem_map.mp hevent
  exact ⟨time, reception, packet, hpacket, hsame.symm, hentry, hpast, hrecent⟩

/-- `frameRun`, with 70 ms before the frame and behind it. -/
def idleRun : List ZoneStep :=
  Mpu.MpuProcess.alarmRun.map .inl ++ List.replicate 70 (.inr .tick) ++ frameReception.map .inr ++
    List.replicate 70 (.inr .tick)

theorem uart_normal_frame :
    ∃ process firmware read, exec uartStep (uartStart none true true) idleRun = some (process, firmware, read) ∧
      ∃ time reception, ∃ packet ∈ process.written, Mcu.Reception.event reception = Uart.mcuSent packet ∧
        (time, some reception) ∈ observe Mcu.Firmware.step Mcu.Firmware.kickActivity
          (.start true (.uart .init)) (rights idleRun) ∧
        time ≤ firmware.board.uptime ∧ firmware.board.uptime < time + 100 := by
  have hreached : (exec uartStep (uartStart none true true) idleRun).map (fun last =>
      (decide last.1.Whole, last.2.1.board.safety.safetyIsSafeState, last.2.1.board.uptime)) =
        some (true, false, 140) := by
    decide +kernel
  obtain ⟨⟨process, firmware, read⟩, hrun, hlast⟩ := Option.map_eq_some_iff.mp hreached
  simp only [Prod.mk.injEq, decide_eq_true_eq] at hlast
  obtain ⟨hwhole, hnormal, huptime⟩ := hlast
  exact ⟨process, firmware, read, hrun,
    uart_normal none true true idleRun process firmware read hrun hwhole hnormal (by omega)⟩

/-- The frame is the packet without its padding. -/
theorem frame_packetStream {packets : List Mpu.MpuPacket} {k : ℕ} {packet : Mpu.MpuPacket}
    (h : packets[k]? = some packet) :
    Framer.frame 24 17 (Uart.packetStream packets) k = packet.bytes.take 17 := by
  obtain ⟨hk, rfl⟩ := List.getElem?_eq_some_iff.mp h
  rw [Framer.frame, Uart.packetStream_drop, List.drop_eq_getElem_cons hk, Uart.packetStream, List.flatMap_cons,
    List.take_append_of_le_length (by rw [Uart.packet_length]; decide)]

theorem packet_length_field (packet : Mpu.MpuPacket) :
    beNat (slice (packet.bytes.take 17) 4 8) = 9 := by
  simp [Uart.packet_bytes, Uart.eventWire, slice, beNat]

theorem packet_verdict (packet : Mpu.MpuPacket) :
    Uart.frameVerdict (packet.bytes.take 17) = .emit packet.sent := by
  have hfield := packet_length_field packet
  have hlength : (packet.bytes.take 17).length = 17 := by rw [List.length_take, Uart.packet_length]; rfl
  refine Uart.frameVerdict_emit_iff.mpr ⟨⟨⟨?_, ?_, ?_⟩, ?_⟩, ?_⟩
  · omega
  · simp [Uart.packet_bytes, Uart.eventWire, slice, beNat, Mpu.serviceId]
  · simp [Uart.packet_bytes, Uart.eventWire, slice, beNat]
  · omega
  · rw [hfield, Mpu.MpuPacket.sent, Uart.eventId_eq]
    simp [Uart.packet_bytes, Uart.eventWire, slice]

/-- The packets lie one behind the other, each with its frame at its beginning. -/
theorem packetStream_blocks (packets : List Mpu.MpuPacket) :
    Framer.Blocks Uart.frameVerdict 24 17 (Uart.packetStream packets) (packets.map Mpu.MpuPacket.sent) := by
  refine ⟨Uart.packetStream_aligned packets, by decide, by decide, ?_, ?_, ?_⟩
  · rw [List.length_map, Uart.packetStream_length, Nat.mul_comm]
  · intro k event hk
    rw [List.getElem?_map] at hk
    obtain ⟨packet, hpacket, rfl⟩ := Option.map_eq_some_iff.mp hk
    rw [frame_packetStream hpacket]
    exact packet_verdict packet
  · intro k event hk n hpos hn
    rw [List.getElem?_map] at hk
    obtain ⟨packet, hpacket, rfl⟩ := Option.map_eq_some_iff.mp hk
    have hfield := packet_length_field packet
    have hlength : (packet.bytes.take 17).length = 17 := by rw [List.length_take, Uart.packet_length]; rfl
    rw [frame_packetStream hpacket]
    exact Uart.frameVerdict_take (by omega) (by omega) (by omega)

/-- Events of the MCU that match the frames of some packets are what was sent for these. -/
theorem sameEvents_picked {packets : List Mpu.MpuPacket} {events : List Mcu.UartEvent} {heard : List ℕ}
    (h : List.Forall₂ Uart.SameEvent events
      (heard.filterMap fun k => (packets.map Mpu.MpuPacket.sent)[k]?)) :
    events = heard.filterMap fun k => (packets.map Uart.mcuSent)[k]? := by
  induction heard generalizing events with
  | nil =>
      cases h
      rfl
  | cons k rest ih =>
      rw [List.filterMap_cons, List.getElem?_map] at h ⊢
      cases hpacket : packets[k]? with
      | none =>
          rw [hpacket] at h
          exact ih h
      | some packet =>
          rw [hpacket] at h
          cases h with
          | @cons event _ _ _ hhead hrest =>
              have hevent : event = Uart.mcuSent packet := Prod.ext hhead.1 (hhead.2 _ rfl)
              rw [hevent, ih hrest]
              rfl

/-- The MCU hears of exactly those packets whose first 17 bytes it reads into an empty buffer that the
clock does not clear in between, of each once and in the order in which they were written. -/
theorem uart_hears (dest : Option Mpu.DottedQuad) (camera wdtReady : Bool) (steps : List ZoneStep)
    (process : Mpu.MpuProcess) (firmware : Mcu.Firmware) (read : Bytes)
    (hrun : exec uartStep (uartStart dest camera wdtReady) steps = some (process, firmware, read))
    (hwhole : process.Whole) :
    ∃ heard : List ℕ, heard.Pairwise (· < ·) ∧
      (uartReturned wdtReady steps).map Mcu.Reception.event =
        (heard.filterMap fun k => (process.written.map Uart.mcuSent)[k]?) ∧
      ∀ k, k ∈ heard ↔ k < process.written.length ∧
        Framer.Undisturbed Uart.frameVerdict 24 17 process.stream (uartRead wdtReady steps) k := by
  obtain ⟨hread, hevents⟩ := uart_scanned hrun hwhole
  obtain ⟨heard, hsorted, hreports, hheard⟩ := (packetStream_blocks process.written).scan_reports _ hread
  rw [Uart.scanFrames, hreports] at hevents
  rw [List.length_map, ← Mpu.MpuProcess.stream_whole hwhole] at hheard
  exact ⟨heard, hsorted, sameEvents_picked hevents, hheard⟩

theorem uart_hears_frame :
    ∃ process firmware read, exec uartStep (uartStart none true true) frameRun = some (process, firmware, read) ∧
      (uartReturned true frameRun).length = 1 ∧
      ∃ heard : List ℕ, heard.Pairwise (· < ·) ∧
        (uartReturned true frameRun).map Mcu.Reception.event =
          (heard.filterMap fun k => (process.written.map Uart.mcuSent)[k]?) ∧
        ∀ k, k ∈ heard ↔ k < process.written.length ∧
          Framer.Undisturbed Uart.frameVerdict 24 17 process.stream (uartRead true frameRun) k := by
  obtain ⟨process, firmware, read, hrun, hwhole, -⟩ := frameRun_reaches
  exact ⟨process, firmware, read, hrun, by decide +kernel,
    uart_hears none true true frameRun process firmware read hrun hwhole⟩

/-- The levels that come in over the UART are levels that the MPU has sent. -/
theorem notified_written {process : Mpu.MpuProcess} (halarms : process.Alarms) :
    (process.written.map Uart.mcuSent).flatMap Mcu.UartEvent.notified =
      Mpu.MpuProcess.notifyLevels process.writes := by
  rw [Mpu.MpuProcess.written]
  have hsmall : ∀ level ∈ Mpu.MpuProcess.notifyLevels process.writes, level ≤ 100 :=
    fun level hlevel => (halarms level ((List.filter_sublist.filterMap _).subset hlevel)).2
  generalize process.writes = writes at hsmall ⊢
  induction writes with
  | nil => rfl
  | cons call rest ih =>
      rw [List.map_cons, List.map_cons, List.flatMap_cons, Uart.mcuSent]
      rw [Mpu.MpuProcess.notifyLevels, List.filterMap_cons] at hsmall ⊢
      cases hevent : call.packet.event with
      | notify level =>
          simp only [hevent] at hsmall ⊢
          have hlevel := hsmall level List.mem_cons_self
          rw [ih fun later hlater => hsmall later (List.mem_cons_of_mem _ hlater),
            show Mcu.UartEvent.notified ((Mpu.MpuEvent.notify level).eventId, (Mpu.MpuEvent.notify level).value) =
              [(Mpu.MpuEvent.notify level).value.toNat] from rfl, notify_value (by omega)]
          rfl
      | heartbeat counter =>
          simp only [hevent] at hsmall ⊢
          exact ih hsmall

/-- The levels on the CAN bus are levels of the camera loop: none that it has not brought, none twice,
in order. -/
theorem uart_levels (dest : Option Mpu.DottedQuad) (wdtReady : Bool) (steps : List ZoneStep)
    (process : Mpu.MpuProcess) (firmware : Mcu.Firmware) (read : Bytes)
    (hrun : exec uartStep (uartStart dest true wdtReady) steps = some (process, firmware, read))
    (hwhole : process.Whole) :
    firmware.levelsSent.Sublist
      (Mpu.cameraLoop 0 (Mpu.MpuProcess.framesRead (lefts steps))).flatten := by
  obtain ⟨hmpu, hmcu, -⟩ := uart_run hrun
  have hheld : firmware.levelsSent.Sublist
      (((uartReturned wdtReady steps).map Mcu.Reception.event).flatMap Mcu.UartEvent.notified) := by
    rw [List.flatMap_map]
    exact (Mcu.Firmware.run_holds hmcu).sent
  have hwritten := (uart_returned hrun hwhole).flatMap Mcu.UartEvent.notified
  rw [notified_written (Mpu.MpuProcess.run_alarms hmpu)] at hwritten
  have hsent : (Mpu.MpuProcess.notifyLevels process.writes).Sublist
      (Mpu.MpuProcess.notifyLevels process.sends) := List.filter_sublist.filterMap _
  exact ((hheld.trans hwritten).trans hsent).trans (Mpu.MpuProcess.run_follows hmpu).front.sublist

theorem uart_levels_frame :
    ∃ process firmware read, exec uartStep (uartStart none true true) frameRun = some (process, firmware, read) ∧
      firmware.levelsSent = [80] ∧ firmware.levelsSent.Sublist
        (Mpu.cameraLoop 0 (Mpu.MpuProcess.framesRead (lefts frameRun))).flatten := by
  obtain ⟨process, firmware, read, hrun, hwhole, -, hsent⟩ := frameRun_reaches
  exact ⟨process, firmware, read, hrun, hsent,
    uart_levels none true frameRun process firmware read hrun hwhole⟩

end SdvZone.Zone
