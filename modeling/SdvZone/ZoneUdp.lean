import SdvZone.CanOrigins
import SdvZone.MpuMainRuns
import SdvZone.SafeStateDeadline
import SdvZone.UdpNetwork

/-! MPU and MCU over UDP: the process of `ai/drowsiness.py`, with its packets and its offers, and the
firmware. -/

namespace SdvZone.Zone

open Wire Machine

/-- Everything the MPU has sent. -/
def datagrams (process : Mpu.MpuProcess) : List Bytes :=
  process.packets.map Mpu.MpuPacket.bytes ++ process.offers

/-- What is sent stays sent. -/
theorem datagrams_kept (process : Mpu.MpuProcess) (action : Mpu.MpuAction) (next : Mpu.MpuProcess)
    (h : process.step action = some next) : datagrams process ⊆ datagrams next := by
  have hmoves := Mpu.MpuProcess.step_moves h
  intro datagram hsent
  rcases List.mem_append.mp hsent with hpacket | hoffer
  · exact List.mem_append_left _ (List.map_subset _ (Mpu.MpuProcess.moves_packets hmoves) hpacket)
  · exact List.mem_append_right _ (Mpu.MpuProcess.moves_offers hmoves hoffer)

abbrev ZoneStep := Mpu.MpuAction ⊕ Mcu.FirmwareStep

def udpStep : Mpu.MpuProcess × Mcu.Firmware → ZoneStep → Option (Mpu.MpuProcess × Mcu.Firmware) :=
  overUdp Mpu.MpuProcess.step datagrams

def udpStart (dest : Option Mpu.DottedQuad) (camera wdtReady : Bool) : Mpu.MpuProcess × Mcu.Firmware :=
  (.boot dest camera, .start wdtReady (.udp .static))

/-! ### What the MCU makes of the datagrams -/

theorem packet_event (packet : Mpu.MpuPacket) :
    (beNat (slice packet.bytes 2 4), getU8 packet.bytes 16) = Uart.mcuSent packet := by
  rw [Uart.packet_bytes, Uart.mcuSent, Uart.eventId_eq]
  rfl

theorem packet_service (packet : Mpu.MpuPacket) : beNat (slice packet.bytes 0 2) = Mcu.serviceId := by
  simp [Uart.packet_bytes, Uart.eventWire, slice, beNat, Mcu.serviceId]

/-- A level below 256 is the payload byte. -/
theorem notify_value {level : ℕ} (h : level < 256) : (Mpu.MpuEvent.notify level).value.toNat = level := by
  show (UInt8.ofNat (level &&& 0xFF)).toNat = level
  rw [show (0xFF : ℕ) = 2 ^ 8 - 1 from rfl, Nat.and_two_pow_sub_one_eq_mod,
    UInt8.toNat_ofNat_of_lt' (show level % 2 ^ 8 < 256 by omega)]
  exact Nat.mod_eq_of_lt h

/-- The reception of a packet that the MPU has sent. -/
def FromMpu (process : Mpu.MpuProcess) (reception : Mcu.Reception) : Prop :=
  ∃ packet ∈ process.packets, reception = ⟨packet.bytes, Uart.mcuSent packet⟩

/-- Of what the MPU sends the MCU accepts the packets, and not the offers. -/
theorem udp_delivers {dest : Option Mpu.DottedQuad} {camera wdtReady : Bool} {steps : List ZoneStep}
    {last : Mpu.MpuProcess × Mcu.Firmware}
    (hrun : exec udpStep (udpStart dest camera wdtReady) steps = some last) :
    Along Mcu.Firmware.step (Mcu.Firmware.DeliversOnly (FromMpu last.1)) (.start wdtReady (.udp .static))
      (rights steps) := by
  obtain ⟨hmpu, -, -⟩ := overUdp_run datagrams_kept hrun
  refine (overUdp_delivers datagrams_kept hrun).mono ?_
  intro firmware input honly reception hdelivers
  obtain ⟨datagram, hsent, hvalid, rfl⟩ := honly reception hdelivers
  rcases List.mem_append.mp hsent with hpacket | hoffer
  · obtain ⟨packet, hmem, rfl⟩ := List.mem_map.mp hpacket
    rw [receptionOf, packet_event]
    exact ⟨packet, hmem, rfl⟩
  · obtain ⟨ip, calls, rfl⟩ := Mpu.MpuProcess.run_offers hmpu datagram hoffer
    have hevent := hvalid.service
    rw [Udp.offerPacket_service] at hevent
    cases hevent

/-- Every call of `safety_kick_watchdog` is for a packet that the MPU has sent, whatever the network
does with the datagrams. -/
theorem udp_kicks (dest : Option Mpu.DottedQuad) (camera wdtReady : Bool) (steps : List ZoneStep)
    (process : Mpu.MpuProcess) (firmware : Mcu.Firmware)
    (hrun : exec udpStep (udpStart dest camera wdtReady) steps = some (process, firmware)) :
    ∀ kick ∈ firmware.kickedFor, ∃ packet ∈ process.packets,
      kick = some ⟨packet.bytes, Uart.mcuSent packet⟩ := by
  intro kick hkick
  obtain ⟨reception, hkicked, packet, hpacket, rfl⟩ :=
    (Mcu.Firmware.run_handles (udp_delivers hrun) (overUdp_run datagrams_kept hrun).2.1).kicked kick hkick
  exact ⟨packet, hpacket, hkicked⟩

/-- The MPU sends a heartbeat, the MCU receives it, and some time passes before and after. -/
def heartbeatRun (idle : ℕ) : List ZoneStep :=
  [.inl .startSd, .inl .startHeartbeat, .inl (.heartbeat Mpu.MpuProcess.taken)] ++
    List.replicate idle (.inr .tick) ++
    (Mcu.Firmware.eventRun (Mcu.Firmware.eventDatagram 2 0)).map .inr ++ List.replicate idle (.inr .tick)

theorem udp_kicks_heartbeat :
    ∃ process firmware,
      exec udpStep (udpStart none true true) (heartbeatRun 0) = some (process, firmware) ∧
      firmware.kickedFor.length = 1 ∧ ∀ kick ∈ firmware.kickedFor, ∃ packet ∈ process.packets,
        kick = some ⟨packet.bytes, Uart.mcuSent packet⟩ :=
  ⟨_, _, rfl, rfl, udp_kicks none true true (heartbeatRun 0) _ _ rfl⟩

/-- In NORMAL, 100 ms after the start or later, a packet of the MPU has held off SAFE within the last
100 ms. -/
theorem udp_normal (dest : Option Mpu.DottedQuad) (camera wdtReady : Bool) (steps : List ZoneStep)
    (process : Mpu.MpuProcess) (firmware : Mcu.Firmware)
    (hrun : exec udpStep (udpStart dest camera wdtReady) steps = some (process, firmware))
    (hnormal : firmware.board.safety.safetyIsSafeState = false) (hlate : 100 ≤ firmware.board.uptime) :
    ∃ time, ∃ packet ∈ process.packets, (time, some ⟨packet.bytes, Uart.mcuSent packet⟩) ∈
        observe Mcu.Firmware.step Mcu.Firmware.kickActivity (.start wdtReady (.udp .static)) (rights steps) ∧
      time ≤ firmware.board.uptime ∧ firmware.board.uptime < time + 100 := by
  obtain ⟨time, reception, hentry, hpast, hrecent, packet, hpacket, rfl⟩ :=
    Mcu.Firmware.normal_activity (udp_delivers hrun) (overUdp_run datagrams_kept hrun).2.1 hnormal hlate
  exact ⟨time, packet, hpacket, hentry, hpast, hrecent⟩

theorem udp_normal_heartbeat :
    ∃ process firmware,
      exec udpStep (udpStart none true true) (heartbeatRun 70) = some (process, firmware) ∧
      ∃ time, ∃ packet ∈ process.packets, (time, some ⟨packet.bytes, Uart.mcuSent packet⟩) ∈
          observe Mcu.Firmware.step Mcu.Firmware.kickActivity (.start true (.udp .static))
            (rights (heartbeatRun 70)) ∧
        time ≤ firmware.board.uptime ∧ firmware.board.uptime < time + 100 := by
  have hreached : (exec udpStep (udpStart none true true) (heartbeatRun 70)).map (fun last =>
      (last.2.board.safety.safetyIsSafeState, last.2.board.uptime)) = some (false, 140) := by
    decide +kernel
  obtain ⟨⟨process, firmware⟩, hrun, hlast⟩ := Option.map_eq_some_iff.mp hreached
  obtain ⟨hnormal, huptime⟩ := Prod.mk.inj hlast
  have hlate : firmware.board.uptime = 140 := huptime
  exact ⟨process, firmware, hrun,
    udp_normal none true true (heartbeatRun 70) process firmware hrun hnormal (by omega)⟩

/-- A frame of `can_thread` carries the level of a Notify that the MPU has sent, from 80 to 100; with a
camera whose frames are all steady, 15 of them have shown closed eyes before. -/
theorem udp_levels (dest : Option Mpu.DottedQuad) (camera wdtReady : Bool) (steps : List ZoneStep)
    (process : Mpu.MpuProcess) (firmware : Mcu.Firmware)
    (hrun : exec udpStep (udpStart dest camera wdtReady) steps = some (process, firmware)) :
    ∀ transmission ∈ firmware.transmissions, transmission.sender = .canThread →
      (∃ packet ∈ process.packets, packet.event = .notify transmission.level.toNat) ∧
        80 ≤ transmission.level.toNat ∧ transmission.level.toNat ≤ 100 ∧
        (camera = true → (∀ frame, some frame ∈ Mpu.MpuProcess.framesRead (lefts steps) →
            Mpu.Steady frame.faces) →
          Mpu.earConsecFrames ≤ (Mpu.MpuProcess.framesRead (lefts steps)).countP Mpu.hasClosed) := by
  intro transmission hmem hsender
  obtain ⟨hmpu, hmcu, -⟩ := overUdp_run datagrams_kept hrun
  obtain ⟨-, reception, ⟨packet, hpacket, rfl⟩, hnotify, hlevel⟩ :=
    (Mcu.Firmware.run_carries (udp_delivers hrun) hmcu).sent transmission hmem hsender
  cases hevent : packet.event with
  | heartbeat counter =>
      rw [Uart.mcuSent, hevent] at hnotify
      cases hnotify
  | notify level =>
      have hsent := Mpu.MpuProcess.notify_of_packets hpacket hevent
      obtain ⟨hlow, hhigh⟩ := Mpu.MpuProcess.run_alarms hmpu level hsent
      have hsame : transmission.level.toNat = level := by
        rw [hlevel, Uart.mcuSent, hevent]
        exact notify_value (by omega)
      rw [hsame]
      refine ⟨⟨packet, hpacket, hevent⟩, hlow, hhigh, ?_⟩
      rintro rfl hsteady
      exact Mpu.MpuProcess.notify_needs_closed hmpu hsteady hsent

/-- The camera sees fifteen closed eyes and the MCU hears of it. -/
def notifyRun : List ZoneStep :=
  Mpu.MpuProcess.alarmRun.map .inl ++ (Mcu.Firmware.eventRun (Mcu.Firmware.eventDatagram 1 80)).map .inr

theorem udp_levels_notify :
    ∃ process firmware, exec udpStep (udpStart none true true) notifyRun = some (process, firmware) ∧
      ∀ transmission ∈ firmware.transmissions, transmission.sender = .canThread →
        (∃ packet ∈ process.packets, packet.event = .notify transmission.level.toNat) ∧
          80 ≤ transmission.level.toNat ∧ transmission.level.toNat ≤ 100 ∧
          ((∀ frame, some frame ∈ Mpu.MpuProcess.framesRead (lefts notifyRun) → Mpu.Steady frame.faces) →
            Mpu.earConsecFrames ≤ (Mpu.MpuProcess.framesRead (lefts notifyRun)).countP Mpu.hasClosed) := by
  have hreached : (exec udpStep (udpStart none true true) notifyRun).isSome = true := by decide +kernel
  obtain ⟨⟨process, firmware⟩, hrun⟩ := Option.isSome_iff_exists.mp hreached
  refine ⟨process, firmware, hrun, fun transmission hmem hsender => ?_⟩
  obtain ⟨hpacket, hlow, hhigh, hclosed⟩ :=
    udp_levels none true true notifyRun process firmware hrun transmission hmem hsender
  exact ⟨hpacket, hlow, hhigh, hclosed rfl⟩

/-! ### Subscriptions -/

/-- An offer of the MPU comes in. -/
def offersHeard (pair : Mpu.MpuProcess × Mcu.Firmware) : ZoneStep → List Bytes
  | .inr (.receiveUdp _ _ (some datagram)) => if datagram ∈ pair.1.offers then [datagram] else []
  | _ => []

/-- The subscriptions that have gone out. -/
def subscriptions (udp : Mcu.SomeipUdp) : List Mcu.Outgoing :=
  udp.sent.filter fun packet => packet.address = Mcu.loopbackAddr

/-- One subscription for each offer heard, numbered in the order they go out. -/
structure Subscribed (heard : ℕ) (udp : Mcu.SomeipUdp) : Prop where
  session : udp.subscribeSession = UInt16.ofNat heard
  sent : subscriptions udp = (List.range heard).map fun i => Udp.subscribeOutgoing (UInt16.ofNat (i + 1))

theorem Subscribed.next {heard : ℕ} {udp : Mcu.SomeipUdp} (h : Subscribed heard udp)
    (memory : Vector UInt8 64) (sendto : Mcu.Outgoing → Int) :
    Subscribed (heard + 1) (Udp.subscribed memory sendto 1 udp) := by
  have hsession : udp.subscribeSession + 1 = UInt16.ofNat (heard + 1) := by
    rw [h.session, UInt16.ofNat_add]
    rfl
  rw [Udp.subscribed_one, hsession]
  refine ⟨rfl, ?_⟩
  have hsent := h.sent
  rw [subscriptions] at hsent ⊢
  rw [List.filter_append, hsent, List.range_succ, List.map_append,
    List.filter_cons_of_pos (by simp [Udp.subscribeOutgoing]), List.filter_nil]
  rfl

theorem Subscribed.find {heard : ℕ} {udp : Mcu.SomeipUdp} (h : Subscribed heard udp)
    (memory : Vector UInt8 64) (sendto : Mcu.Outgoing → Int) :
    Subscribed heard (udp.someipSdSendFind memory sendto).2 := by
  rw [Udp.someipSdSendFind_eq]
  refine ⟨h.session, ?_⟩
  have hsent := h.sent
  have hnone : [Udp.findOutgoing (udp.findSession + 1)].filter
      (fun packet => packet.address = Mcu.loopbackAddr) = [] := by
    apply List.filter_cons_of_neg
    show ¬ decide (Mcu.sdMulticastAddr = Mcu.loopbackAddr) = true
    decide
  rw [subscriptions] at hsent ⊢
  rw [List.filter_append, hsent, hnone, List.append_nil]

/-- Events of the MPU and the MCU's own packets leave the sockets alone. -/
theorem someipUdpReceive_packet (memory : Vector UInt8 64) (sendto : Mcu.Outgoing → Int)
    (udp : Mcu.SomeipUdp) (packet : Mpu.MpuPacket) :
    (udp.someipUdpReceive memory sendto (some packet.bytes)).1 = udp := by
  rw [Udp.someipUdpReceive_eq, Uart.packet_length, if_neg (by decide), packet_service,
    if_neg (by decide)]
  split <;> rfl

theorem receive_subscribed {dest : Option Mpu.DottedQuad} {camera wdtReady : Bool} {steps : List ZoneStep}
    {mid : Mpu.MpuProcess × Mcu.Firmware} {udp : Mcu.SomeipUdp} {heard : ℕ}
    (hrun : exec udpStep (udpStart dest camera wdtReady) steps = some mid)
    (htransport : mid.2.transport = .udp udp) (h : Subscribed heard udp)
    (memory : Vector UInt8 64) (sendto : Mcu.Outgoing → Int) (datagram : Option Bytes)
    (hnetwork : network (datagrams mid.1) mid.2 (.receiveUdp memory sendto datagram) = true) :
    Subscribed (heard + (offersHeard mid (.inr (.receiveUdp memory sendto datagram))).length)
      (udp.someipUdpReceive memory sendto datagram).1 := by
  obtain ⟨hmpu, hmcu, -⟩ := overUdp_run datagrams_kept hrun
  cases datagram with
  | none => exact h
  | some datagram =>
      rw [offersHeard]
      by_cases hoffer : datagram ∈ mid.1.offers
      · obtain ⟨ip, calls, rfl⟩ := Mpu.MpuProcess.run_offers hmpu datagram hoffer
        rw [if_pos hoffer, Udp.someipUdpReceive_offer memory sendto udp ⟨rfl, rfl⟩]
        exact h.next memory sendto
      · rw [if_neg hoffer]
        rcases network_iff.mp hnetwork with hsent | hback
        · rcases List.mem_append.mp hsent with hpacket | hother
          · obtain ⟨packet, -, rfl⟩ := List.mem_map.mp hpacket
            rw [someipUdpReceive_packet]
            exact h
          · exact absurd hother hoffer
        · obtain ⟨sockets, hsockets, hown⟩ := Mcu.Firmware.run_overUdp hmcu
          rw [htransport] at hsockets
          cases hsockets
          rw [ownDatagrams, htransport] at hback
          obtain ⟨packet, hpacket, rfl⟩ := List.mem_map.mp hback
          obtain ⟨sender, sessionId, rfl⟩ := hown packet hpacket
          rw [Udp.someipUdpReceive_own]
          exact h

/-- The MCU subscribes once for each offer that comes in, with session ids that count from 1 modulo
2^16, and for nothing else. -/
theorem udp_subscriptions (dest : Option Mpu.DottedQuad) (camera wdtReady : Bool) (steps : List ZoneStep)
    (process : Mpu.MpuProcess) (firmware : Mcu.Firmware)
    (hrun : exec udpStep (udpStart dest camera wdtReady) steps = some (process, firmware)) :
    ∃ udp, firmware.transport = .udp udp ∧ subscriptions udp =
      (List.range (observe udpStep offersHeard (udpStart dest camera wdtReady) steps).length).map fun i =>
        Udp.subscribeOutgoing (UInt16.ofNat (i + 1)) := by
  suffices hsubscribed : ∃ udp, firmware.transport = .udp udp ∧
      Subscribed (observe udpStep offersHeard (udpStart dest camera wdtReady) steps).length udp by
    obtain ⟨udp, htransport, h⟩ := hsubscribed
    exact ⟨udp, htransport, h.sent⟩
  refine exec_induction (udpStart dest camera wdtReady) (fun steps last => ∃ udp,
    last.2.transport = .udp udp ∧
      Subscribed (observe udpStep offersHeard (udpStart dest camera wdtReady) steps).length udp)
    ⟨.static, rfl, rfl, rfl⟩ ?_ steps (process, firmware) hrun
  rintro steps mid input last hmid ⟨udp, htransport, h⟩ hstep
  rw [observe_snoc offersHeard hmid, List.length_append]
  rcases overUdp_cases hstep with ⟨own, rfl, -, hsame⟩ | ⟨own, rfl, hnetwork, hown, -⟩
  · rw [hsame]
    exact ⟨udp, htransport, h⟩
  · have hsockets := Mcu.Firmware.step_sockets hown htransport
    generalize hnext : last.2.transport = transport at hsockets
    cases hsockets with
    | keep hinput =>
        refine ⟨udp, rfl, ?_⟩
        have hnone : offersHeard mid (.inr own) = [] := by
          cases own with
          | receiveUdp memory sendto datagram => exact absurd rfl (hinput memory sendto datagram)
          | tick | can | findService | lastFind | resyncUart | pollUart | dispatch => rfl
        rw [hnone]
        exact h
    | find memory sendto hinput =>
        subst hinput
        exact ⟨_, rfl, h.find memory sendto⟩
    | receive memory sendto datagram hinput =>
        subst hinput
        exact ⟨_, rfl, receive_subscribed hmid htransport h memory sendto datagram hnetwork⟩

/-- One offer goes out and comes in twice. -/
def offerRun : List ZoneStep :=
  [.inl .startSd, .inl (.sd .loopCheck), .inl (.sd (.loopOffer false))] ++
    (List.replicate 2 [.inr (.findService (Vector.replicate 64 0) fun _ => 0),
      .inr (.receiveUdp (Vector.replicate 64 0) (fun _ => 56)
        (some ((Mpu.MpuProcess.serverOf ⟨10, 0, 0, 1⟩).offerPacket 0)))]).flatten

theorem udp_subscriptions_twice :
    ∃ process firmware,
      exec udpStep (udpStart (some ⟨10, 0, 0, 1⟩) true true) offerRun = some (process, firmware) ∧
      ∃ udp, firmware.transport = .udp udp ∧ subscriptions udp =
        (List.range (observe udpStep offersHeard (udpStart (some ⟨10, 0, 0, 1⟩) true true)
          offerRun).length).map fun i => Udp.subscribeOutgoing (UInt16.ofNat (i + 1)) := by
  have hreached : (exec udpStep (udpStart (some ⟨10, 0, 0, 1⟩) true true) offerRun).isSome = true := by
    decide +kernel
  obtain ⟨⟨process, firmware⟩, hrun⟩ := Option.isSome_iff_exists.mp hreached
  exact ⟨process, firmware, hrun,
    udp_subscriptions (some ⟨10, 0, 0, 1⟩) true true offerRun process firmware hrun⟩

end SdvZone.Zone
