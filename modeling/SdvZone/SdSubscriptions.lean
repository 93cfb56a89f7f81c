import SdvZone.FirmwareRuns
import SdvZone.SdLoopback
import SdvZone.SdOfferDelivery
import SdvZone.SdServerRuns

/-! The service discovery packets of the MCU over whole runs. Whatever comes in, only FindServices and
subscriptions go out; a server's offer in the 64 bytes that are received brings one subscription. -/

namespace SdvZone.Udp

open Wire Sd Machine

/-- The packets of the MCU's own senders. -/
def Own (packet : Mcu.Outgoing) : Prop := ∃ sender sessionId, packet = SdSender.packet sessionId sender

section Receiver

variable (memory : Vector UInt8 64) (sendto : Mcu.Outgoing → Int)

theorem subscribed_one (udp : Mcu.SomeipUdp) :
    subscribed memory sendto 1 udp = { udp with
      subscribeSession := udp.subscribeSession + 1
      sent := udp.sent ++ [subscribeOutgoing (udp.subscribeSession + 1)] } :=
  someipSdSendSubscribe_eq memory sendto udp

theorem subscribed_own {udp : Mcu.SomeipUdp} (h : ∀ packet ∈ udp.sent, Own packet) :
    ∀ packet ∈ (subscribed memory sendto 1 udp).sent, Own packet := by
  rw [subscribed_one]
  intro packet hpacket
  rcases List.mem_append.mp hpacket with hbefore | hnew
  · exact h packet hbefore
  · exact ⟨.subscribe, _, List.mem_singleton.mp hnew⟩

/-- Any datagram may come in. -/
theorem someipUdpReceive_sent_own {udp : Mcu.SomeipUdp} (h : ∀ packet ∈ udp.sent, Own packet)
    (datagram : Option Bytes) :
    ∀ packet ∈ (udp.someipUdpReceive memory sendto datagram).1.sent, Own packet := by
  have hentries : ∀ (parsed : Mcu.SdParsed) (entries : List Mcu.SdEntry) (udp : Mcu.SomeipUdp),
      (∀ packet ∈ udp.sent, Own packet) → ∀ packet ∈
        (entries.foldl (Mcu.SomeipUdp.sdHandleEntry memory sendto parsed) udp).sent, Own packet := by
    intro parsed entries
    induction entries with
    | nil => exact fun _ hown => hown
    | cons e rest ih =>
        intro udp hown
        rw [List.foldl_cons]
        apply ih
        rw [sdHandleEntry_eq]
        split
        · exact subscribed_own memory sendto hown
        · exact hown
  cases datagram with
  | none => exact h
  | some datagram =>
      rw [someipUdpReceive_eq]
      split_ifs
      · exact h
      · dsimp only [Mcu.SomeipUdp.someipSdHandle]
        split
        · exact h
        · exact hentries _ _ udp h
      · exact h
      · exact h

end Receiver

/-! ### Offers of a server -/

open Mpu (SdServer)

/-- The server offers the service the MCU looks for. -/
def Wanted (server : SdServer) : Prop := server.serviceId = 0x1234 ∧ server.instanceId = 0x5678

theorem offerPacket_length (server : SdServer) (calls : ℕ) : (server.offerPacket calls).length = 56 := by
  rw [SdServer.offerPacket, Mpu.messageOf_length]
  rfl

theorem offerPacket_service (server : SdServer) (calls : ℕ) :
    beNat (slice (server.offerPacket calls) 0 2) = 0xFFFF := service_messageOf _ _ _ _

/-- What `parse_sd` finds in the packets of the server. -/
def offerInfo (server : SdServer) (calls : ℕ) : Mpu.SdInfo :=
  { sessionId := (UInt16.ofNat (calls % 65535 + 1)).toNat % 2 ^ 16
    flags := (if calls = 0 then 0xC0 else 0x40) % 2 ^ 8
    entries := [(Mpu.serviceEntry Mpu.entryOfferService SdServer.entryOfferService_le server.serviceId
      server.instanceId Mpu.ttlDefault 0 1).parsed]
    options := [(Mpu.udpOption server.ip server.port).parsed] }

theorem offerInfo_wanted {server : SdServer} (h : Wanted server) (calls : ℕ) :
    OfferInfo (offerInfo server calls) where
  entries := show 1 ≤ 4 by decide
  options := show 1 ≤ 4 by decide
  offer := by
    obtain ⟨hservice, hinstance⟩ := h
    refine ⟨_, List.mem_singleton_self _, rfl, show Mpu.ttlDefault ≠ 0 by decide, ?_, ?_⟩
    · rw [hservice]
      rfl
    · rw [hinstance]
      rfl
  endpoint := ⟨0, _, rfl, rfl⟩

/-- An offer of the service brings one subscription, and nothing for the caller. -/
theorem someipUdpReceive_offer (memory : Vector UInt8 64) (sendto : Mcu.Outgoing → Int)
    (udp : Mcu.SomeipUdp) {server : SdServer} (h : Wanted server) (calls : ℕ) :
    udp.someipUdpReceive memory sendto (some (server.offerPacket calls)) =
      (subscribed memory sendto 1 udp, none) := by
  have hsession : (UInt16.ofNat (calls % 65535 + 1)).toNat = calls % 65535 + 1 :=
    UInt16.toNat_ofNat_of_lt' (show calls % 65535 + 1 < 65536 by omega)
  have hmessage : Mpu.messageOf [Mpu.serviceEntry Mpu.entryOfferService SdServer.entryOfferService_le
      server.serviceId server.instanceId Mpu.ttlDefault 0 1] [Mpu.udpOption server.ip server.port]
      (UInt16.ofNat (calls % 65535 + 1)).toNat (if calls = 0 then 0xC0 else 0x40) =
        server.offerPacket calls := by
    rw [hsession]
    rfl
  obtain ⟨parsed, e, hparse, -, hfound, -, -, hsame⟩ := sdParse_single _ _ _ _
    (memory.toList.drop 56) (Nat.le_of_ble_eq_true rfl) hmessage
  have hinfo := offerInfo_wanted h calls
  have hlength := offerPacket_length server calls
  have hreceived : received memory (server.offerPacket calls) =
      server.offerPacket calls ++ memory.toList.drop 56 := by
    rw [received, List.take_of_length_le (by omega), hlength]
  have hoffered : decide (Offered e) = true := by
    have hcount := offered_of_sameContent hsame hinfo
    rw [← entriesFound, hfound, List.countP_singleton] at hcount
    split at hcount
    next hoffer => exact hoffer
    next => cases hcount
  rw [hlength] at hparse
  rw [someipUdpReceive_eq, hlength, if_neg (by decide), if_pos (offerPacket_service server calls),
    Mcu.SomeipUdp.someipSdHandle, hreceived, show min 56 64 = 56 from rfl, hparse]
  show ((entriesFound parsed).foldl _ udp, none) = _
  rw [foldl_sdHandleEntry memory sendto parsed (udpEndpoint_of_sameContent hsame hinfo), hfound,
    List.countP_singleton, if_pos hoffered]

end SdvZone.Udp

namespace SdvZone.Mcu.Firmware

open Wire Machine Udp

/-! ### The transport of the firmware -/

theorem receiveUdp_transport (memory : Vector UInt8 64) (sendto : Outgoing → Int) (datagram : Option Bytes)
    (firmware : Firmware) (udp : SomeipUdp) :
    (firmware.receiveUdp memory sendto datagram udp).transport =
      .udp (udp.someipUdpReceive memory sendto datagram).1 := by
  rw [receiveUdp]
  cases udp.someipUdpReceive memory sendto datagram with
  | mk after event => cases datagram <;> cases event <;> rfl

/-- What a step does to the sockets: nothing, a FindService, or what `someip_udp_receive` does. -/
inductive Sockets (udp : SomeipUdp) (input : FirmwareStep) : Transport → Prop where
  | keep (hinput : ∀ memory sendto datagram, input ≠ .receiveUdp memory sendto datagram) :
      Sockets udp input (.udp udp)
  | find (memory : Vector UInt8 64) (sendto : Outgoing → Int) (hinput : input = .findService memory sendto) :
      Sockets udp input (.udp (udp.someipSdSendFind memory sendto).2)
  | receive (memory : Vector UInt8 64) (sendto : Outgoing → Int) (datagram : Option Bytes)
      (hinput : input = .receiveUdp memory sendto datagram) :
      Sockets udp input (.udp (udp.someipUdpReceive memory sendto datagram).1)

theorem step_sockets {firmware next : Firmware} {input : FirmwareStep} {udp : SomeipUdp}
    (h : firmware.step input = some next) (htransport : firmware.transport = .udp udp) :
    Sockets udp input next.transport := by
  cases input with
  | tick =>
      cases h
      obtain ⟨gateway, warnings, htick, -⟩ := firmware.tick_eq
      rw [htick, htransport]
      exact .keep fun _ _ _ => FirmwareStep.noConfusion
  | can =>
      cases h
      show Sockets udp .can firmware.transport
      rw [htransport]
      exact .keep fun _ _ _ => FirmwareStep.noConfusion
  | dispatch =>
      rw [dispatch_transport h, htransport]
      exact .keep fun _ _ _ => FirmwareStep.noConfusion
  | findService memory sendto =>
      obtain ⟨-, hnext⟩ := Option.ite_none_right_eq_some.mp h
      cases hnext
      rw [findService]
      split
      · show Sockets udp _ (sendFind memory sendto firmware.transport)
        rw [htransport]
        exact .find memory sendto rfl
      · show Sockets udp _ firmware.transport
        rw [htransport]
        exact .keep fun _ _ _ => FirmwareStep.noConfusion
  | lastFind =>
      obtain ⟨-, hnext⟩ := Option.ite_none_right_eq_some.mp h
      cases hnext
      show Sockets udp .lastFind firmware.transport
      rw [htransport]
      exact .keep fun _ _ _ => FirmwareStep.noConfusion
  | receiveUdp memory sendto datagram =>
      rw [step, htransport] at h
      obtain ⟨-, hnext⟩ := Option.ite_none_right_eq_some.mp h
      cases hnext
      rw [receiveUdp_transport]
      exact .receive memory sendto datagram rfl
  | resyncUart =>
      rw [step, htransport] at h
      cases h
  | pollUart byte =>
      rw [step, htransport] at h
      cases h

/-- The sockets, and what has gone out through them. -/
def OverUdp (firmware : Firmware) : Prop :=
  ∃ udp, firmware.transport = .udp udp ∧ ∀ packet ∈ udp.sent, Own packet

theorem sockets_own {udp : SomeipUdp} {input : FirmwareStep} {transport : Transport}
    (h : ∀ packet ∈ udp.sent, Own packet) (hsockets : Sockets udp input transport) :
    ∃ after, transport = .udp after ∧ ∀ packet ∈ after.sent, Own packet := by
  cases hsockets with
  | keep _ => exact ⟨udp, rfl, h⟩
  | find memory sendto _ =>
      refine ⟨_, rfl, ?_⟩
      rw [someipSdSendFind_eq]
      intro packet hpacket
      rcases List.mem_append.mp hpacket with hbefore | hnew
      · exact h packet hbefore
      · exact ⟨.find, _, List.mem_singleton.mp hnew⟩
  | receive memory sendto datagram _ => exact ⟨_, rfl, someipUdpReceive_sent_own memory sendto h datagram⟩

theorem run_overUdp {wdtReady : Bool} {steps : List FirmwareStep} {last : Firmware}
    (hrun : exec step (start wdtReady (.udp .static)) steps = some last) : OverUdp last := by
  refine exec_induction (start wdtReady (.udp .static)) (fun _ last => OverUdp last) ?_ ?_ steps last hrun
  · refine ⟨.static, rfl, ?_⟩
    intro packet hpacket
    cases hpacket
  · rintro _ mid input last - ⟨udp, htransport, hown⟩ hstep
    exact sockets_own hown (step_sockets hstep htransport)

end SdvZone.Mcu.Firmware
