import SdvZone.MachineComposition
import SdvZone.SdSubscriptions

/-! The MCU on a UDP network, with some other machine that sends datagrams. The network loses, delays,
duplicates and reorders datagrams, and brings the MCU its own ones back, but it makes none up: what the
MCU receives has been sent. -/

namespace SdvZone.Zone

open Wire Machine

def ownDatagrams (firmware : Mcu.Firmware) : List Bytes :=
  match firmware.transport with
  | .udp udp => udp.sent.map Mcu.Outgoing.bytes
  | .uart _ => []

/-- A datagram that comes in has been sent before. -/
def network (sent : List Bytes) (firmware : Mcu.Firmware) : Mcu.FirmwareStep → Bool
  | .receiveUdp _ _ (some datagram) => (sent ++ ownDatagrams firmware).contains datagram
  | _ => true

theorem network_iff {sent : List Bytes} {firmware : Mcu.Firmware} {memory : Vector UInt8 64}
    {sendto : Mcu.Outgoing → Int} {datagram : Bytes} :
    network sent firmware (.receiveUdp memory sendto (some datagram)) = true ↔
      datagram ∈ sent ∨ datagram ∈ ownDatagrams firmware := by
  rw [network, List.contains_iff_mem, List.mem_append]

/-- What has come through may come through again, whatever is sent later. -/
theorem network_mono {sent later : List Bytes} (hsent : sent ⊆ later) (firmware : Mcu.Firmware)
    (input : Mcu.FirmwareStep) (h : network sent firmware input = true) :
    network later firmware input = true := by
  cases input with
  | receiveUdp memory sendto datagram =>
      cases datagram with
      | none => rfl
      | some datagram => exact network_iff.mpr ((network_iff.mp h).imp_left fun hmem => hsent hmem)
  | tick | can | findService | lastFind | resyncUart | pollUart | dispatch => rfl

/-- What the MCU makes of a datagram. -/
def receptionOf (datagram : Bytes) : Mcu.Reception :=
  ⟨datagram, (beNat (slice datagram 2 4), getU8 datagram 16)⟩

/-- The reception of an event among the datagrams. -/
def Among (datagrams : List Bytes) (reception : Mcu.Reception) : Prop :=
  ∃ datagram ∈ datagrams, Uart.Notification datagram ∧ reception = receptionOf datagram

section Sender

variable {σ ι : Type} (sender : σ → ι → Option σ) (sent : σ → List Bytes)

def overUdp : σ × Mcu.Firmware → ι ⊕ Mcu.FirmwareStep → Option (σ × Mcu.Firmware) :=
  compose sender Mcu.Firmware.step fun state firmware input => network (sent state) firmware input = true

variable {sender sent}

theorem overUdp_cases {pair next : σ × Mcu.Firmware} {input : ι ⊕ Mcu.FirmwareStep}
    (h : overUdp sender sent pair input = some next) :
    (∃ own, input = .inl own ∧ sender pair.1 own = some next.1 ∧ next.2 = pair.2) ∨
      ∃ own, input = .inr own ∧ network (sent pair.1) pair.2 own = true ∧
        pair.2.step own = some next.2 ∧ next.1 = pair.1 :=
  compose_cases h

variable (hkept : ∀ state action next, sender state action = some next → sent state ⊆ sent next)
  {first : σ} {wdtReady : Bool} {steps : List (ι ⊕ Mcu.FirmwareStep)} {last : σ × Mcu.Firmware}
  (hrun : exec (overUdp sender sent) (first, .start wdtReady (.udp .static)) steps = some last)

include hkept hrun

/-- A run on the network is a run of each side, and what the MCU receives in it has been sent. -/
theorem overUdp_run :
    exec sender first (lefts steps) = some last.1 ∧
      exec Mcu.Firmware.step (.start wdtReady (.udp .static)) (rights steps) = some last.2 ∧
      Along Mcu.Firmware.step (fun firmware input => network (sent last.1) firmware input = true)
        (.start wdtReady (.udp .static)) (rights steps) :=
  compose_run (fun state firmware input => network (sent state) firmware input = true)
    (fun _ _ _ hnetwork => hnetwork)
    (fun _ _ _ hstep firmware input hnetwork => network_mono (hkept _ _ _ hstep) firmware input hnetwork) hrun

/-- The MCU accepts events of the sender, and none of its own packets. -/
theorem overUdp_delivers :
    Along Mcu.Firmware.step (Mcu.Firmware.DeliversOnly (Among (sent last.1)))
      (.start wdtReady (.udp .static)) (rights steps) := by
  obtain ⟨-, -, halong⟩ := overUdp_run hkept hrun
  intro front input mid hfront hmid reception hdelivers
  obtain ⟨udp, htransport, hown⟩ := Mcu.Firmware.run_overUdp hmid
  have hnetwork := halong front input mid hfront hmid
  cases hdelivers with
  | frame rx byte huart _ _ =>
      rw [htransport] at huart
      cases huart
  | datagram memory sendto datagram _ hvalid =>
      rcases network_iff.mp hnetwork with hsent | hback
      · exact ⟨datagram, hsent, hvalid, rfl⟩
      · rw [ownDatagrams, htransport] at hback
        obtain ⟨packet, hpacket, rfl⟩ := List.mem_map.mp hback
        obtain ⟨own, sessionId, rfl⟩ := hown packet hpacket
        have hservice : beNat (slice (Udp.SdSender.packet sessionId own).bytes 0 2) = 0xFFFF := by
          cases own <;> exact Udp.service_messageOf _ _ _ _
        have hevent := hvalid.service
        rw [hservice] at hevent
        cases hevent

end Sender

end SdvZone.Zone
