import SdvZone.McuSomeipUdp
import SdvZone.UartFraming

/-! What `someip_udp_receive` makes of a datagram: all that it reads of its buffer has been copied
from the datagram, so nothing depends on what the stack held before. -/

namespace SdvZone.Udp

open Wire Uart

variable (memory : Vector UInt8 64) (sendto : Mcu.Outgoing → Int)

/-- The buffer after `zsock_recvfrom`. -/
def received (datagram : Bytes) : Bytes :=
  datagram.take 64 ++ memory.toList.drop (datagram.take 64).length

theorem zsockRecvfrom_some (datagram : Bytes) :
    Mcu.SomeipUdp.zsockRecvfrom memory (some datagram) =
      (((min datagram.length 64 : Nat) : Int), received memory datagram) := by
  refine Prod.ext (by simp [Mcu.SomeipUdp.zsockRecvfrom]) ?_
  show overwrite memory.toList 0 (datagram.take 64) = received memory datagram
  rw [received, overwrite, List.take_zero, List.nil_append, Nat.zero_add]

theorem slice_received {datagram : Bytes} {start stop : Nat} (h : stop ≤ min datagram.length 64) :
    slice (received memory datagram) start stop = slice datagram start stop := by
  rw [received, slice_append_left _ _ (by rw [List.length_take]; omega), slice_take _ (by omega)]

theorem getU8_received {datagram : Bytes} {pos : Nat} (h : pos < min datagram.length 64) :
    getU8 (received memory datagram) pos = getU8 datagram pos := by
  rw [received, getU8_append_left _ (by rw [List.length_take]; omega), getU8_take _ (by omega)]

instance (packet : Bytes) : Decidable (Notification packet) :=
  decidable_of_iff (_ ∧ _ ∧ _) ⟨fun h => ⟨h.1, h.2.1, h.2.2⟩, fun h => ⟨h.length, h.service, h.type⟩⟩

/-- Service discovery goes to its handler, a notification to the caller, and the rest nowhere. -/
theorem someipUdpReceive_eq (udp : Mcu.SomeipUdp) (datagram : Bytes) :
    udp.someipUdpReceive memory sendto (some datagram) =
      if datagram.length < 17 then (udp, none)
      else if beNat (slice datagram 0 2) = 0xFFFF then
        (udp.someipSdHandle memory sendto (received memory datagram) (min datagram.length 64), none)
      else if Notification datagram then
        (udp, some (beNat (slice datagram 2 4), getU8 datagram 16))
      else (udp, none) := by
  rw [Mcu.SomeipUdp.someipUdpReceive, zsockRecvfrom_some]
  dsimp only
  by_cases hshort : datagram.length < 17
  · rw [if_pos hshort, if_pos (by rw [Mcu.headerSize]; omega)]
  rw [if_neg hshort, if_neg (by rw [Mcu.headerSize]; omega), slice_received memory (by omega),
    slice_received memory (by omega), slice_received memory (by omega),
    slice_received memory (by omega), Mcu.headerSize, getU8_received memory (by omega),
    Int.toNat_natCast, show Mcu.sdServiceId.toNat = 0xFFFF from rfl]
  by_cases hsd : beNat (slice datagram 0 2) = 0xFFFF
  · rw [if_pos hsd, if_pos hsd]
  rw [if_neg hsd, if_neg hsd]
  by_cases hvalid : Notification datagram
  · have hservice : ¬beNat (slice datagram 0 2) ≠ Mcu.serviceId := not_not_intro hvalid.service
    have hlength := hvalid.length
    rw [if_pos hvalid, if_neg hservice, if_neg (not_not_intro hvalid.type), if_neg (by omega)]
  · rw [if_neg hvalid]
    split_ifs with hservice htype hlength
    · rfl
    · rfl
    · rfl
    · exact absurd ⟨by omega, not_not.mp hservice, not_not.mp htype⟩ hvalid

theorem someipUdpReceive_event_iff (udp : Mcu.SomeipUdp) {datagram : Bytes}
    (h : 17 ≤ datagram.length) (event : Mcu.UartEvent) :
    (udp.someipUdpReceive memory sendto (some datagram)).2 = some event ↔
      Notification datagram ∧ event = (beNat (slice datagram 2 4), getU8 datagram 16) := by
  rw [someipUdpReceive_eq, if_neg (by omega)]
  split_ifs with hsd hvalid
  · refine iff_of_false (by simp) fun hevent => ?_
    have hservice := hevent.1.service
    rw [hsd] at hservice
    exact absurd hservice (by decide)
  · exact ⟨fun hevent => ⟨hvalid, (Option.some.inj hevent).symm⟩, fun hevent => hevent.2 ▸ rfl⟩
  · exact iff_of_false (by simp) fun hevent => hvalid hevent.1

end SdvZone.Udp
