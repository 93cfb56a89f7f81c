import Mathlib.Data.List.TakeDrop
import SdvZone.UartReceiver

/-! The packets the MPU writes to the tunnel, and what the framer makes of them. A packet is a frame
of 17 bytes and 7 padding bytes that the length field does not cover. The padding is not discarded:
it stays in the buffer and the next packet is gathered behind it. -/

namespace SdvZone.Uart

open Wire Machine Mpu

/-- The 24 bytes of an event packet: the low byte of the event id, the session id and the payload
vary. -/
def eventWire (code sessionHigh sessionLow value : UInt8) : Bytes :=
  [0x12, 0x34, 0x80, code, 0, 0, 0, 9, 0, 1, sessionHigh, sessionLow, 1, 1, 2, 0, value,
    0, 0, 0, 0, 0, 0, 0]

/-- The low byte of the event id. -/
def eventCode : MpuEvent → UInt8
  | .notify _ => 1
  | .heartbeat _ => 2

theorem eventId_eq (event : MpuEvent) : event.eventId = beNat [0x80, eventCode event] := by
  cases event <;> rfl

/-- Every packet the builders return has this layout. -/
theorem packet_bytes (packet : MpuPacket) :
    packet.bytes = eventWire (eventCode packet.event) (UInt8.ofNat (packet.sessionId / 256))
      (UInt8.ofNat packet.sessionId) packet.event.value := by
  obtain ⟨event, sessionId, bytes, built⟩ := packet
  rw [MpuEvent.build_eq, buildPacket, structPackHeader] at built
  split at built
  · cases built
    cases event <;>
      simp [SomeipHeader.bytes, beBytes, eventWire, eventCode, serviceId, MpuEvent.eventId,
        eventNotify, eventHeartbeat]
  · cases built

theorem packet_length (packet : MpuPacket) : packet.bytes.length = 24 := by
  rw [packet_bytes]
  rfl

/-- The builders succeed for every 16-bit session id. -/
theorem build_eventWire (event : MpuEvent) {sessionId : Nat} (h : sessionId < 2 ^ 16) :
    event.build sessionId = .ok (eventWire (eventCode event) (UInt8.ofNat (sessionId / 256))
      (UInt8.ofNat sessionId) event.value) := by
  have hfits : SomeipHeader.Fits ⟨serviceId, event.eventId, 9, 1, sessionId, 1, 1, 2, 0⟩ := by
    cases event <;>
      simpa [SomeipHeader.Fits, serviceId, MpuEvent.eventId, eventNotify, eventHeartbeat] using h
  rw [MpuEvent.build_eq, buildPacket, structPackHeader]
  simp only [List.length_singleton, Nat.reduceAdd]
  rw [if_pos hfits]
  cases event <;>
    simp [bind, Except.bind, pure, Except.pure, SomeipHeader.bytes, beBytes, eventWire, eventCode,
      serviceId, MpuEvent.eventId, eventNotify, eventHeartbeat]

/-- The packet of an event and a session id. -/
def packetOf (event : MpuEvent) (sessionId : Fin (2 ^ 16)) : MpuPacket :=
  ⟨event, sessionId, _, build_eventWire event sessionId.isLt⟩

/-- The session id of `build_notify` and `build_heartbeat` when none is given. -/
def defaultSession : Fin (2 ^ 16) := ⟨1, by decide⟩

/-! ### From packet to packet -/

/-- What one packet leaves in the buffer when it is not discarded as a whole: the padding, the
padding two bytes short, or the second half of a packet. -/
inductive Leftover : Bytes → Prop where
  | padding : Leftover (List.replicate 7 0)
  | shifted : Leftover (List.replicate 5 0)
  | tail (sessionLow value : UInt8) :
      Leftover ([sessionLow, 1, 1, 2, 0, value] ++ List.replicate 7 0)

theorem Leftover.ne_nil {buffer : Bytes} (h : Leftover buffer) : buffer ≠ [] := by
  cases h <;> simp

/-- An empty buffer reports the packet and keeps its padding. -/
theorem scanFrames_empty (packet : MpuPacket) :
    scanFrames [] (packet.bytes.map some) = (List.replicate 7 0, [packet.sent]) := by
  rw [packet_bytes, MpuPacket.sent, eventId_eq]
  generalize eventCode packet.event = code
  generalize UInt8.ofNat (packet.sessionId / 256) = sessionHigh
  generalize UInt8.ofNat packet.sessionId = sessionLow
  generalize packet.event.value = value
  have hfield : beNat (slice ([] ++ [0x12, 0x34, 0x80, code, 0, 0, 0, 9, 0, 1, sessionHigh,
      sessionLow, 1, 1, 2, 0, value]) 4 8) = 9 := by simp [slice, beNat]
  have hframe := scanFrames_frame _ _ (by simp) hfield (by decide) (by simp)
  rw [if_pos (by simp [slice, beNat, serviceId])] at hframe
  have hpadding := scanFrames_short [] (List.replicate 7 0) (by simp)
  rw [show eventWire code sessionHigh sessionLow value =
      [0x12, 0x34, 0x80, code, 0, 0, 0, 9, 0, 1, sessionHigh, sessionLow, 1, 1, 2, 0, value] ++
        List.replicate 7 0 from rfl,
    List.map_append, scanFrames_append, hframe, hpadding]
  rfl

/-- A buffer with leftover bytes swallows the packet: nothing is reported, and bytes are left over
again. -/
theorem scanFrames_leftover {buffer : Bytes} (h : Leftover buffer) (packet : MpuPacket) :
    ∃ next, Leftover next ∧ scanFrames buffer (packet.bytes.map some) = (next, []) := by
  rw [packet_bytes]
  generalize eventCode packet.event = code
  generalize UInt8.ofNat (packet.sessionId / 256) = sessionHigh
  generalize UInt8.ofNat packet.sessionId = sessionLow
  generalize packet.event.value = value
  have hzeros := scanFrames_short [] (List.replicate 5 0) (by simp)
  cases h with
  | padding =>
      -- the padding and 19 bytes of the packet read as a frame of service 0 and length 0x12
      have hfield : beNat (slice (List.replicate 7 0 ++ [0x12, 0x34, 0x80, code, 0, 0, 0, 9, 0, 1,
          sessionHigh, sessionLow, 1, 1, 2, 0, value, 0, 0]) 4 8) = 0x12 := by simp [slice, beNat]
      have hframe := scanFrames_frame _ _ (by simp) hfield (by decide) (by simp)
      rw [if_neg (by simp [slice, beNat, serviceId])] at hframe
      refine ⟨_, .shifted, ?_⟩
      rw [show eventWire code sessionHigh sessionLow value =
          [0x12, 0x34, 0x80, code, 0, 0, 0, 9, 0, 1, sessionHigh, sessionLow, 1, 1, 2, 0, value, 0, 0]
            ++ List.replicate 5 0 from rfl,
        List.map_append, scanFrames_append, hframe, hzeros]
      rfl
  | shifted =>
      -- the length field falls on the service id
      have hfield : beNat (slice (List.replicate 5 0 ++ [0x12, 0x34, 0x80, code, 0, 0, 0, 9, 0, 1,
          sessionHigh]) 4 8) = 0x123480 := by simp [slice, beNat]
      have hheader := scanFrames_badLength _ _ (by simp) (by simp) hfield (by decide)
      have htail := scanFrames_short [] ([sessionLow, 1, 1, 2, 0, value] ++ List.replicate 7 0)
        (by simp)
      refine ⟨_, .tail sessionLow value, ?_⟩
      rw [show eventWire code sessionHigh sessionLow value =
          [0x12, 0x34, 0x80, code, 0, 0, 0, 9, 0, 1, sessionHigh] ++
            ([sessionLow, 1, 1, 2, 0, value] ++ List.replicate 7 0) from rfl,
        List.map_append, scanFrames_append, hheader, htail]
      rfl
  | tail oldSession oldValue =>
      -- the length field falls on the old payload byte, then on the field's own low byte
      have hfirst : beNat (slice ([oldSession, 1, 1, 2, 0, oldValue] ++ List.replicate 7 0 ++
          [0x12, 0x34, 0x80]) 4 8) = oldValue.toNat * 65536 := by simp [slice, beNat]
      have hsecond : beNat (slice ([] ++ [code, 0, 0, 0, 9, 0, 1, sessionHigh, sessionLow, 1, 1, 2, 0,
          value, 0, 0]) 4 8) = 150994944 + 256 + sessionHigh.toNat := by
        simp [slice, beNat]
        omega
      have hheader := scanFrames_badLength _ _ (by simp) (by simp) hfirst (by omega)
      have hagain := scanFrames_badLength _ _ (by simp) (by simp) hsecond (by omega)
      refine ⟨_, .shifted, ?_⟩
      rw [show eventWire code sessionHigh sessionLow value = [0x12, 0x34, 0x80] ++
          ([code, 0, 0, 0, 9, 0, 1, sessionHigh, sessionLow, 1, 1, 2, 0, value, 0, 0] ++
            List.replicate 5 0) from rfl,
        List.map_append, scanFrames_append, hheader, List.map_append, scanFrames_append, hagain,
        hzeros]
      rfl

/-- The bytes of packets written back to back. -/
def packetStream (packets : List MpuPacket) : Bytes := packets.flatMap MpuPacket.bytes

/-- Behind leftover bytes no packet is ever reported, however many follow. -/
theorem scanFrames_leftovers {buffer : Bytes} (h : Leftover buffer) (packets : List MpuPacket) :
    ∃ next, Leftover next ∧ scanFrames buffer ((packetStream packets).map some) = (next, []) := by
  induction packets generalizing buffer with
  | nil => exact ⟨buffer, h, rfl⟩
  | cons packet rest ih =>
      obtain ⟨mid, hmid, hpacket⟩ := scanFrames_leftover h packet
      obtain ⟨next, hnext, hrest⟩ := ih hmid
      refine ⟨next, hnext, ?_⟩
      rw [packetStream, List.flatMap_cons, List.map_append, scanFrames_append, hpacket]
      rw [packetStream] at hrest
      rw [hrest]
      rfl

/-- From an empty buffer the first packet is reported, and no other. -/
theorem scanFrames_stream (packet : MpuPacket) (rest : List MpuPacket) :
    ∃ next, Leftover next ∧
      scanFrames [] ((packetStream (packet :: rest)).map some) = (next, [packet.sent]) := by
  obtain ⟨next, hnext, hrest⟩ := scanFrames_leftovers .padding rest
  refine ⟨next, hnext, ?_⟩
  rw [packetStream] at hrest
  rw [packetStream, List.flatMap_cons, List.map_append, scanFrames_append, scanFrames_empty, hrest]
  rfl

/-! ### Completeness of the stream parser

Without pauses the parser reports the first packet and, behind its padding, no other. -/

theorem feedBytes_stream (timeoutMs : Nat) (packets : List MpuPacket)
    (arrivals : List StreamParser.Arrival)
    (hbytes : arrivals.map StreamParser.Arrival.byte = packetStream packets)
    (hunpaused : StreamParser.Unpaused timeoutMs arrivals) :
    ((StreamParser.init timeoutMs).feedBytes arrivals).2 = (packets.map MpuPacket.sent).take 1 := by
  have hrun := feedBytes_unpaused (StreamParser.init timeoutMs) arrivals (fun _ _ => rfl) hunpaused
  rw [hbytes] at hrun
  cases packets with
  | nil => exact (congrArg Prod.snd hrun).symm
  | cons packet rest =>
      obtain ⟨next, _, hstream⟩ := scanFrames_stream packet rest
      rw [show (StreamParser.init timeoutMs).buf = [] from rfl, hstream] at hrun
      exact (congrArg Prod.snd hrun).symm

/-- The parser reports every packet of an unpaused stream exactly when there is at most one. -/
theorem feedBytes_complete_iff (timeoutMs : Nat) (packets : List MpuPacket)
    (arrivals : List StreamParser.Arrival)
    (hbytes : arrivals.map StreamParser.Arrival.byte = packetStream packets)
    (hunpaused : StreamParser.Unpaused timeoutMs arrivals) :
    ((StreamParser.init timeoutMs).feedBytes arrivals).2 = packets.map MpuPacket.sent ↔
      packets.length ≤ 1 := by
  rw [feedBytes_stream timeoutMs packets arrivals hbytes hunpaused, List.take_eq_self_iff,
    List.length_map]

/-- Bytes that arrive without any time passing. -/
def atOnce (bytes : Bytes) : List StreamParser.Arrival := bytes.map fun byte => ⟨0, 0, byte⟩

theorem atOnce_byte (bytes : Bytes) : (atOnce bytes).map StreamParser.Arrival.byte = bytes := by
  rw [atOnce, List.map_map]
  exact List.map_id bytes

theorem atOnce_unpaused (timeoutMs : Nat) (bytes : Bytes) :
    StreamParser.Unpaused timeoutMs (atOnce bytes) := by
  rw [StreamParser.Unpaused, atOnce, List.isChain_map]
  refine (List.pairwise_iff_forall_sublist.mpr fun _ => ?_).isChain
  show (0 : ℚ) - 0 ≤ (timeoutMs : ℚ) / 1000
  rw [sub_self]
  exact div_nonneg (Nat.cast_nonneg timeoutMs) (by decide)

def notifyPacket : MpuPacket := packetOf (.notify 85) defaultSession

theorem feedBytes_complete_single :
    ((StreamParser.init 50).feedBytes (atOnce (packetStream [notifyPacket]))).2 =
        [(0x8001, [85])] ↔ 1 ≤ 1 :=
  feedBytes_complete_iff 50 [notifyPacket] _ (atOnce_byte _) (atOnce_unpaused 50 _)

def twoHeartbeats : List MpuPacket :=
  [packetOf (.heartbeat 0) defaultSession, packetOf (.heartbeat 1) ⟨2, by decide⟩]

/-- Two heartbeats back to back: the second is lost behind the padding of the first. -/
theorem feedBytes_second_lost :
    (atOnce (packetStream twoHeartbeats)).map StreamParser.Arrival.byte =
      packetStream twoHeartbeats ∧
    StreamParser.Unpaused 50 (atOnce (packetStream twoHeartbeats)) ∧
    ((StreamParser.init 50).feedBytes (atOnce (packetStream twoHeartbeats))).2 =
      [(0x8002, [0])] ∧
    twoHeartbeats.map MpuPacket.sent = [(0x8002, [0]), (0x8002, [1])] := by
  refine ⟨atOnce_byte _, atOnce_unpaused 50 _, ?_, rfl⟩
  rw [feedBytes_stream 50 _ _ (atOnce_byte _) (atOnce_unpaused 50 _)]
  rfl

/-! ### Soundness at both ends -/

theorem packetStream_length (packets : List MpuPacket) :
    (packetStream packets).length = 24 * packets.length := by
  induction packets with
  | nil => rfl
  | cons packet rest ih =>
      rw [packetStream] at ih ⊢
      rw [List.flatMap_cons, List.length_append, packet_length, ih, List.length_cons]
      omega

theorem packetStream_drop (packets : List MpuPacket) (k : Nat) :
    (packetStream packets).drop (k * 24) = packetStream (packets.drop k) := by
  induction k generalizing packets with
  | zero => rw [Nat.zero_mul, List.drop_zero, List.drop_zero]
  | succ k ih =>
      cases packets with
      | nil => rw [packetStream, List.flatMap_nil, List.drop_nil, List.drop_nil]; rfl
      | cons packet rest =>
          rw [packetStream, List.flatMap_cons, Nat.succ_mul, Nat.add_comm,
            ← List.drop_drop, List.drop_left' (packet_length packet), List.drop_succ_cons]
          exact ih rest

/-- A service id field that reads 0x1234 is these two bytes. -/
theorem service_bytes {bytes : Bytes} (h : beNat (slice bytes 0 2) = serviceId) :
    ∃ rest, bytes = 0x12 :: 0x34 :: rest := by
  match bytes with
  | [] => cases h
  | [high] =>
      have hhigh := high.toNat_lt
      simp [slice, beNat, serviceId] at h
      omega
  | high :: low :: rest =>
      have hlow := low.toNat_lt
      have hfield : high.toNat * 256 + low.toNat = 0x1234 := by
        simpa [slice, beNat, serviceId] using h
      have hhigh : high = 0x12 := UInt8.toNat_inj.mp (show high.toNat = 18 by omega)
      have hlow' : low = 0x34 := UInt8.toNat_inj.mp (show low.toNat = 52 by omega)
      exact ⟨rest, by rw [hhigh, hlow']⟩

/-- Inside a packet the service id is found at the start, and perhaps in the session id. -/
theorem service_offset {code sessionHigh sessionLow value : UInt8} {rest : Bytes} {offset : Nat}
    (hoffset : offset < 24)
    (hservice : beNat (slice ((eventWire code sessionHigh sessionLow value).drop offset ++ rest) 0 2) =
      serviceId) : offset = 0 ∨ offset = 10 := by
  obtain ⟨tail, htail⟩ := service_bytes hservice
  interval_cases offset <;> simp [eventWire] at htail ⊢

/-- No other offset starts a frame: behind the session id the length field falls on the message
type. -/
theorem offset_eq_zero {code sessionHigh sessionLow value : UInt8} {rest : Bytes} {offset : Nat}
    (hoffset : offset < 24)
    (hservice : beNat (slice ((eventWire code sessionHigh sessionLow value).drop offset ++ rest) 0 2) =
      serviceId)
    (hlength : beNat (slice ((eventWire code sessionHigh sessionLow value).drop offset ++ rest) 4 8) ≤
      32) : offset = 0 := by
  rcases service_offset hoffset hservice with rfl | rfl
  · rfl
  · have htype : beNat (slice ((eventWire code sessionHigh sessionLow value).drop 10 ++ rest) 4 8) =
        33554432 + value.toNat * 256 := by simp [eventWire, slice, beNat]
    omega

/-- A window that begins in a packet is accepted only from the packet's first byte on, as its frame. -/
theorem emit_offset {code sessionHigh sessionLow value : UInt8} {rest : Bytes} {offset size : Nat}
    {event : Nat × Bytes} (hoffset : offset < 24)
    (hsize : size ≤ ((eventWire code sessionHigh sessionLow value).drop offset ++ rest).length)
    (hverdict : frameVerdict (((eventWire code sessionHigh sessionLow value).drop offset ++ rest).take
      size) = .emit event) :
    offset = 0 ∧ 0 < size ∧ event = (beNat [0x80, code], [value]) := by
  obtain ⟨⟨⟨⟨_, hlength⟩, hservice, _⟩, htotal⟩, hevent⟩ := frameVerdict_emit_iff.mp hverdict
  rw [List.length_take, Nat.min_eq_left hsize] at htotal
  rw [slice_take _ (by omega)] at hservice hlength
  have hzero := offset_eq_zero hoffset hservice hlength
  subst hzero
  have hfield := @slice_take ((eventWire code sessionHigh sessionLow value).drop 0 ++ rest) 4 8 size
    (by omega)
  have hnine : beNat (slice ((eventWire code sessionHigh sessionLow value).drop 0 ++ rest) 4 8) = 9 := by
    simp [eventWire, slice, beNat]
  rw [hfield, hnine] at hevent htotal
  rw [slice_take _ (by omega), slice_take _ (by omega)] at hevent
  refine ⟨rfl, by omega, hevent.trans ?_⟩
  simp [eventWire, slice]

/-- A window of a packet stream, seen from the packet it starts in. -/
theorem window_packet (packets : List MpuPacket) {start : Nat} (stop : Nat)
    (hstart : start < 24 * packets.length) :
    ∃ packet, packets[start / 24]? = some packet ∧
      Framer.window (packetStream packets) start stop =
        (packet.bytes.drop (start % 24) ++ packetStream (packets.drop (start / 24 + 1))).take
          (stop - start) := by
  have hk : start / 24 < packets.length := by omega
  refine ⟨packets[start / 24], List.getElem?_eq_getElem hk, ?_⟩
  have hsplit : start = start / 24 * 24 + start % 24 := by omega
  have hdrop : (packetStream packets).drop start =
      (packetStream (packets.drop (start / 24))).drop (start % 24) := by
    calc
      (packetStream packets).drop start =
          (packetStream packets).drop (start / 24 * 24 + start % 24) := by rw [← hsplit]
      _ = ((packetStream packets).drop (start / 24 * 24)).drop (start % 24) :=
          (List.drop_drop ..).symm
      _ = (packetStream (packets.drop (start / 24))).drop (start % 24) := by
          rw [packetStream_drop]
  rw [Framer.window, List.drop_take, hdrop, List.drop_eq_getElem_cons hk, packetStream,
    List.flatMap_cons, List.drop_append_of_le_length (by rw [packet_length]; omega)]
  rfl

/-- Every accepted window of a packet stream is the frame of one of its packets. -/
theorem packetStream_aligned (packets : List MpuPacket) :
    Framer.Aligned frameVerdict 24 (packetStream packets) (packets.map MpuPacket.sent) := by
  intro start stop event hle hstop hverdict
  have hlong := (frameVerdict_emit_iff.mp hverdict).1.size
  rw [Framer.window, List.length_drop, List.length_take] at hlong
  have hsize := packetStream_length packets
  obtain ⟨packet, hpacket, hwindow⟩ := @window_packet packets start stop (by omega)
  have hfits : stop - start ≤
      (packet.bytes.drop (start % 24) ++ packetStream (packets.drop (start / 24 + 1))).length := by
    have h := congrArg List.length hwindow
    rw [Framer.window, List.length_drop, List.length_take, List.length_take] at h
    omega
  rw [hwindow, packet_bytes] at hverdict
  rw [packet_bytes] at hfits
  obtain ⟨hoffset, hpos, hevent⟩ :=
    emit_offset (by omega) hfits hverdict
  refine ⟨start / 24, by omega, ?_, by omega⟩
  rw [List.getElem?_map, hpacket, hevent, Option.map_some, MpuPacket.sent, eventId_eq]

/-- The pair the MCU should hand over for a packet. -/
def mcuSent (packet : MpuPacket) : Mcu.UartEvent := (packet.event.eventId, packet.event.value)

/-- Events of the MCU that match frames which were sent are what was sent, in the same order. -/
theorem sublist_of_sameEvents {events : List Mcu.UartEvent} {frames : List (Nat × Bytes)}
    {packets : List MpuPacket} (hevents : List.Forall₂ SameEvent events frames)
    (hframes : frames.Sublist (packets.map MpuPacket.sent)) : events.Sublist (packets.map mcuSent) := by
  induction packets generalizing events frames with
  | nil =>
      cases List.sublist_nil.mp hframes
      cases hevents
      exact List.nil_sublist _
  | cons packet rest ih =>
      rw [List.map_cons] at hframes ⊢
      cases hframes with
      | cons _ htail => exact (ih hevents htail).cons _
      | cons_cons _ htail =>
          cases hevents with
          | @cons event _ _ _ hhead hrest =>
              have hevent : event = mcuSent packet :=
                Prod.ext hhead.1 (hhead.2 _ rfl)
              rw [hevent]
              exact (ih hrest htail).cons_cons _

/-- Neither end of the tunnel reports an event that was not sent, twice, or out of order, wherever
the pauses between the bytes fall. -/
theorem tunnel_sound (packets : List MpuPacket) :
    (∀ timeoutMs arrivals, arrivals.map StreamParser.Arrival.byte = packetStream packets →
      ((StreamParser.init timeoutMs).feedBytes arrivals).2.Sublist (packets.map MpuPacket.sent)) ∧
    (∀ rounds, lineBytes rounds = packetStream packets →
      (Mcu.someipUartCalls Mcu.UartRx.init rounds).2.Sublist (packets.map mcuSent)) := by
  constructor
  · intro timeoutMs arrivals hbytes
    obtain ⟨inputs, hinputs, hrun⟩ := feedBytes_refines (StreamParser.init timeoutMs) arrivals
    have hsound := Framer.scan_sublist frameVerdict (by decide) (packetStream_aligned packets) inputs
      (hinputs.trans hbytes)
    rwa [show Framer.scan frameVerdict [] inputs = _ from hrun] at hsound
  · intro rounds hbytes
    obtain ⟨inputs, hinputs, -, hevents⟩ :=
      someipUartCalls_refines Mcu.UartRx.init rounds (by decide : 0 < 40)
    exact sublist_of_sameEvents hevents
      (Framer.scan_sublist frameVerdict (by decide) (packetStream_aligned packets) inputs
        (hinputs.trans hbytes))

def notifyAndHeartbeat : List MpuPacket := [notifyPacket, packetOf (.heartbeat 1) ⟨2, by decide⟩]

/-- Both ends on a Notify and a heartbeat that arrive without a pause. -/
theorem tunnel_sound_two :
    ((StreamParser.init 50).feedBytes
        (atOnce (packetStream notifyAndHeartbeat))).2.Sublist
      [(0x8001, [85]), (0x8002, [1])] ∧
    (Mcu.someipUartCalls Mcu.UartRx.init
        [⟨0, (packetStream notifyAndHeartbeat).map fun byte =>
          (0, byte)⟩]).2.Sublist [(0x8001, 85), (0x8002, 1)] := by
  obtain ⟨hparser, hreceiver⟩ := tunnel_sound notifyAndHeartbeat
  refine ⟨hparser 50 _ (atOnce_byte _), hreceiver _ ?_⟩
  rw [lineBytes, List.flatMap_singleton, List.map_map]
  exact List.map_id _

end SdvZone.Uart
