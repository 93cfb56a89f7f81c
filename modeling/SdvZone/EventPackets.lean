import SdvZone.MpuProtocol

/-! The packets of events (`build_packet`) and the parser for them (`parse_event`). The length field
alone says where the payload ends and the padding begins. -/

namespace SdvZone.Mpu

open Wire

namespace SomeipHeader

theorem bytes_length (header : SomeipHeader) : header.bytes.length = 16 := by
  simp [bytes]

end SomeipHeader

/-- What `struct` packs it unpacks. -/
theorem structUnpackHeader_bytes {header : SomeipHeader} (h : header.Fits) :
    structUnpackHeader header.bytes = .ok header := by
  obtain ⟨hservice, hmethod, hlength, hclient, hsession, hprotocol, hinterface, htype, hreturn⟩ := h
  have hfield : ∀ {start stop n value : Nat}, slice header.bytes start stop = beBytes n value →
      value < 256 ^ n → beNat (slice header.bytes start stop) = value := by
    intro start stop n value hslice hvalue
    rw [hslice, beNat_beBytes_of_lt hvalue]
  rw [structUnpackHeader, if_pos header.bytes_length]
  apply congrArg Except.ok
  cases header
  rw [SomeipHeader.mk.injEq]
  refine ⟨?_, ?_, ?_, ?_, ?_, ?_, ?_, ?_, ?_⟩
  · exact @hfield 0 2 2 _ rfl hservice
  · exact @hfield 2 4 2 _ rfl hmethod
  · exact @hfield 4 8 4 _ rfl hlength
  · exact @hfield 8 10 2 _ rfl hclient
  · exact @hfield 10 12 2 _ rfl hsession
  · exact @hfield 12 13 1 _ rfl hprotocol
  · exact @hfield 13 14 1 _ rfl hinterface
  · exact @hfield 14 15 1 _ rfl htype
  · exact @hfield 15 16 1 _ rfl hreturn

theorem lengthField_bytes {header : SomeipHeader} (h : header.Fits) :
    beNat (slice header.bytes 4 8) = header.length := by
  have hunpack := structUnpackHeader_bytes h
  rw [structUnpackHeader, if_pos header.bytes_length] at hunpack
  have hlength := congrArg SomeipHeader.length (Except.ok.inj hunpack)
  dsimp only at hlength
  exact hlength

/-- What `parse_event` makes of an event header and the bytes behind it. -/
theorem parseEvent_header {header : SomeipHeader} (hfits : header.Fits)
    (hservice : header.serviceId = serviceId) (htype : header.messageType = 0x02) {size : Nat}
    (hlength : header.length = size + 8) (body : Bytes) :
    parseEvent (header.bytes ++ body) =
      if body.length < size then
        .error (.valueError s!"length field {header.length} inconsistent with packet size")
      else .ok (header.methodId, body.take size) := by
  have hlong : (header.bytes ++ body).length = 16 + body.length := by
    rw [List.length_append, header.bytes_length]
  have hpayload : ((header.length : Int) - 8).toNat = size := by omega
  rw [parseEvent, if_neg (by omega), slice_append_head _ _ header.bytes_length,
    structUnpackHeader_bytes hfits]
  simp only [bind, Except.bind]
  rw [if_neg (not_not.mpr hservice), if_neg (not_not.mpr htype), hlong, hpayload]
  by_cases hshort : body.length < size
  · rw [if_pos hshort, if_pos (by omega)]
  · rw [if_neg hshort, if_neg (by omega), slice_append_right _ _ header.bytes_length.le,
      header.bytes_length, Nat.sub_self, Nat.add_sub_cancel_left, slice_zero_take]

/-- The header of the packets of an event. -/
def eventHeader (eventId size sessionId : Nat) : SomeipHeader :=
  { serviceId := serviceId
    methodId := eventId
    length := size + 8
    clientId := 0x0001
    sessionId := sessionId
    protocolVersion := 0x01
    interfaceVersion := 0x01
    messageType := 0x02
    returnCode := 0x00 }

theorem eventHeader_fits (eventId sessionId : Fin (2 ^ 16)) {size : Nat} (h : size < 2 ^ 32 - 8) :
    (eventHeader eventId size sessionId).Fits := by
  have hsize : size + 8 < 2 ^ 32 := by omega
  simp only [SomeipHeader.Fits, eventHeader]
  exact ⟨by decide, eventId.isLt, hsize, by decide, sessionId.isLt, by decide, by decide, by decide,
    by decide⟩

/-- The padding behind a payload. -/
def padding (size : Nat) : Bytes := List.replicate ((8 - (16 + size) % 8) % 8) 0x00

theorem buildPacket_eq (eventId sessionId : Fin (2 ^ 16)) {payload : Bytes}
    (h : payload.length < 2 ^ 32 - 8) :
    buildPacket eventId payload sessionId =
      .ok ((eventHeader eventId payload.length sessionId).bytes ++ (payload ++ padding payload.length)) := by
  have hpack : structPackHeader (eventHeader eventId payload.length sessionId) = .ok _ :=
    if_pos (eventHeader_fits eventId sessionId h)
  rw [eventHeader] at hpack
  rw [buildPacket, hpack]
  simp only [bind, Except.bind, pure, Except.pure]
  rw [List.length_append, SomeipHeader.bytes_length, List.append_assoc]
  rfl

/-- Every payload comes back, whatever follows the packet; a packet without its last payload byte is
refused. -/
theorem event_round_trip (eventId sessionId : Fin (2 ^ 16)) (payload : Bytes)
    (h : payload.length < 2 ^ 32 - 8) :
    ∃ packet, buildPacket eventId payload sessionId = .ok packet ∧
      packet.length % 8 = 0 ∧ 16 + payload.length ≤ packet.length ∧
      packet.length < 16 + payload.length + 8 ∧
      beNat (slice packet 4 8) = payload.length + 8 ∧
      (∀ rest, parseEvent (packet ++ rest) = .ok (eventId, payload)) ∧
      ∀ n < 16 + payload.length, ∃ message,
        parseEvent (packet.take n) = .error (.valueError message) := by
  have hfits := eventHeader_fits eventId sessionId h
  have hparse := @parseEvent_header _ hfits rfl rfl payload.length rfl
  have hbytes := (eventHeader eventId payload.length sessionId).bytes_length
  have hsize : (payload ++ padding payload.length).length =
      payload.length + (8 - (16 + payload.length) % 8) % 8 := by
    rw [List.length_append, padding, List.length_replicate]
  refine ⟨_, buildPacket_eq eventId sessionId h, ?_, ?_, ?_, ?_, fun rest => ?_, fun n hn => ?_⟩
  · rw [List.length_append, hbytes, hsize]
    omega
  · rw [List.length_append, hbytes, hsize]
    omega
  · rw [List.length_append, hbytes, hsize]
    omega
  · rw [slice_append_left _ _ (by rw [hbytes]; decide), lengthField_bytes hfits]
    rfl
  · rw [List.append_assoc, List.append_assoc, hparse, if_neg (by rw [List.length_append]; omega),
      List.take_left]
    rfl
  · rcases lt_or_ge n 16 with hshort | hlong
    · refine ⟨_, if_pos ?_⟩
      rw [List.length_take]
      omega
    · rw [List.take_append, List.take_of_length_le (by omega), hparse, if_pos]
      · exact ⟨_, rfl⟩
      · rw [List.length_take]
        omega

/-- A payload that ends in zeros, and whose packet needs no padding. -/
theorem event_round_trip_zeros :
    ∃ packet, buildPacket 0x8001 [0x55, 0, 0, 0, 0, 0, 0, 0] 0xFFFF = .ok packet ∧
      packet.length % 8 = 0 ∧ 16 + 8 ≤ packet.length ∧ packet.length < 16 + 8 + 8 ∧
      beNat (slice packet 4 8) = 8 + 8 ∧
      (∀ rest, parseEvent (packet ++ rest) = .ok (0x8001, [0x55, 0, 0, 0, 0, 0, 0, 0])) ∧
      ∀ n < 16 + 8, ∃ message, parseEvent (packet.take n) = .error (.valueError message) :=
  event_round_trip 0x8001 0xFFFF [0x55, 0, 0, 0, 0, 0, 0, 0] (by decide)

end SdvZone.Mpu
