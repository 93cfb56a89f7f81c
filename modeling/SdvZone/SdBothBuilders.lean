import SdvZone.McuServiceDiscovery
import SdvZone.SdPackets

/-! The builders of the MCU against those of the MPU. The MCU writes its packets front to back: each
write goes right behind what has been written, so the buffer is at any time a prefix of the packet
and, behind it, what was there before. -/

namespace SdvZone.Sd

open Wire

/-! ### Writing front to back -/

section Writes

variable {front : Bytes} {pos : Nat}

theorem overwrite_next (h : front.length = pos) (memory bytes : Bytes) :
    overwrite (front ++ memory.drop pos) pos bytes =
      (front ++ bytes) ++ memory.drop (pos + bytes.length) := by
  subst h
  rw [overwrite_behind, List.length_append]

theorem putU8_next (h : front.length = pos) (memory : Bytes) (value : UInt8) :
    putU8 (front ++ memory.drop pos) pos value =
      (front ++ beBytes 1 value.toNat) ++ memory.drop (pos + 1) := by
  rw [beBytes_u8]
  exact overwrite_next h memory _

theorem putU16_next (h : front.length = pos) (memory : Bytes) (value : UInt16) :
    putU16 (front ++ memory.drop pos) pos value =
      (front ++ beBytes 2 value.toNat) ++ memory.drop (pos + 2) := by
  rw [beBytes_u16]
  exact overwrite_next h memory _

theorem putU32_next (h : front.length = pos) (memory : Bytes) (value : UInt32) :
    putU32 (front ++ memory.drop pos) pos value =
      (front ++ beBytes 4 value.toNat) ++ memory.drop (pos + 4) := by
  rw [beBytes_u32]
  exact overwrite_next h memory _

end Writes

theorem and_u8 (value : UInt8) : value.toNat &&& 0xFF = value.toNat := by
  rw [Nat.and_two_pow_sub_one_eq_mod _ 8, Nat.mod_eq_of_lt value.toNat_lt]

theorem and_u16 (value : UInt16) : value.toNat &&& 0xFFFF = value.toNat := by
  rw [Nat.and_two_pow_sub_one_eq_mod _ 16, Nat.mod_eq_of_lt value.toNat_lt]

/-! ### The parts of a packet -/

/-- The 24 bytes before the entries. -/
theorem putHeaders_eq (out : Bytes) (length entriesLen : UInt32) (sessionId : UInt16) :
    Mcu.putSdHeader (Mcu.putSomeipHeader out 0 length sessionId) entriesLen =
      Mpu.sdHead length.toNat sessionId.toNat Mpu.flagUnicast entriesLen.toNat ++ out.drop 24 := by
  have hstart : out = [] ++ out.drop 0 := rfl
  unfold Mcu.putSdHeader Mcu.putSomeipHeader
  conv_lhs => rw [hstart]
  dsimp only
  rw [putU16_next (by rfl), putU16_next (by rfl), putU32_next (by rfl), putU16_next (by rfl),
    putU16_next (by rfl), putU8_next (by rfl), putU8_next (by rfl), putU8_next (by rfl),
    putU8_next (by rfl), putU8_next (by rfl), putU8_next (by rfl), putU8_next (by rfl),
    putU8_next (by rfl), putU32_next (by rfl), Mpu.sdHead, and_u16]
  simp only [List.append_assoc]
  rfl

theorem ttlDefault_bytes : Mpu.packTtl Mpu.ttlDefault =
    beBytes 1 (Mcu.sdTtlDefault >>> 16).toUInt8.toNat ++
      (beBytes 1 (Mcu.sdTtlDefault >>> 8).toUInt8.toNat ++
        beBytes 1 Mcu.sdTtlDefault.toUInt8.toNat) := by
  decide

/-- The last four bytes of an entry. -/
def entryTail (type : UInt8) (eventgroupId : UInt16) : Bytes :=
  if type = Mcu.sdEntrySubscribeEventgroup ∨ type = Mcu.sdEntrySubscribeEventgroupAck then
    beBytes 2 0 ++ beBytes 2 eventgroupId.toNat
  else beBytes 4 0

/-- The 16 bytes of an entry with the default version and TTL. -/
theorem putEntry_next {front : Bytes} {pos : Nat} (h : front.length = pos) (memory : Bytes)
    (type : UInt8) (serviceId instanceId eventgroupId : UInt16) :
    Mcu.putEntry (front ++ memory.drop pos) pos type serviceId instanceId 1 Mcu.sdTtlDefault
        eventgroupId =
      (front ++ Mpu.entryHead type.toNat 0 0 0 serviceId.toNat instanceId.toNat 1 Mpu.ttlDefault
        (entryTail type eventgroupId)) ++ memory.drop (pos + 16) := by
  subst h
  have hzero : beBytes 1 (0 &&& 0xFF) = beBytes 1 (0 : UInt8).toNat := rfl
  have hone : beBytes 1 (1 &&& 0xFF) = beBytes 1 (1 : UInt8).toNat := rfl
  unfold Mcu.putEntry
  dsimp only
  rw [putU8_next rfl, putU8_next (by simp), putU8_next (by simp), putU8_next (by simp),
    putU16_next (by simp), putU16_next (by simp), putU8_next (by simp), putU8_next (by simp),
    putU8_next (by simp), putU8_next (by simp), Mpu.entryHead, entryTail, ttlDefault_bytes, and_u8,
    and_u16, and_u16, hzero, hone]
  split
  · rw [putU16_next (by simp), putU16_next (by simp)]
    simp only [List.append_assoc]
    rfl
  · rw [putU32_next (by simp)]
    simp only [List.append_assoc]
    rfl

theorem putIp4Option_next {front : Bytes} {pos : Nat} (h : front.length = pos) (memory : Bytes)
    (ip : Mpu.DottedQuad) (port : UInt16) :
    Mcu.putIp4Option (front ++ memory.drop pos) pos #v[ip.a, ip.b, ip.c, ip.d] port Mcu.sdL4Udp =
      (front ++ Mpu.buildIpv4EndpointOption ip port.toNat) ++ memory.drop (pos + 12) := by
  subst h
  have hip : #v[ip.a, ip.b, ip.c, ip.d].toList = Mpu.inetAton ip := rfl
  have hsize : (Mpu.inetAton ip).length = 4 := rfl
  unfold Mcu.putIp4Option
  dsimp only
  rw [Nat.add_zero, putU16_next rfl, putU8_next (by simp), putU8_next (by simp), hip,
    overwrite_next (by simp), hsize, putU8_next (by simp [hsize]), putU8_next (by simp [hsize]),
    putU16_next (by simp [hsize]), Mpu.buildIpv4EndpointOption, and_u16]
  simp only [List.append_assoc]
  rfl

/-! ### The packets -/

theorem buildServiceEntry_find (serviceId instanceId : UInt16) :
    Mpu.buildServiceEntry Mpu.entryFindService serviceId.toNat instanceId.toNat Mpu.ttlDefault =
      Mpu.entryHead Mcu.sdEntryFindService.toNat 0 0 0 serviceId.toNat instanceId.toNat 1
        Mpu.ttlDefault (entryTail Mcu.sdEntryFindService 0) := by
  rw [Mpu.buildServiceEntry_eq]
  rfl

theorem buildEventgroupEntry_subscribe (serviceId instanceId eventgroupId : UInt16) :
    Mpu.buildEventgroupEntry Mpu.entrySubscribeEventgroup serviceId.toNat instanceId.toNat
        eventgroupId.toNat Mpu.ttlDefault =
      Mpu.entryHead Mcu.sdEntrySubscribeEventgroup.toNat 0 0 0 serviceId.toNat instanceId.toNat 1
        Mpu.ttlDefault (entryTail Mcu.sdEntrySubscribeEventgroup eventgroupId) := by
  rw [Mpu.buildEventgroupEntry_eq, and_u16]
  rfl

/-- The packets of `build_find_service` and `build_subscribe_eventgroup` with the default TTL. -/
def findMessage (serviceId instanceId sessionId : UInt16) : Bytes :=
  Mpu.messageOf [Mpu.serviceEntry Mpu.entryFindService (by decide) serviceId.toNat instanceId.toNat
    Mpu.ttlDefault 0 0] [] sessionId.toNat Mpu.flagUnicast

def subscribeMessage (serviceId instanceId eventgroupId : UInt16) (ip : Mpu.DottedQuad)
    (port sessionId : UInt16) : Bytes :=
  Mpu.messageOf [Mpu.subscribeEntry serviceId.toNat instanceId.toNat eventgroupId.toNat
    Mpu.ttlDefault] [Mpu.udpOption ip port.toNat] sessionId.toNat Mpu.flagUnicast

theorem findMessage_length (serviceId instanceId sessionId : UInt16) :
    (findMessage serviceId instanceId sessionId).length = 44 :=
  Mpu.messageOf_length _ _ _ _

theorem subscribeMessage_length (serviceId instanceId eventgroupId : UInt16) (ip : Mpu.DottedQuad)
    (port sessionId : UInt16) :
    (subscribeMessage serviceId instanceId eventgroupId ip port sessionId).length = 56 :=
  Mpu.messageOf_length _ _ _ _

theorem sdBuildFindService_eq (out : Bytes) (cap : Nat) (serviceId instanceId sessionId : UInt16) :
    Mcu.sdBuildFindService out cap serviceId instanceId sessionId =
      if cap < 44 then (-1, out)
      else (44, findMessage serviceId instanceId sessionId ++ out.drop 44) := by
  have hentry := buildServiceEntry_find serviceId instanceId
  have hentryLen : (Mpu.buildServiceEntry Mpu.entryFindService serviceId.toNat instanceId.toNat
      Mpu.ttlDefault).length = 16 := by
    rw [hentry, Mpu.entryHead_length _ _ _ _ _ _ _ _ (by decide)]
  unfold Mcu.sdBuildFindService
  dsimp only
  refine if_congr Iff.rfl rfl ?_
  rw [putHeaders_eq, putEntry_next (Mpu.sdHead_length _ _ _ _), ← hentry,
    putU32_next (by rw [List.length_append, Mpu.sdHead_length, hentryLen]), findMessage,
    Mpu.messageOf, List.flatMap_singleton, List.flatMap_nil, Mpu.serviceEntry_build, Mpu.sdMessage,
    hentryLen]
  refine Prod.ext rfl ?_
  simp only [List.append_assoc]
  rfl

theorem sdBuildSubscribeEventgroup_eq (out : Bytes) (cap : Nat)
    (serviceId instanceId eventgroupId : UInt16) (ip : Mpu.DottedQuad) (port sessionId : UInt16) :
    Mcu.sdBuildSubscribeEventgroup out cap serviceId instanceId eventgroupId
        #v[ip.a, ip.b, ip.c, ip.d] port sessionId =
      if cap < 56 then (-1, out)
      else (56, subscribeMessage serviceId instanceId eventgroupId ip port sessionId ++
        out.drop 56) := by
  have hentry := buildEventgroupEntry_subscribe serviceId instanceId eventgroupId
  have hentryLen : (Mpu.buildEventgroupEntry Mpu.entrySubscribeEventgroup serviceId.toNat
      instanceId.toNat eventgroupId.toNat Mpu.ttlDefault).length = 16 := by
    rw [Mpu.buildEventgroupEntry_eq, Mpu.entryHead_length _ _ _ _ _ _ _ _ (by simp)]
  have hoptionLen : (Mpu.buildIpv4EndpointOption ip port.toNat).length = 12 := rfl
  unfold Mcu.sdBuildSubscribeEventgroup
  dsimp only
  refine if_congr Iff.rfl rfl ?_
  rw [putHeaders_eq, putEntry_next (Mpu.sdHead_length _ _ _ _), ← hentry,
    putU32_next (by rw [List.length_append, Mpu.sdHead_length, hentryLen]),
    putIp4Option_next (by
      rw [List.length_append, List.length_append, Mpu.sdHead_length, hentryLen, beBytes_length]),
    subscribeMessage, Mpu.messageOf, List.flatMap_singleton, List.flatMap_singleton,
    Mpu.subscribeEntry_build, Mpu.udpOption_build, Mpu.sdMessage, hentryLen, hoptionLen]
  refine Prod.ext rfl ?_
  simp only [List.append_assoc]
  rfl

/-- For the same arguments both builders make one packet, of 44 or 56 bytes. The MCU leaves a buffer
that is too small as it is, and in a larger one what lies behind the packet. -/
theorem builders_agree (out : Bytes) (cap : Nat) (serviceId instanceId eventgroupId port
    sessionId : UInt16) (ip : Mpu.DottedQuad) :
    (∃ packet,
      Mpu.buildFindService serviceId.toNat instanceId.toNat sessionId.toNat = .ok packet ∧
      packet.length = 44 ∧
      Mcu.sdBuildFindService out cap serviceId instanceId sessionId =
        if cap < 44 then (-1, out) else (44, packet ++ out.drop 44)) ∧
    (∃ packet,
      Mpu.buildSubscribeEventgroup serviceId.toNat instanceId.toNat eventgroupId.toNat ip port.toNat
        sessionId.toNat = .ok packet ∧
      packet.length = 56 ∧
      Mcu.sdBuildSubscribeEventgroup out cap serviceId instanceId eventgroupId
          #v[ip.a, ip.b, ip.c, ip.d] port sessionId =
        if cap < 56 then (-1, out) else (56, packet ++ out.drop 56)) :=
  ⟨⟨findMessage serviceId instanceId sessionId, Mpu.buildFindService_eq _ _ _ _ _,
      findMessage_length _ _ _, sdBuildFindService_eq out cap serviceId instanceId sessionId⟩,
    subscribeMessage serviceId instanceId eventgroupId ip port sessionId,
    Mpu.buildSubscribeEventgroup_eq _ _ _ _ _ _ _, subscribeMessage_length _ _ _ _ _ _,
    sdBuildSubscribeEventgroup_eq out cap serviceId instanceId eventgroupId ip port sessionId⟩

end SdvZone.Sd
