import SdvZone.MachineRun
import SdvZone.SdSenders
import SdvZone.SdTruncation
import SdvZone.UdpReceiver

/-! The MCU on its own packets: its socket has joined the group it sends FindService to, and it
sends its subscriptions to itself. `sd_parse` recovers what the builders were given, and the handler
reacts to nothing of it. -/

namespace SdvZone.Udp

open Wire Sd Machine
open Mpu (entriesLen)

/-! ### What `sd_parse` has found -/

def entriesFound (parsed : Mcu.SdParsed) : List Mcu.SdEntry :=
  parsed.entries.toList.take parsed.entryCount.toNat

def optionsFound (parsed : Mcu.SdParsed) : List Mcu.SdOptionIp4 :=
  parsed.options.toList.take parsed.optionCount.toNat

/-- A packet `parse_sd` accepts, whatever lies behind it. -/
theorem sdParse_found {packet : Bytes} {info : Mpu.SdInfo} (hinfo : Mpu.parseSd packet = .ok info)
    (hcapacity : entriesLen packet / 16 ≤ 4) (rest : Bytes) :
    ∃ parsed, Mcu.sdParse (packet ++ rest) packet.length = (0, parsed) ∧ SameContent parsed info ∧
      entriesFound parsed =
        (List.range (entriesLen packet / 16)).map fun i => Mcu.readEntry packet (24 + 16 * i) := by
  obtain ⟨hframed, -⟩ := (parseSd_accepts_iff packet).mp ⟨info, hinfo⟩
  have hdelimited := ((framed_iff hcapacity).mp hframed).1
  have hfits := hdelimited.fits
  have hparse := sdParse_accepts le_rfl hdelimited
  refine ⟨_, ?_, sameContent packet _ info hparse hinfo, ?_⟩
  · rw [← hparse]
    apply sdParse_congr (List.take_append_of_le_length le_rfl) le_rfl hdelimited (by omega) (by omega)
    rw [List.length_append]
    omega
  · obtain ⟨hcount, hentries⟩ := readOptions_frame packet (24 + entriesLen packet + 4)
      (Mpu.optionsLen packet) 4 0 (parsedHead packet hdelimited.capacity)
    have hsmall : (UInt8.ofNat (entriesLen packet / 16)).toNat = entriesLen packet / 16 :=
      Nat.mod_eq_of_lt (by omega)
    rw [entriesFound, hcount, hentries]
    show List.take (UInt8.ofNat (entriesLen packet / 16)).toNat _ = _
    rw [hsmall]
    exact readEntries_take packet _ hcapacity _

/-- An entry with the version and the TTL of the builders. -/
def defaultEntry (type : UInt8) (serviceId instanceId eventgroupId : UInt16) : Mcu.SdEntry :=
  { type := type
    serviceId := serviceId
    instanceId := instanceId
    majorVersion := 1
    ttl := 0xFFFFFF
    eventgroupId := eventgroupId }

theorem eq_defaultEntry {e : Mcu.SdEntry} {type : UInt8} {serviceId instanceId : UInt16}
    {minorVersion eventgroupId : Option ℕ}
    (h : SameEntry e ⟨type.toNat, serviceId.toNat, instanceId.toNat, 1, 0xFFFFFF, minorVersion, eventgroupId⟩) :
    e = defaultEntry type serviceId instanceId e.eventgroupId := by
  obtain ⟨htype, hservice, hinstance, hversion, httl, -⟩ := h
  cases e
  rw [defaultEntry, Mcu.SdEntry.mk.injEq]
  exact ⟨UInt8.toNat_inj.mp htype, UInt16.toNat_inj.mp hservice, UInt16.toNat_inj.mp hinstance,
    UInt8.toNat_inj.mp hversion, UInt32.toNat_inj.mp httl, rfl⟩

theorem residue_u16 (value : UInt16) : (Mpu.residue 16 value.toNat).val = value.toNat :=
  Nat.mod_eq_of_lt value.toNat_lt

/-! ### The packets of the builders -/

/-- A message of one entry. -/
theorem sdParse_single (entry : Mpu.SdEntry) (options : List Mpu.SdOption) (sessionId : UInt16)
    (flags : ℕ) (rest : Bytes) (hoptions : options.length ≤ 4) {message : Bytes}
    (hmessage : Mpu.messageOf [entry] options sessionId.toNat flags = message) :
    ∃ parsed e, Mcu.sdParse (message ++ rest) message.length = (0, parsed) ∧
      parsed.sessionId = sessionId ∧ entriesFound parsed = [e] ∧ SameEntry e entry.parsed ∧
      (e.type ≠ Mcu.sdEntrySubscribeEventgroup → e.type ≠ Mcu.sdEntrySubscribeEventgroupAck →
        e.eventgroupId = 0) ∧
      SameContent parsed {
        sessionId := sessionId.toNat % 2 ^ 16
        flags := flags % 2 ^ 8
        entries := [entry.parsed]
        options := options.map Mpu.SdOption.parsed } := by
  have hinfo := Mpu.parseSd_sdMessage [entry] options sessionId.toNat flags
    (by rw [List.length_singleton]; omega)
  have hbuilt := length_flatMap_size Mpu.SdEntry.build_length [entry]
  have hlen : entriesLen message = 16 := by
    rw [← hmessage, Mpu.messageOf, Mpu.entriesLen_sdMessage (by rw [hbuilt, List.length_singleton]; decide), hbuilt]
    rfl
  rw [← Mpu.messageOf, hmessage] at hinfo
  obtain ⟨parsed, hparse, hsame, hfound⟩ := sdParse_found hinfo (by rw [hlen]; decide) rest
  rw [hlen] at hfound
  have hentries := hsame.entries
  rw [← entriesFound, hfound] at hentries
  obtain ⟨hentry, -⟩ := List.forall₂_cons.mp hentries
  refine ⟨parsed, Mcu.readEntry message 24, hparse, ?_, hfound, hentry, ?_, hsame⟩
  · apply UInt16.toNat_inj.mp
    rw [hsame.sessionId]
    exact Nat.mod_eq_of_lt sessionId.toNat_lt
  · intro hsubscribe hack
    exact if_neg (not_or.mpr ⟨hsubscribe, hack⟩)

/-- The only option found. -/
theorem optionsFound_single {parsed : Mcu.SdParsed} {info : Mpu.SdInfo} {ip : Mpu.DottedQuad}
    {port : UInt16} (hsame : SameContent parsed info)
    (hinfo : info.options = [(Mpu.udpOption ip port.toNat).parsed]) :
    optionsFound parsed = [⟨Mcu.sdOptIp4Endpoint, #v[ip.a, ip.b, ip.c, ip.d], Mcu.sdL4Udp, port⟩] := by
  have hfirst : ip4EndpointAt info 0 = some ⟨ip, 0x11, port.toNat⟩ := by
    rw [ip4EndpointAt, hinfo, List.getElem?_cons_zero, Mpu.udpOption, Mpu.SdOption.parsed, residue_u16]
    rfl
  have hlater : ∀ i, (ip4EndpointAt info i).isSome → i = 0 := by
    intro i hi
    by_contra hne
    rw [ip4EndpointAt, List.getElem?_eq_none (by rw [hinfo, List.length_singleton]; omega)] at hi
    cases hi
  have hoption := hsame.options 0 (by decide)
  rw [hfirst] at hoption
  obtain ⟨⟨htype, haddress, hproto, hport⟩, hpos⟩ := hoption
  have hcount : parsed.optionCount.toNat = 1 := by
    rcases hsame.optionCount with hnone | ⟨i, -, hendpoint, hcount⟩
    · omega
    · rw [hcount, hlater i hendpoint]
  have hread : parsed.options[0] = ⟨Mcu.sdOptIp4Endpoint, #v[ip.a, ip.b, ip.c, ip.d], Mcu.sdL4Udp, port⟩ := by
    have hquad : parsed.options[0].address = #v[ip.a, ip.b, ip.c, ip.d] := Vector.toList_inj.mp haddress
    rw [Mcu.SdOptionIp4.mk.injEq]
    exact ⟨htype, hquad, UInt8.toNat_inj.mp hproto, UInt16.toNat_inj.mp hport⟩
  rw [optionsFound, hcount, ← hread]
  apply List.ext_getElem
  · simp
  · intro i hi _
    have hzero : i = 0 := by
      rw [List.length_take, Vector.length_toList] at hi
      omega
    subst hzero
    rw [List.getElem_take, Vector.getElem_toList]
    rfl

section Packets

variable (serviceId instanceId eventgroupId port sessionId : UInt16) (ip : Mpu.DottedQuad) (rest : Bytes)

theorem sdParse_findMessage :
    ∃ parsed, Mcu.sdParse (findMessage serviceId instanceId sessionId ++ rest) 44 = (0, parsed) ∧
      parsed.sessionId = sessionId ∧
      entriesFound parsed = [defaultEntry Mcu.sdEntryFindService serviceId instanceId 0] ∧
      optionsFound parsed = [] := by
  obtain ⟨parsed, e, hparse, hsession, hfound, hentry, hgroup, hsame⟩ := sdParse_single _ [] sessionId
    Mpu.flagUnicast rest (Nat.zero_le 4) (findMessage.eq_def serviceId instanceId sessionId).symm
  rw [findMessage_length] at hparse
  rw [Mpu.serviceEntry, Mpu.SdEntry.parsed, residue_u16, residue_u16] at hentry
  have heq : e = defaultEntry Mcu.sdEntryFindService serviceId instanceId e.eventgroupId :=
    eq_defaultEntry hentry
  have htype : e.type = Mcu.sdEntryFindService := by rw [heq]; rfl
  refine ⟨parsed, hparse, hsession, ?_, ?_⟩
  · rw [hfound, heq, hgroup (by rw [htype]; decide) (by rw [htype]; decide)]
  · rcases hsame.optionCount with hnone | ⟨i, -, hendpoint, -⟩
    · rw [optionsFound, hnone, List.take_zero]
    · cases hendpoint

theorem sdParse_subscribeMessage :
    ∃ parsed, Mcu.sdParse (subscribeMessage serviceId instanceId eventgroupId ip port sessionId ++ rest) 56 =
        (0, parsed) ∧
      parsed.sessionId = sessionId ∧
      entriesFound parsed =
        [defaultEntry Mcu.sdEntrySubscribeEventgroup serviceId instanceId eventgroupId] ∧
      optionsFound parsed = [⟨Mcu.sdOptIp4Endpoint, #v[ip.a, ip.b, ip.c, ip.d], Mcu.sdL4Udp, port⟩] := by
  obtain ⟨parsed, e, hparse, hsession, hfound, hentry, -, hsame⟩ := sdParse_single _ _ sessionId
    Mpu.flagUnicast rest (show [Mpu.udpOption ip port.toNat].length ≤ 4 from Nat.le_of_ble_eq_true rfl)
    (subscribeMessage.eq_def serviceId instanceId eventgroupId ip port sessionId).symm
  rw [subscribeMessage_length] at hparse
  rw [Mpu.subscribeEntry, Mpu.SdEntry.parsed, residue_u16, residue_u16, residue_u16] at hentry
  have heq : e = defaultEntry Mcu.sdEntrySubscribeEventgroup serviceId instanceId e.eventgroupId :=
    eq_defaultEntry hentry
  have hgroup : e.eventgroupId = eventgroupId := by
    apply UInt16.toNat_inj.mp
    exact (Option.some.inj (hentry.eventgroupId (Or.inl rfl))).symm
  refine ⟨parsed, hparse, hsession, ?_, ?_⟩
  · rw [hfound, heq, hgroup]
  · exact optionsFound_single hsame rfl

end Packets

/-! ### Looped back -/

theorem service_messageOf (entries : List Mpu.SdEntry) (options : List Mpu.SdOption)
    (sessionId flags : ℕ) : beNat (slice (Mpu.messageOf entries options sessionId flags) 0 2) = 0xFFFF := by
  rw [Mpu.messageOf, Mpu.slice_sdHead (by decide), Mpu.sdHead, slice_append_head _ _ (beBytes_length _ _)]
  exact beNat_beBytes_of_lt (by decide)

/-- A packet whose only entry is no offer. -/
theorem someipUdpReceive_unoffered (memory : Vector UInt8 64) (sendto : Mcu.Outgoing → Int)
    (udp : Mcu.SomeipUdp) {packet : Bytes} (hlong : 17 ≤ packet.length) (hshort : packet.length ≤ 64)
    (hservice : beNat (slice packet 0 2) = 0xFFFF) {parsed : Mcu.SdParsed} {e : Mcu.SdEntry}
    (hparse : Mcu.sdParse (packet ++ memory.toList.drop packet.length) packet.length = (0, parsed))
    (hfound : entriesFound parsed = [e]) (htype : e.type ≠ Mcu.sdEntryOfferService) :
    udp.someipUdpReceive memory sendto (some packet) = (udp, none) := by
  have hreceived : received memory packet = packet ++ memory.toList.drop packet.length := by
    rw [received, List.take_of_length_le hshort]
  rw [someipUdpReceive_eq, if_neg (not_lt.mpr hlong), if_pos hservice, Nat.min_eq_left hshort,
    Mcu.SomeipUdp.someipSdHandle, hreceived, hparse]
  show ((entriesFound parsed).foldl _ udp, none) = _
  rw [hfound, List.foldl_cons, List.foldl_nil, Mcu.SomeipUdp.sdHandleEntry, if_neg htype]

theorem someipUdpReceive_own (memory : Vector UInt8 64) (sendto : Mcu.Outgoing → Int)
    (udp : Mcu.SomeipUdp) (sender : SdSender) (sessionId : UInt16) :
    udp.someipUdpReceive memory sendto (some (sender.packet sessionId).bytes) = (udp, none) := by
  cases sender with
  | find =>
      have hlength := findMessage_length 0x1234 0x5678 sessionId
      obtain ⟨parsed, hparse, -, hfound, -⟩ := sdParse_findMessage 0x1234 0x5678 sessionId
        (memory.toList.drop 44)
      rw [← hlength] at hparse
      exact someipUdpReceive_unoffered memory sendto udp (hlength.symm ▸ by decide)
        (hlength.symm ▸ by decide) (service_messageOf _ _ _ _) hparse hfound (by decide)
  | subscribe =>
      have hlength := subscribeMessage_length 0x1234 0x5678 Mcu.sdEventgroupId ⟨127, 0, 0, 1⟩ Mcu.someipPort
        sessionId
      obtain ⟨parsed, hparse, -, hfound, -⟩ := sdParse_subscribeMessage 0x1234 0x5678 Mcu.sdEventgroupId
        Mcu.someipPort sessionId ⟨127, 0, 0, 1⟩ (memory.toList.drop 56)
      rw [← hlength] at hparse
      exact someipUdpReceive_unoffered memory sendto udp (hlength.symm ▸ by decide)
        (hlength.symm ▸ by decide) (service_messageOf _ _ _ _) hparse hfound (by decide)

/-- A sender is called, or a packet sent before comes in. -/
inductive LoopAction where
  | call (call : SdCall)
  | loopBack (packet : Mcu.Outgoing) (memory : Vector UInt8 64) (sendto : Mcu.Outgoing → Int)

def loopStep (udp : Mcu.SomeipUdp) : LoopAction → Option Mcu.SomeipUdp
  | .call call => some (call.run udp)
  | .loopBack packet memory sendto =>
      if packet ∈ udp.sent then some (udp.someipUdpReceive memory sendto (some packet.bytes)).1 else none

/-- Nothing but packets of the two senders goes out. -/
theorem sent_own {actions : List LoopAction} {udp : Mcu.SomeipUdp}
    (hrun : exec loopStep .static actions = some udp) :
    ∀ packet ∈ udp.sent, ∃ sender sessionId, packet = SdSender.packet sessionId sender := by
  refine exec_induction Mcu.SomeipUdp.static (fun _ udp => ∀ packet ∈ udp.sent,
    ∃ sender sessionId, packet = SdSender.packet sessionId sender) ?_ ?_ actions udp hrun
  · intro packet hpacket
    cases hpacket
  · intro _ mid action last _ hmid hstep
    cases action with
    | call call =>
        cases hstep
        intro packet hpacket
        rw [run_sent, List.mem_append, List.mem_singleton] at hpacket
        rcases hpacket with hbefore | hnew
        · exact hmid packet hbefore
        · exact ⟨_, _, hnew⟩
    | loopBack packet memory sendto =>
        obtain ⟨hmem, hnext⟩ := Option.ite_none_right_eq_some.mp hstep
        cases hnext
        obtain ⟨sender, sessionId, rfl⟩ := hmid packet hmem
        rw [someipUdpReceive_own]
        exact hmid

/-- The MCU reads its own packets as it has built them, and they cause nothing, whenever and however
often they come back. -/
theorem own_packets_ignored :
    (∀ out cap serviceId instanceId sessionId, 44 ≤ cap → ∃ buf parsed,
      Mcu.sdBuildFindService out cap serviceId instanceId sessionId = (44, buf) ∧
      Mcu.sdParse buf 44 = (0, parsed) ∧ parsed.sessionId = sessionId ∧
      entriesFound parsed = [defaultEntry Mcu.sdEntryFindService serviceId instanceId 0] ∧
      optionsFound parsed = []) ∧
    (∀ out cap serviceId instanceId eventgroupId (ip : Mpu.DottedQuad) port sessionId, 56 ≤ cap →
      ∃ buf parsed,
      Mcu.sdBuildSubscribeEventgroup out cap serviceId instanceId eventgroupId
        #v[ip.a, ip.b, ip.c, ip.d] port sessionId = (56, buf) ∧
      Mcu.sdParse buf 56 = (0, parsed) ∧ parsed.sessionId = sessionId ∧
      entriesFound parsed =
        [defaultEntry Mcu.sdEntrySubscribeEventgroup serviceId instanceId eventgroupId] ∧
      optionsFound parsed = [⟨Mcu.sdOptIp4Endpoint, #v[ip.a, ip.b, ip.c, ip.d], Mcu.sdL4Udp, port⟩]) ∧
    ∀ actions udp, exec loopStep .static actions = some udp →
      ∀ packet ∈ udp.sent, ∀ memory sendto,
        udp.someipUdpReceive memory sendto (some packet.bytes) = (udp, none) := by
  refine ⟨fun out cap serviceId instanceId sessionId hcap => ?_,
    fun out cap serviceId instanceId eventgroupId ip port sessionId hcap => ?_,
    fun actions udp hrun packet hpacket memory sendto => ?_⟩
  · obtain ⟨parsed, hparsed⟩ := sdParse_findMessage serviceId instanceId sessionId (out.drop 44)
    refine ⟨_, parsed, ?_, hparsed⟩
    rw [sdBuildFindService_eq, if_neg (not_lt.mpr hcap)]
  · obtain ⟨parsed, hparsed⟩ := sdParse_subscribeMessage serviceId instanceId eventgroupId port sessionId ip
      (out.drop 56)
    refine ⟨_, parsed, ?_, hparsed⟩
    rw [sdBuildSubscribeEventgroup_eq, if_neg (not_lt.mpr hcap)]
  · obtain ⟨sender, sessionId, rfl⟩ := sent_own hrun packet hpacket
    exact someipUdpReceive_own memory sendto udp sender sessionId

/-- A FindService whose session id has come around, and a subscription that comes in twice. -/
theorem own_packets_ignored_twice :
    (∃ buf parsed, Mcu.sdBuildFindService (List.replicate 64 0xA5) 64 0x1234 0x5678 0 = (44, buf) ∧
      Mcu.sdParse buf 44 = (0, parsed) ∧ parsed.sessionId = 0 ∧
      entriesFound parsed = [defaultEntry Mcu.sdEntryFindService 0x1234 0x5678 0] ∧
      optionsFound parsed = []) ∧
    (∃ buf parsed, Mcu.sdBuildSubscribeEventgroup (List.replicate 64 0xA5) 64 0x1234 0x5678 1
        #v[10, 0, 0, 1] 30490 7 = (56, buf) ∧
      Mcu.sdParse buf 56 = (0, parsed) ∧ parsed.sessionId = 7 ∧
      entriesFound parsed = [defaultEntry Mcu.sdEntrySubscribeEventgroup 0x1234 0x5678 1] ∧
      optionsFound parsed = [⟨Mcu.sdOptIp4Endpoint, #v[10, 0, 0, 1], Mcu.sdL4Udp, 30490⟩]) ∧
    ∃ udp, exec loopStep .static [.call ⟨.subscribe, Vector.replicate 64 0, fun _ => 56⟩,
        .loopBack (subscribeOutgoing 1) (Vector.replicate 64 0) fun _ => 56] = some udp ∧
      udp.someipUdpReceive (Vector.replicate 64 0) (fun _ => 56) (some (subscribeOutgoing 1).bytes) =
        (udp, none) := by
  obtain ⟨hfind, hsubscribe, hloop⟩ := own_packets_ignored
  have hrun : exec loopStep .static [.call ⟨.subscribe, Vector.replicate 64 0, fun _ => 56⟩,
      .loopBack (subscribeOutgoing 1) (Vector.replicate 64 0) fun _ => 56] =
        some ⟨0, 1, [subscribeOutgoing 1]⟩ := by
    decide +kernel
  exact ⟨hfind _ _ _ _ _ (by decide), hsubscribe _ _ _ _ _ ⟨10, 0, 0, 1⟩ _ _ (by decide),
    _, hrun, hloop _ _ hrun _ List.mem_cons_self _ _⟩

end SdvZone.Udp
