import SdvZone.SdBothBuilders
import SdvZone.SdOptionBlocks

/-! What the six builders emit, as messages: the fields that say how long a part is, and the runs in
which an entry refers to the options of its packet. A receiver that follows the runs finds the
endpoint of an offer, and nothing in a subscription, whose entry counts no option. -/

namespace SdvZone.Sd

open Wire

/-! ### Well-formed packets -/

/-- Consecutive options, as an entry refers to them. -/
structure OptionRun where
  index : Nat
  count : Nat
  deriving DecidableEq

namespace OptionRun

def Inside (run : OptionRun) (size : Nat) : Prop := run.index + run.count ≤ size

def Refers (run : OptionRun) (i : Nat) : Prop := run.index ≤ i ∧ i < run.index + run.count

end OptionRun

/-- The two runs of an entry. -/
def entryRuns (chunk : Bytes) : List OptionRun :=
  let counts := beNat (slice chunk 3 4)
  [⟨beNat (slice chunk 1 2), counts / 16⟩, ⟨beNat (slice chunk 2 3), counts % 16⟩]

/-- The runs of the entries of a packet. -/
def packetRuns (packet : Bytes) (entryCount : Nat) : List OptionRun :=
  (List.range entryCount).flatMap fun i => entryRuns (Mpu.entryChunk (Mpu.entryBytes packet) i)

/-- The fields of a packet fit its parts, and its entries lead to all of its options, the given
endpoints among them. -/
structure WellFormed (packet : Bytes) (entryCount : Nat) (endpoints : List Mpu.ParsedEndpoint) :
    Prop where
  length : beNat (slice packet 4 8) + 8 = packet.length
  entries : Mpu.entriesLen packet = 16 * entryCount
  complete : 24 + Mpu.entriesLen packet + 4 + Mpu.optionsLen packet = packet.length
  options : ∃ blocks, OptionBlocks (Mpu.optionBytes packet) blocks ∧
    (∀ run ∈ packetRuns packet entryCount, run.Inside blocks.length) ∧
    (∀ i < blocks.length, ∃ run ∈ packetRuns packet entryCount, run.Refers i) ∧
    ∀ endpoint ∈ endpoints, ∃ run ∈ packetRuns packet entryCount, ∃ i, run.Refers i ∧
      (endpointAt blocks i).map endpointOf = some endpoint

/-! ### Options as the builders write them -/

theorem optionOf_build (option : Mpu.SdOption) : optionOf option.build = option.parsed := by
  have hblock := parseOption_eq option.build
  have htype : optionType option.build = Mpu.optIp4Endpoint := by
    rw [optionType, option.build_eq, slice_append_left _ _ (by simp)]
    rfl
  rw [option.build_length, htype, option.parseOption_build] at hblock
  exact (Except.ok.inj hblock).symm

theorem isEndpoint_build (option : Mpu.SdOption) : IsEndpoint option.build :=
  ⟨congrArg Mpu.ParsedOption.optionType (optionOf_build option), option.build_length.ge⟩

theorem endpointOf_build (option : Mpu.SdOption) :
    endpointOf option.build = ⟨option.address, option.l4Proto, option.port⟩ := by
  obtain ⟨htype, hlong⟩ := isEndpoint_build option
  have hendpoint := congrArg Mpu.ParsedOption.endpoint (optionOf_build option)
  rw [optionOf, if_pos ⟨Or.inl htype, hlong⟩] at hendpoint
  exact Option.some.inj hendpoint

theorem endpointAt_build (options : List Mpu.SdOption) (i : Nat) :
    (endpointAt (options.map Mpu.SdOption.build) i).map endpointOf =
      options[i]?.map fun option => ⟨option.address, option.l4Proto, option.port⟩ := by
  rw [endpointAt, List.getElem?_map]
  cases options[i]? with
  | none => rfl
  | some option =>
      rw [Option.map_some, Option.filter_some, if_pos (decide_eq_true (isEndpoint_build option)),
        Option.map_some, Option.map_some, endpointOf_build]

/-- The options of a message are its blocks, and there is no other way to cut it. -/
theorem optionBlocks_build_iff (options : List Mpu.SdOption) (blocks : List Bytes) :
    OptionBlocks (options.flatMap Mpu.SdOption.build) blocks ↔
      blocks = options.map Mpu.SdOption.build := by
  induction options generalizing blocks with
  | nil =>
      constructor
      · intro h
        exact h.eq_nil (by decide)
      · rintro rfl
        exact .nil
  | cons option rest ih =>
      have hlength := option.build_length
      have hne : option.build ++ rest.flatMap Mpu.SdOption.build ≠ [] :=
        List.ne_nil_of_length_pos (by rw [List.length_append]; omega)
      have hsize : optionSize (option.build ++ rest.flatMap Mpu.SdOption.build) = 12 := by
        rw [optionSize, slice_append_left _ _ (by omega), option.build_eq,
          slice_append_left _ _ (by simp)]
        show beNat [0, 9] + 3 = 12
        decide
      rw [List.flatMap_cons, List.map_cons, OptionBlocks, tiles_iff hne, hsize,
        List.take_left' hlength, List.drop_left' hlength, List.length_append, hlength]
      constructor
      · rintro ⟨-, -, later, rfl, hlater⟩
        rw [(ih later).mp hlater]
      · rintro rfl
        exact ⟨by omega, by omega, _, rfl, (ih _).mpr rfl⟩

/-! ### Messages of one entry -/

theorem length_sdMessage {entries options : Bytes} {sessionId flags : Nat}
    (h : 20 + entries.length + options.length < 2 ^ 32) :
    beNat (slice (Mpu.sdMessage entries options sessionId flags) 4 8) =
      20 + entries.length + options.length := by
  have hfield : slice (Mpu.sdHead (20 + entries.length + options.length) sessionId flags
      entries.length) 4 8 = beBytes 4 (20 + entries.length + options.length) := by
    simp [Mpu.sdHead, slice_append_right, slice_append_head]
  rw [Mpu.slice_sdHead (by decide), hfield, beNat_beBytes_of_lt h]

/-- The entry leads to all options when its first run is all of them. -/
theorem wellFormed_messageOf (entry : Mpu.SdEntry) {count : Nat}
    (hruns : entryRuns entry.build = [⟨0, count⟩, ⟨0, 0⟩]) (options : List Mpu.SdOption)
    (sessionId flags : Nat) (hsize : 28 + 16 + 12 * options.length < 2 ^ 32) :
    WellFormed (Mpu.messageOf [entry] options sessionId flags) 1
        (options.map fun option => ⟨option.address, option.l4Proto, option.port⟩) ↔
      count = options.length := by
  have hentry : ([entry].flatMap Mpu.SdEntry.build).length = 16 := by
    rw [List.flatMap_singleton, entry.build_length]
  have hoptions := length_flatMap_size Mpu.SdOption.build_length options
  have hentryBytes : Mpu.entryBytes (Mpu.messageOf [entry] options sessionId flags) =
      [entry].flatMap Mpu.SdEntry.build := Mpu.entryBytes_sdMessage (by omega)
  have hpacketRuns : packetRuns (Mpu.messageOf [entry] options sessionId flags) 1 =
      [⟨0, count⟩, ⟨0, 0⟩] := by
    rw [packetRuns, hentryBytes, List.range_one, List.flatMap_singleton, List.flatMap_singleton,
      Mpu.entryChunk, ← hruns]
    congr 1
    rw [slice_zero_take, List.take_of_length_le entry.build_length.le]
  have hoptionBytes : Mpu.optionBytes (Mpu.messageOf [entry] options sessionId flags) =
      options.flatMap Mpu.SdOption.build := Mpu.optionBytes_sdMessage (by omega) (by omega)
  constructor
  · rintro ⟨-, -, -, blocks, hblocks, hinside, hrefers, -⟩
    rw [hoptionBytes, optionBlocks_build_iff] at hblocks
    rw [hpacketRuns] at hinside hrefers
    subst hblocks
    rw [List.length_map] at hinside hrefers
    have hfirst : 0 + count ≤ options.length := hinside ⟨0, count⟩ List.mem_cons_self
    rw [Nat.zero_add] at hfirst
    refine Nat.le_antisymm hfirst (Nat.le_of_not_lt fun hless => ?_)
    obtain ⟨run, hrun, -, hlast⟩ := hrefers count hless
    rcases List.mem_cons.mp hrun with rfl | hrun
    · exact absurd hlast (by simp)
    · rw [List.mem_singleton] at hrun
      subst hrun
      exact absurd hlast (by simp)
  · rintro rfl
    have hcover : ∀ i < options.length, ∃ run ∈ packetRuns
        (Mpu.messageOf [entry] options sessionId flags) 1, run.Refers i := by
      intro i hi
      rw [hpacketRuns]
      exact ⟨⟨0, options.length⟩, List.mem_cons_self, Nat.zero_le i, by simpa using hi⟩
    refine ⟨?_, ?_, ?_, options.map Mpu.SdOption.build, ?_, ?_, ?_, ?_⟩
    · rw [Mpu.messageOf_length, Mpu.messageOf, length_sdMessage (by omega), hentry, hoptions,
        List.length_singleton]
      omega
    · rw [Mpu.messageOf, Mpu.entriesLen_sdMessage (by omega), hentry]
    · rw [Mpu.messageOf_length, Mpu.messageOf, Mpu.entriesLen_sdMessage (by omega),
        Mpu.optionsLen_sdMessage (by omega) (by omega), hentry, hoptions, List.length_singleton]
    · rw [hoptionBytes, optionBlocks_build_iff]
    · rw [hpacketRuns, List.length_map]
      intro run hrun
      rcases List.mem_cons.mp hrun with rfl | hrun
      · exact (Nat.zero_add _).le
      · rw [List.mem_singleton] at hrun
        subst hrun
        exact Nat.zero_le _
    · rw [List.length_map]
      exact hcover
    · intro endpoint hendpoint
      obtain ⟨i, hi, hget⟩ := List.getElem_of_mem hendpoint
      rw [List.length_map] at hi
      obtain ⟨run, hrun, hrefers⟩ := hcover i hi
      refine ⟨run, hrun, i, hrefers, ?_⟩
      rw [endpointAt_build, ← hget, List.getElem_map, List.getElem?_eq_getElem hi, Option.map_some]

/-! ### The six builders -/

/-- A call of a builder with its arguments, all within the ranges of their fields. The builders of the
MCU are also given a buffer and its capacity. -/
inductive BuilderCall where
  | mpuFindService (serviceId instanceId sessionId : UInt16) (ttl : Fin (2 ^ 24)) (flags : UInt8)
  | mpuOfferService (serviceId instanceId : UInt16) (ip : Mpu.DottedQuad) (port sessionId : UInt16)
      (ttl : Fin (2 ^ 24)) (minorVersion : UInt32) (flags : UInt8)
  | mpuStopOfferService (serviceId instanceId sessionId : UInt16)
  | mpuSubscribeEventgroup (serviceId instanceId eventgroupId : UInt16) (ip : Mpu.DottedQuad)
      (port sessionId : UInt16) (ttl : Fin (2 ^ 24))
  | mcuFindService (out : Bytes) (cap : Nat) (serviceId instanceId sessionId : UInt16)
  | mcuSubscribeEventgroup (out : Bytes) (cap : Nat) (serviceId instanceId eventgroupId : UInt16)
      (ip : Mpu.DottedQuad) (port sessionId : UInt16)

/-- What a builder of the MCU emits: as many bytes of the buffer as it returns, unless it fails. -/
def emitted (result : Int × Bytes) : Option Bytes :=
  if result.1 < 0 then none else some (result.2.take result.1.toNat)

namespace BuilderCall

def packet : BuilderCall → Option Bytes
  | mpuFindService serviceId instanceId sessionId ttl flags =>
      (Mpu.buildFindService serviceId.toNat instanceId.toNat sessionId.toNat ttl flags.toNat).toOption
  | mpuOfferService serviceId instanceId ip port sessionId ttl minorVersion flags =>
      (Mpu.buildOfferService serviceId.toNat instanceId.toNat ip port.toNat sessionId.toNat ttl
        minorVersion.toNat flags.toNat).toOption
  | mpuStopOfferService serviceId instanceId sessionId =>
      (Mpu.buildStopOfferService serviceId.toNat instanceId.toNat sessionId.toNat).toOption
  | mpuSubscribeEventgroup serviceId instanceId eventgroupId ip port sessionId ttl =>
      (Mpu.buildSubscribeEventgroup serviceId.toNat instanceId.toNat eventgroupId.toNat ip port.toNat
        sessionId.toNat ttl).toOption
  | mcuFindService out cap serviceId instanceId sessionId =>
      emitted (Mcu.sdBuildFindService out cap serviceId instanceId sessionId)
  | mcuSubscribeEventgroup out cap serviceId instanceId eventgroupId ip port sessionId =>
      emitted (Mcu.sdBuildSubscribeEventgroup out cap serviceId instanceId eventgroupId
        #v[ip.a, ip.b, ip.c, ip.d] port sessionId)

/-- The endpoint passed to the builder, if it is passed one. -/
def endpoints : BuilderCall → List Mpu.ParsedEndpoint
  | mpuOfferService _ _ ip port _ _ _ _ => [⟨ip, Mpu.l4Udp, port.toNat⟩]
  | mpuSubscribeEventgroup _ _ _ ip port _ _ => [⟨ip, Mpu.l4Udp, port.toNat⟩]
  | mcuSubscribeEventgroup _ _ _ _ _ ip port _ => [⟨ip, Mpu.l4Udp, port.toNat⟩]
  | _ => []

def Subscribes : BuilderCall → Prop
  | mpuSubscribeEventgroup .. => True
  | mcuSubscribeEventgroup .. => True
  | _ => False

instance : DecidablePred Subscribes := fun call => by
  cases call <;> unfold Subscribes <;> infer_instance

end BuilderCall

theorem entryRuns_entryHead (entryType opts serviceId instanceId majorVersion ttl : Nat)
    (last : Bytes) :
    entryRuns (Mpu.entryHead entryType 0 0 opts serviceId instanceId majorVersion ttl last) =
      [⟨0, opts % 2 ^ 8 / 16⟩, ⟨0, opts % 2 ^ 8 % 16⟩] := by
  have hopts : beNat (beBytes 1 (opts &&& 0xFF)) = opts % 2 ^ 8 := beNat_masked rfl opts
  have hzero : beNat (beBytes 1 (0 &&& 0xFF)) = 0 := rfl
  simp only [entryRuns, Mpu.entryHead, slice_append_right, slice_append_head, beBytes_length, hzero,
    hopts, Nat.reduceLeDiff, Nat.reduceSub]

theorem entryRuns_serviceEntry (entryType : Nat) (htype : entryType ≤ 0x02) (serviceId instanceId ttl
    minorVersion : Nat) {count : Nat} (h : count ≤ 1) :
    entryRuns (Mpu.serviceEntry entryType htype serviceId instanceId ttl minorVersion count).build =
      [⟨0, count⟩, ⟨0, 0⟩] := by
  rw [Mpu.serviceEntry_build, Mpu.buildServiceEntry_eq, entryRuns_entryHead]
  rcases Nat.le_one_iff_eq_zero_or_eq_one.mp h with rfl | rfl
  · rfl
  · rfl

theorem entryRuns_subscribeEntry (serviceId instanceId eventgroupId ttl : Nat) :
    entryRuns (Mpu.subscribeEntry serviceId instanceId eventgroupId ttl).build =
      [⟨0, 0⟩, ⟨0, 0⟩] := by
  rw [Mpu.subscribeEntry_build, Mpu.buildEventgroupEntry_eq, entryRuns_entryHead]
  rfl

/-- A message of one entry and no option. -/
theorem wellFormed_bare (entry : Mpu.SdEntry) (hruns : entryRuns entry.build = [⟨0, 0⟩, ⟨0, 0⟩])
    (sessionId flags : Nat) : WellFormed (Mpu.messageOf [entry] [] sessionId flags) 1 [] :=
  (wellFormed_messageOf entry hruns [] sessionId flags (by decide)).mpr rfl

/-- A message of one entry and one endpoint. -/
theorem wellFormed_endpoint (entry : Mpu.SdEntry) {count : Nat}
    (hruns : entryRuns entry.build = [⟨0, count⟩, ⟨0, 0⟩]) (ip : Mpu.DottedQuad) (port : UInt16)
    (sessionId flags : Nat) :
    WellFormed (Mpu.messageOf [entry] [Mpu.udpOption ip port.toNat] sessionId flags) 1
        [⟨ip, Mpu.l4Udp, port.toNat⟩] ↔ count = 1 := by
  have hport : (Mpu.residue 16 port.toNat).val = port.toNat := Nat.mod_eq_of_lt port.toNat_lt
  have hform := wellFormed_messageOf entry hruns [Mpu.udpOption ip port.toNat] sessionId flags
    (by rw [List.length_singleton]; decide)
  rw [List.map_singleton, Mpu.udpOption, hport] at hform
  exact hform

theorem emitted_find {out packet : Bytes} {cap : Nat} {serviceId instanceId sessionId : UInt16}
    (h : emitted (Mcu.sdBuildFindService out cap serviceId instanceId sessionId) = some packet) :
    packet = findMessage serviceId instanceId sessionId := by
  rw [sdBuildFindService_eq, emitted] at h
  split at h
  · cases h
  · exact (Option.some.inj h).symm.trans (List.take_left' (findMessage_length _ _ _))

theorem emitted_subscribe {out packet : Bytes} {cap : Nat}
    {serviceId instanceId eventgroupId port sessionId : UInt16} {ip : Mpu.DottedQuad}
    (h : emitted (Mcu.sdBuildSubscribeEventgroup out cap serviceId instanceId eventgroupId
      #v[ip.a, ip.b, ip.c, ip.d] port sessionId) = some packet) :
    packet = subscribeMessage serviceId instanceId eventgroupId ip port sessionId := by
  rw [sdBuildSubscribeEventgroup_eq, emitted] at h
  split at h
  · cases h
  · exact (Option.some.inj h).symm.trans (List.take_left' (subscribeMessage_length _ _ _ _ _ _))

/-- All packets are well formed but the subscriptions. -/
theorem wellFormed_iff (call : BuilderCall) (packet : Bytes) (h : call.packet = some packet) :
    WellFormed packet 1 call.endpoints ↔ ¬call.Subscribes := by
  have hfind := entryRuns_serviceEntry Mpu.entryFindService (by decide)
  have hoffer := entryRuns_serviceEntry Mpu.entryOfferService (by decide)
  cases call with
  | mpuFindService serviceId instanceId sessionId ttl flags =>
      rw [BuilderCall.packet, Mpu.buildFindService_eq] at h
      cases h
      exact iff_of_true (wellFormed_bare _ (hfind _ _ _ _ (Nat.zero_le 1)) _ _) id
  | mpuOfferService serviceId instanceId ip port sessionId ttl minorVersion flags =>
      rw [BuilderCall.packet, Mpu.buildOfferService_eq] at h
      cases h
      exact iff_of_true
        ((wellFormed_endpoint _ (hoffer _ _ _ _ (Nat.le_refl 1)) ip port _ _).mpr rfl) id
  | mpuStopOfferService serviceId instanceId sessionId =>
      rw [BuilderCall.packet, Mpu.buildStopOfferService_eq] at h
      cases h
      exact iff_of_true (wellFormed_bare _ (hoffer _ _ _ _ (Nat.zero_le 1)) _ _) id
  | mpuSubscribeEventgroup serviceId instanceId eventgroupId ip port sessionId ttl =>
      rw [BuilderCall.packet, Mpu.buildSubscribeEventgroup_eq] at h
      cases h
      have hform := wellFormed_endpoint _ (entryRuns_subscribeEntry serviceId.toNat instanceId.toNat
        eventgroupId.toNat ttl) ip port sessionId.toNat Mpu.flagUnicast
      exact iff_of_false (fun hwell => absurd (hform.mp hwell) (by decide)) (not_not_intro trivial)
  | mcuFindService out cap serviceId instanceId sessionId =>
      rw [emitted_find h]
      exact iff_of_true (wellFormed_bare _ (hfind _ _ _ _ (Nat.zero_le 1)) _ _) id
  | mcuSubscribeEventgroup out cap serviceId instanceId eventgroupId ip port sessionId =>
      rw [emitted_subscribe h]
      have hform := wellFormed_endpoint _ (entryRuns_subscribeEntry serviceId.toNat instanceId.toNat
        eventgroupId.toNat Mpu.ttlDefault) ip port sessionId.toNat Mpu.flagUnicast
      exact iff_of_false (fun hwell => absurd (hform.mp hwell) (by decide)) (not_not_intro trivial)

def offerCall : BuilderCall :=
  .mpuOfferService 0x1234 0x5678 ⟨127, 0, 0, 1⟩ 30500 1 (Mpu.residue 24 3) 0 0x40

/-- The fourth byte of its entry counts the option. -/
def offerPacket : Bytes :=
  [0xFF, 0xFF, 0x81, 0, 0, 0, 0, 48, 0, 0, 0, 1, 1, 1, 2, 0, 0x40, 0, 0, 0, 0, 0, 0, 16,
    1, 0, 0, 0x10, 0x12, 0x34, 0x56, 0x78, 1, 0, 0, 3, 0, 0, 0, 0,
    0, 0, 0, 12, 0, 9, 4, 0, 127, 0, 0, 1, 0, 0x11, 0x77, 0x24]

theorem wellFormed_offer :
    WellFormed offerPacket 1 [⟨⟨127, 0, 0, 1⟩, 0x11, 30500⟩] ↔ ¬offerCall.Subscribes :=
  wellFormed_iff offerCall offerPacket (by decide +kernel)

/-- The two subscriptions are one packet, with an endpoint that its entry does not refer to. -/
def mpuSubscribeCall : BuilderCall :=
  .mpuSubscribeEventgroup 0x1234 0x5678 1 ⟨10, 0, 0, 5⟩ 30500 1 (Mpu.residue 24 Mpu.ttlDefault)

def mcuSubscribeCall : BuilderCall :=
  .mcuSubscribeEventgroup (List.replicate 64 0) 64 0x1234 0x5678 1 ⟨10, 0, 0, 5⟩ 30500 1

theorem subscription_unreferenced : ∃ packet, mpuSubscribeCall.packet = some packet ∧
    mcuSubscribeCall.packet = some packet ∧
    packetRuns packet 1 = [⟨0, 0⟩, ⟨0, 0⟩] ∧ Mpu.optionsLen packet = 12 ∧
    ¬WellFormed packet 1 [⟨⟨10, 0, 0, 5⟩, 0x11, 30500⟩] := by
  refine ⟨subscribeMessage 0x1234 0x5678 1 ⟨10, 0, 0, 5⟩ 30500 1, by decide +kernel,
    by decide +kernel, by decide +kernel, by decide +kernel, ?_⟩
  intro hwell
  have hform := wellFormed_endpoint _ (entryRuns_subscribeEntry 0x1234 0x5678 1 Mpu.ttlDefault)
    ⟨10, 0, 0, 5⟩ 30500 1 Mpu.flagUnicast
  exact absurd (hform.mp hwell) (by decide)

end SdvZone.Sd
