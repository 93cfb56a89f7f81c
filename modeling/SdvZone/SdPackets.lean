import SdvZone.SdRoundTrip
import SdvZone.MpuDiscovery

/-! The packets of the convenience builders, as messages of one entry and at most one option. The
builders mask every argument, so any argument stands for its residue. -/

namespace SdvZone.Mpu

open Wire

/-- What is left of an argument in a field of `n` bits. -/
def residue (n value : Nat) : Fin (2 ^ n) := ⟨value % 2 ^ n, Nat.mod_lt value (Nat.two_pow_pos n)⟩

theorem and_residue {n mask : Nat} (h : mask = 2 ^ n - 1) (value : Nat) :
    (residue n value).val &&& mask = value &&& mask := by
  rw [h, Nat.and_two_pow_sub_one_eq_mod, Nat.and_two_pow_sub_one_eq_mod, residue, Nat.mod_mod]

theorem residue_val {n : Nat} (value : Fin (2 ^ n)) : (residue n value).val = value :=
  Nat.mod_eq_of_lt value.isLt

/-- A service entry with its fields reduced to their ranges. -/
def serviceEntry (entryType : Nat) (htype : entryType ≤ 0x02) (serviceId instanceId ttl minorVersion
    nOptsRun1 : Nat) : SdEntry :=
  .service entryType htype
    { serviceId := residue 16 serviceId
      instanceId := residue 16 instanceId
      majorVersion := residue 8 1
      ttl := residue 24 ttl
      index1 := 0
      index2 := 0
      nOptsRun1 := nOptsRun1
      nOptsRun2 := 0 } (residue 32 minorVersion)

theorem serviceEntry_build (entryType : Nat) (htype : entryType ≤ 0x02) (serviceId instanceId ttl
    minorVersion nOptsRun1 : Nat) :
    (serviceEntry entryType htype serviceId instanceId ttl minorVersion nOptsRun1).build =
      buildServiceEntry entryType serviceId instanceId ttl minorVersion 1 0 0 nOptsRun1 := by
  have hservice := @and_residue 16 0xFFFF rfl serviceId
  have hinstance := @and_residue 16 0xFFFF rfl instanceId
  have httl := @and_residue 24 0xFFFFFF rfl ttl
  have hminor := @and_residue 32 0xFFFFFFFF rfl minorVersion
  simp only [serviceEntry, SdEntry.build, buildServiceEntry, packTtl, hservice, hinstance, httl, hminor]
  rfl

/-- The eventgroup entry of a subscription. -/
def subscribeEntry (serviceId instanceId eventgroupId ttl : Nat) : SdEntry :=
  .eventgroup entrySubscribeEventgroup (by decide)
    { serviceId := residue 16 serviceId
      instanceId := residue 16 instanceId
      majorVersion := residue 8 1
      ttl := residue 24 ttl
      index1 := 0
      index2 := 0
      nOptsRun1 := 0
      nOptsRun2 := 0 } (residue 16 eventgroupId)

theorem subscribeEntry_build (serviceId instanceId eventgroupId ttl : Nat) :
    (subscribeEntry serviceId instanceId eventgroupId ttl).build =
      buildEventgroupEntry entrySubscribeEventgroup serviceId instanceId eventgroupId ttl := by
  have hservice := @and_residue 16 0xFFFF rfl serviceId
  have hinstance := @and_residue 16 0xFFFF rfl instanceId
  have httl := @and_residue 24 0xFFFFFF rfl ttl
  have hgroup := @and_residue 16 0xFFFF rfl eventgroupId
  simp only [subscribeEntry, SdEntry.build, buildEventgroupEntry, packTtl, hservice, hinstance, httl,
    hgroup]
  rfl

/-- The endpoint option with the default protocol. -/
def udpOption (ip : DottedQuad) (port : Nat) : SdOption :=
  { address := ip
    port := residue 16 port
    l4Proto := residue 8 l4Udp }

theorem udpOption_build (ip : DottedQuad) (port : Nat) :
    (udpOption ip port).build = buildIpv4EndpointOption ip port := by
  have hport := @and_residue 16 0xFFFF rfl port
  simp only [udpOption, SdOption.build, buildIpv4EndpointOption, hport]
  rfl

/-- A message of entries and options. -/
def messageOf (entries : List SdEntry) (options : List SdOption) (sessionId flags : Nat) : Bytes :=
  sdMessage (entries.flatMap SdEntry.build) (options.flatMap SdOption.build) sessionId flags

/-- Messages that fit a datagram are built. -/
theorem buildSdMessage_messageOf (entries : List SdEntry) (options : List SdOption)
    (sessionId flags : Nat) (h : 28 + 16 * entries.length + 12 * options.length ≤ 4096) :
    buildSdMessage (entries.flatMap SdEntry.build) (options.flatMap SdOption.build) sessionId flags =
      .ok (messageOf entries options sessionId flags) := by
  have hentries := length_flatMap_size SdEntry.build_length entries
  have hoptions := length_flatMap_size SdOption.build_length options
  exact buildSdMessage_ok _ _ _ _ (by omega)

theorem messageOf_length (entries : List SdEntry) (options : List SdOption) (sessionId flags : Nat) :
    (messageOf entries options sessionId flags).length =
      28 + 16 * entries.length + 12 * options.length := by
  rw [messageOf, sdMessage, List.length_append, List.length_append, List.length_append, sdHead_length,
    beBytes_length, length_flatMap_size SdEntry.build_length,
    length_flatMap_size SdOption.build_length]
  omega

/-- They arrive whole and are accepted. -/
theorem parseSd_messageOf (entries : List SdEntry) (options : List SdOption) (sessionId flags : Nat)
    (h : 28 + 16 * entries.length + 12 * options.length ≤ 4096) :
    parseSd (SdClient.recvfrom (messageOf entries options sessionId flags)) =
      .ok {
        sessionId := sessionId % 2 ^ 16
        flags := flags % 2 ^ 8
        entries := entries.map SdEntry.parsed
        options := options.map SdOption.parsed } := by
  rw [SdClient.recvfrom, List.take_of_length_le (by rw [messageOf_length]; exact h), messageOf,
    parseSd_sdMessage entries options sessionId flags (by omega)]

/-! ### The four builders -/

theorem buildFindService_eq (serviceId instanceId sessionId ttl flags : Nat) :
    buildFindService serviceId instanceId sessionId ttl flags =
      .ok (messageOf [serviceEntry entryFindService (by decide) serviceId instanceId ttl 0 0] []
        sessionId flags) := by
  rw [← buildSdMessage_messageOf _ _ _ _ (by simp), List.flatMap_singleton, serviceEntry_build]
  rfl

theorem buildOfferService_eq (serviceId instanceId : Nat) (ip : DottedQuad) (port sessionId ttl
    minorVersion flags : Nat) :
    buildOfferService serviceId instanceId ip port sessionId ttl minorVersion flags =
      .ok (messageOf
        [serviceEntry entryOfferService (by decide) serviceId instanceId ttl minorVersion 1]
        [udpOption ip port] sessionId flags) := by
  rw [← buildSdMessage_messageOf _ _ _ _ (by simp), List.flatMap_singleton, List.flatMap_singleton,
    serviceEntry_build, udpOption_build]
  rfl

theorem buildStopOfferService_eq (serviceId instanceId sessionId : Nat) :
    buildStopOfferService serviceId instanceId sessionId =
      .ok (messageOf [serviceEntry entryOfferService (by decide) serviceId instanceId ttlStop 0 0] []
        sessionId flagUnicast) := by
  rw [← buildSdMessage_messageOf _ _ _ _ (by simp), List.flatMap_singleton, serviceEntry_build]
  rfl

theorem buildSubscribeEventgroup_eq (serviceId instanceId eventgroupId : Nat) (ip : DottedQuad)
    (port sessionId ttl : Nat) :
    buildSubscribeEventgroup serviceId instanceId eventgroupId ip port sessionId ttl =
      .ok (messageOf [subscribeEntry serviceId instanceId eventgroupId ttl] [udpOption ip port]
        sessionId flagUnicast) := by
  rw [← buildSdMessage_messageOf _ _ _ _ (by simp), List.flatMap_singleton, List.flatMap_singleton,
    subscribeEntry_build, udpOption_build]
  rfl

end SdvZone.Mpu
