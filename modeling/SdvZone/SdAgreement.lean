import SdvZone.SdOffers

/-! Agreement of servers and client. Whatever becomes of the packets of any number of servers on the
way, a client returns one record for each server it looks for and has heard from. -/

namespace SdvZone.Mpu

open Wire

/-- What a server is created with. -/
structure Provider where
  serviceId : Fin (2 ^ 16)
  instanceId : Fin (2 ^ 16)
  ip : DottedQuad
  port : Fin (2 ^ 16)
  deriving DecidableEq

namespace Provider

def server (provider : Provider) : SdServer :=
  .init provider.serviceId provider.instanceId provider.ip provider.port

def ids (provider : Provider) : Nat × Nat := (provider.serviceId, provider.instanceId)

def record (provider : Provider) : ServiceRecord :=
  { serviceId := provider.serviceId
    instanceId := provider.instanceId
    ip := provider.ip
    port := provider.port }

/-- The filters of `discover`, where 0xFFFF asks for any id. -/
def Sought (serviceId instanceId : Option Nat) (provider : Provider) : Prop :=
  (serviceId = none ∨ serviceId = some 0xFFFF ∨ serviceId = some provider.serviceId.val) ∧
    (instanceId = none ∨ instanceId = some 0xFFFF ∨ instanceId = some provider.instanceId.val)

end Provider

/-- A packet that may reach the client: of one of the servers, after some earlier calls of
`offer_once`, or of any other participant. -/
inductive Traffic (providers : List Provider) where
  | offer (provider : Provider) (hmem : provider ∈ providers) (earlier : Nat)
  | find (serviceId instanceId sessionId ttl flags : Nat)
  | subscribe (serviceId instanceId eventgroupId : Nat) (ip : DottedQuad) (port sessionId ttl : Nat)

namespace Traffic

variable {providers : List Provider}

def packet : Traffic providers → Except PyError Bytes
  | offer provider _ earlier => (provider.server.offerAfter earlier).map SentTo.packet
  | find serviceId instanceId sessionId ttl flags =>
      buildFindService serviceId instanceId sessionId ttl flags
  | subscribe serviceId instanceId eventgroupId ip port sessionId ttl =>
      buildSubscribeEventgroup serviceId instanceId eventgroupId ip port sessionId ttl

/-- The packet is an offer of the provider. -/
def OfferOf (provider : Provider) (traffic : Traffic providers) : Prop :=
  ∃ hmem earlier, traffic = offer provider hmem earlier

end Traffic

/-! ### What the packets say -/

def offerEntry (provider : Provider) : SdEntry :=
  serviceEntry entryOfferService (Nat.le_succ 1) provider.serviceId.val provider.instanceId.val
    ttlDefault 0 1

theorem parsed_offerEntry (provider : Provider) :
    (offerEntry provider).parsed =
      { entryType := entryOfferService
        serviceId := provider.serviceId
        instanceId := provider.instanceId
        majorVersion := 1
        ttl := 0xFFFFFF
        minorVersion := some 0
        eventgroupId := none } := by
  simp only [offerEntry, serviceEntry, SdEntry.parsed, residue_val]
  rfl

/-- A server keeps its ids, address and port; its offers differ in session and flags only. -/
theorem offerAfter_message (server : SdServer) (earlier : Nat) :
    ∃ sessionId flags, (server.offerAfter earlier).map SentTo.packet =
      .ok (messageOf
        [serviceEntry entryOfferService (by decide) server.serviceId server.instanceId ttlDefault 0 1]
        [udpOption server.ip server.port] sessionId flags) := by
  induction earlier generalizing server with
  | zero =>
      refine ⟨server.session, if server.first then flagReboot ||| flagUnicast else flagUnicast, ?_⟩
      rw [SdServer.offerAfter, SdServer.offerOnce, buildOfferService_eq]
      rfl
  | succ earlier ih =>
      rw [SdServer.offerAfter, SdServer.offerOnce, buildOfferService_eq]
      exact ih _

/-- What the client makes of a packet: the offer of its provider, or nothing. -/
def Says {providers : List Provider} (traffic : Traffic providers) (info : SdInfo) : Prop :=
  match traffic with
  | .offer provider _ _ =>
      info.entries = [(offerEntry provider).parsed] ∧
        firstEndpoint info = some ⟨provider.ip, 0x11, provider.port⟩
  | .find _ _ _ _ _ => ∀ entry ∈ info.entries, entry.entryType ≠ entryOfferService
  | .subscribe _ _ _ _ _ _ _ => ∀ entry ∈ info.entries, entry.entryType ≠ entryOfferService

theorem firstEndpoint_udpOption (provider : Provider) (sessionId flags : Nat)
    (entries : List ParsedEntry) :
    firstEndpoint ⟨sessionId, flags, entries, [(udpOption provider.ip provider.port).parsed]⟩ =
      some ⟨provider.ip, 0x11, provider.port⟩ := by
  simp only [firstEndpoint, List.findSome?_cons, SdClient.ip4Endpoint, SdOption.parsed, udpOption,
    residue_val]
  rfl

/-- Every packet is built, arrives whole and is accepted. -/
theorem traffic_accepted {providers : List Provider} (traffic : Traffic providers) :
    ∃ datagram info, traffic.packet = .ok datagram ∧
      parseSd (SdClient.recvfrom datagram) = .ok info ∧ Says traffic info := by
  cases traffic with
  | offer provider hmem earlier =>
      obtain ⟨sessionId, flags, hpacket⟩ := offerAfter_message provider.server earlier
      refine ⟨_, _, hpacket, parseSd_messageOf _ _ _ _ (by simp), rfl, ?_⟩
      exact firstEndpoint_udpOption provider _ _ _
  | find serviceId instanceId sessionId ttl flags =>
      refine ⟨_, _, buildFindService_eq _ _ _ _ _, parseSd_messageOf _ _ _ _ (by simp), ?_⟩
      intro entry hentry
      rw [List.mem_singleton.mp hentry]
      exact (by decide : entryFindService ≠ entryOfferService)
  | subscribe serviceId instanceId eventgroupId ip port sessionId ttl =>
      refine ⟨_, _, buildSubscribeEventgroup_eq _ _ _ _ _ _ _, parseSd_messageOf _ _ _ _ (by simp), ?_⟩
      intro entry hentry
      rw [List.mem_singleton.mp hentry]
      exact (by decide : entrySubscribeEventgroup ≠ entryOfferService)

/-- A whole run of traffic, packet by packet. -/
theorem received_accepted {providers : List Provider} (received : List (Traffic providers)) :
    ∃ datagrams infos, received.mapM Traffic.packet = .ok datagrams ∧
      (datagrams.map SdClient.recvfrom).mapM parseSd = .ok infos ∧ List.Forall₂ Says received infos := by
  induction received with
  | nil => exact ⟨[], [], rfl, rfl, .nil⟩
  | cons traffic rest ih =>
      obtain ⟨datagram, info, hpacket, hparsed, hsays⟩ := traffic_accepted traffic
      obtain ⟨datagrams, infos, hpackets, hparseds, hsayss⟩ := ih
      refine ⟨datagram :: datagrams, info :: infos, ?_, ?_, .cons hsays hsayss⟩
      · rw [List.mapM_cons, hpacket, hpackets]
        rfl
      · rw [List.map_cons, List.mapM_cons, hparsed, hparseds]
        rfl

/-! ### What the client records -/

/-- The client's wildcard is the id 0xFFFF itself. -/
theorem wanted_filter (filter : Option Nat) (id : Nat) :
    (filter.getD 0xFFFF = 0xFFFF ∨ id = filter.getD 0xFFFF) ↔
      (filter = none ∨ filter = some 0xFFFF ∨ filter = some id) := by
  cases filter with
  | none => simp
  | some given => simp [eq_comm]

theorem wanted_iff_sought (serviceId instanceId : Option Nat) (provider : Provider) :
    Wanted (serviceId.getD 0xFFFF) (instanceId.getD 0xFFFF) (offerEntry provider).parsed ↔
      provider.Sought serviceId instanceId := by
  rw [parsed_offerEntry, Wanted, Provider.Sought, ← wanted_filter, ← wanted_filter]
  exact and_iff_right rfl

section Records

variable {providers : List Provider} (serviceId instanceId : Option Nat)

/-- One packet makes one assignment if it is the offer of a server that is sought, else none. -/
theorem mem_updates_says {traffic : Traffic providers} {info : SdInfo} (h : Says traffic info)
    (update : (Nat × Nat) × ServiceRecord) :
    update ∈ updates (serviceId.getD 0xFFFF) (instanceId.getD 0xFFFF) info ↔
      ∃ provider, Traffic.OfferOf provider traffic ∧ provider.Sought serviceId instanceId ∧
        update = (provider.ids, provider.record) := by
  have hother : (∀ entry ∈ info.entries, entry.entryType ≠ entryOfferService) →
      update ∉ updates (serviceId.getD 0xFFFF) (instanceId.getD 0xFFFF) info := by
    intro hnone hmem
    obtain ⟨entry, hentry, hwanted, _⟩ := (mem_updates _ _ _ _).mp hmem
    exact hnone entry hentry hwanted.1
  rw [mem_updates]
  cases traffic with
  | offer provider hmem earlier =>
      obtain ⟨hentries, hfirst⟩ := h
      rw [hentries, hfirst]
      have hupdate : (ids (offerEntry provider).parsed,
          recordOf (offerEntry provider).parsed ⟨provider.ip, 0x11, provider.port⟩) =
            (provider.ids, provider.record) := by
        rw [parsed_offerEntry]
        rfl
      constructor
      · rintro ⟨entry, hentry, hwanted, endpoint, hendpoint, rfl⟩
        cases List.mem_singleton.mp hentry
        cases hendpoint
        exact ⟨provider, ⟨hmem, earlier, rfl⟩, (wanted_iff_sought _ _ _).mp hwanted, hupdate⟩
      · rintro ⟨other, ⟨_, _, heq⟩, hsought, rfl⟩
        cases heq
        exact ⟨_, List.mem_singleton_self _, (wanted_iff_sought _ _ _).mpr hsought, _, rfl,
          hupdate.symm⟩
  | find _ _ _ _ _ =>
      constructor
      · intro hmem
        exact absurd ((mem_updates _ _ _ _).mpr hmem) (hother h)
      · rintro ⟨_, ⟨_, _, heq⟩, _⟩
        cases heq
  | subscribe _ _ _ _ _ _ _ =>
      constructor
      · intro hmem
        exact absurd ((mem_updates _ _ _ _).mpr hmem) (hother h)
      · rintro ⟨_, ⟨_, _, heq⟩, _⟩
        cases heq

/-- All packets together. -/
theorem mem_updates_received {received : List (Traffic providers)} {infos : List SdInfo}
    (h : List.Forall₂ Says received infos) (update : (Nat × Nat) × ServiceRecord) :
    update ∈ infos.flatMap (updates (serviceId.getD 0xFFFF) (instanceId.getD 0xFFFF)) ↔
      ∃ provider, (∃ traffic ∈ received, Traffic.OfferOf provider traffic) ∧
        provider.Sought serviceId instanceId ∧ update = (provider.ids, provider.record) := by
  induction h with
  | nil => simp
  | cons hsays _ ih =>
      rw [List.flatMap_cons, List.mem_append, mem_updates_says serviceId instanceId hsays, ih]
      constructor
      · rintro (⟨provider, hoffer, hrest⟩ | ⟨provider, ⟨traffic, hmem, hoffer⟩, hrest⟩)
        · exact ⟨provider, ⟨_, List.mem_cons_self, hoffer⟩, hrest⟩
        · exact ⟨provider, ⟨traffic, List.mem_cons_of_mem _ hmem, hoffer⟩, hrest⟩
      · rintro ⟨provider, ⟨traffic, hmem, hoffer⟩, hrest⟩
        rcases List.mem_cons.mp hmem with rfl | hlater
        · exact Or.inl ⟨provider, hoffer, hrest⟩
        · exact Or.inr ⟨provider, ⟨traffic, hlater, hoffer⟩, hrest⟩

/-- The client returns exactly the records of the servers it seeks and has received an offer of. -/
theorem discovery_agreement (providers : List Provider)
    (hdistinct : (providers.map Provider.ids).Nodup) (serviceId instanceId : Option Nat)
    (received : List (Traffic providers)) :
    ∃ datagrams records, received.mapM Traffic.packet = .ok datagrams ∧
      SdClient.discover serviceId instanceId datagrams = .ok records ∧ records.Nodup ∧
      ∀ record, record ∈ records ↔
        ∃ provider ∈ providers, provider.Sought serviceId instanceId ∧
          (∃ traffic ∈ received, Traffic.OfferOf provider traffic) ∧ record = provider.record := by
  obtain ⟨datagrams, infos, hpackets, hparsed, hsays⟩ := received_accepted received
  have hupdates := mem_updates_received serviceId instanceId hsays
  have hmember : ∀ provider, (∃ traffic ∈ received, Traffic.OfferOf provider traffic) →
      provider ∈ providers := by
    rintro provider ⟨_, _, hmem, _⟩
    exact hmem
  have hfunctional : ∀ key value other,
      (key, value) ∈ infos.flatMap (updates (serviceId.getD 0xFFFF) (instanceId.getD 0xFFFF)) →
      (key, other) ∈ infos.flatMap (updates (serviceId.getD 0xFFFF) (instanceId.getD 0xFFFF)) →
      value = other := by
    intro key value other hvalue hother
    obtain ⟨provider, hreceived, _, heq⟩ := (hupdates _).mp hvalue
    obtain ⟨second, hreceived', _, heq'⟩ := (hupdates _).mp hother
    have hids : provider.ids = second.ids := by
      calc
        provider.ids = key := (Prod.mk.inj heq).1.symm
        _ = second.ids := (Prod.mk.inj heq').1
    have hsame : provider = second := by
      apply List.inj_on_of_nodup_map hdistinct _ _ hids
      · exact hmember provider hreceived
      · exact hmember second hreceived'
    calc
      value = provider.record := (Prod.mk.inj heq).2
      _ = second.record := by rw [hsame]
      _ = other := (Prod.mk.inj heq').2.symm
  refine ⟨datagrams, _, hpackets, discover_accepted serviceId instanceId hparsed, ?_, ?_⟩
  · apply OrderedDict.values_nodup _ fun record => (record.serviceId, record.instanceId)
    intro key record hitem
    exact ids_of_mem_results hitem
  · intro record
    rw [OrderedDict.mem_values]
    simp only [OrderedDict.mem_setAll_of_functional hfunctional, hupdates]
    constructor
    · rintro ⟨key, provider, hreceived, hsought, heq⟩
      exact ⟨provider, hmember provider hreceived, hsought, hreceived, (Prod.mk.inj heq).2⟩
    · rintro ⟨provider, _, hsought, hreceived, rfl⟩
      exact ⟨provider.ids, provider, hreceived, hsought, rfl⟩

end Records

def heardProvider : Provider :=
  ⟨residue 16 0x1234, residue 16 0x5678, ⟨192, 168, 7, 1⟩, residue 16 30509⟩

def silentProvider : Provider :=
  ⟨residue 16 0x1234, residue 16 0x5679, ⟨192, 168, 7, 2⟩, residue 16 30509⟩

/-- The second offer of one server, a search, and the first offer of that server. -/
def heardTwice : List (Traffic [heardProvider, silentProvider]) :=
  [.offer heardProvider List.mem_cons_self 1, .find 0x1234 0xFFFF 1 ttlDefault flagUnicast,
    .offer heardProvider List.mem_cons_self 0]

theorem discovery_agreement_two :
    ∃ datagrams records, heardTwice.mapM Traffic.packet = .ok datagrams ∧
      SdClient.discover (some 0x1234) none datagrams = .ok records ∧ records.Nodup ∧
      ∀ record, record ∈ records ↔
        ∃ provider ∈ [heardProvider, silentProvider], provider.Sought (some 0x1234) none ∧
          (∃ traffic ∈ heardTwice, Traffic.OfferOf provider traffic) ∧ record = provider.record :=
  discovery_agreement [heardProvider, silentProvider] (by decide) (some 0x1234) none heardTwice

end SdvZone.Mpu
