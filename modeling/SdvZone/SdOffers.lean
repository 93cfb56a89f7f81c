import SdvZone.SdReceive

/-! Which offers `discover` turns into records, and with which endpoint. The client looks at neither
the option runs of an entry nor its TTL: every offer takes the first IPv4 endpoint of its packet, and
a withdrawn service stays in the results. -/

namespace SdvZone.Mpu

open Wire

section Offers

variable (findServiceId findInstanceId : Nat)

/-- An offer that passes both filters. -/
def Wanted (entry : ParsedEntry) : Prop :=
  entry.entryType = entryOfferService ∧ (findServiceId = 0xFFFF ∨ entry.serviceId = findServiceId) ∧
    (findInstanceId = 0xFFFF ∨ entry.instanceId = findInstanceId)

/-- The first IPv4 endpoint of a packet. -/
def firstEndpoint (parsed : SdInfo) : Option ParsedEndpoint :=
  parsed.options.findSome? SdClient.ip4Endpoint

def ids (entry : ParsedEntry) : Nat × Nat := (entry.serviceId, entry.instanceId)

/-- The record of a service at an endpoint. -/
def recordOf (entry : ParsedEntry) (endpoint : ParsedEndpoint) : ServiceRecord :=
  { serviceId := entry.serviceId
    instanceId := entry.instanceId
    ip := endpoint.address
    port := endpoint.port }

/-- An entry is assigned exactly if it is wanted and its packet has an endpoint, the first one. -/
theorem entryUpdate_eq_some (parsed : SdInfo) (entry : ParsedEntry)
    (update : (Nat × Nat) × ServiceRecord) :
    SdClient.entryUpdate findServiceId findInstanceId parsed.options entry = some update ↔
      Wanted findServiceId findInstanceId entry ∧
        ∃ endpoint, firstEndpoint parsed = some endpoint ∧
          update = (ids entry, recordOf entry endpoint) := by
  unfold SdClient.entryUpdate Wanted firstEndpoint
  by_cases htype : entry.entryType = entryOfferService
  case neg =>
    rw [if_pos htype]
    constructor
    · intro h
      cases h
    · rintro ⟨hwanted, _⟩
      exact absurd hwanted.1 htype
  rw [if_neg (not_not.mpr htype)]
  by_cases hservice : findServiceId ≠ 0xFFFF ∧ entry.serviceId ≠ findServiceId
  · rw [if_pos hservice]
    constructor
    · intro h
      cases h
    · rintro ⟨hwanted, _⟩
      exact absurd hwanted.2.1 (not_or.mpr hservice)
  rw [if_neg hservice]
  by_cases hinstance : findInstanceId ≠ 0xFFFF ∧ entry.instanceId ≠ findInstanceId
  · rw [if_pos hinstance]
    constructor
    · intro h
      cases h
    · rintro ⟨hwanted, _⟩
      exact absurd hwanted.2.2 (not_or.mpr hinstance)
  rw [if_neg hinstance]
  have hserviceId : findServiceId = 0xFFFF ∨ entry.serviceId = findServiceId := by
    by_contra h
    exact hservice (not_or.mp h)
  have hinstanceId : findInstanceId = 0xFFFF ∨ entry.instanceId = findInstanceId := by
    by_contra h
    exact hinstance (not_or.mp h)
  cases parsed.options.findSome? SdClient.ip4Endpoint with
  | none =>
      constructor
      · intro h
        cases h
      · rintro ⟨_, endpoint, h, _⟩
        cases h
  | some endpoint =>
      constructor
      · intro h
        cases h
        exact ⟨⟨htype, hserviceId, hinstanceId⟩, endpoint, rfl, rfl⟩
      · rintro ⟨_, other, h, rfl⟩
        cases h
        rfl

/-- What a packet assigns: one record for each wanted entry, all at the first endpoint. -/
theorem mem_updates (parsed : SdInfo) (update : (Nat × Nat) × ServiceRecord) :
    update ∈ updates findServiceId findInstanceId parsed ↔
      ∃ entry ∈ parsed.entries, Wanted findServiceId findInstanceId entry ∧
        ∃ endpoint, firstEndpoint parsed = some endpoint ∧
          update = (ids entry, recordOf entry endpoint) := by
  simp only [updates, List.mem_filterMap, entryUpdate_eq_some]

/-! ### Endpoints -/

/-- The option at a position is an IPv4 endpoint. -/
def EndpointAt (options : List ParsedOption) (position : Nat) (endpoint : ParsedEndpoint) : Prop :=
  options[position]? = some ⟨optIp4Endpoint, some endpoint⟩

/-- The position lies in one of the two runs of options an entry refers to, each with its first index
and its length. -/
def InRuns (chunk : Bytes) (position : Nat) : Prop :=
  let index1 := beNat (slice chunk 1 2)
  let index2 := beNat (slice chunk 2 3)
  let counts := beNat (slice chunk 3 4)
  (index1 ≤ position ∧ position < index1 + counts / 16) ∨
    (index2 ≤ position ∧ position < index2 + counts % 16)

/-- The runs of the `i`-th entry contain the endpoint. -/
def OwnEndpoint (data : Bytes) (i : Nat) (endpoint : ParsedEndpoint) : Prop :=
  ∃ parsed position, parseSd data = .ok parsed ∧ InRuns (entryChunk (entryBytes data) i) position ∧
    EndpointAt parsed.options position endpoint

/-- `discover` derives the record from the `i`-th entry of a packet, as it receives it. -/
def Derives (packet : Bytes) (i : Nat) (record : ServiceRecord) : Prop :=
  ∃ parsed entry key, parseSd (SdClient.recvfrom packet) = .ok parsed ∧ parsed.entries[i]? = some entry ∧
    SdClient.entryUpdate findServiceId findInstanceId parsed.options entry = some (key, record)

/-- Every record carries an endpoint in the runs of its own entry, and an entry without one yields
none. -/
structure EndpointsOwned (packet : Bytes) : Prop where
  owned : ∀ i record, Derives findServiceId findInstanceId packet i record → ∃ endpoint,
    OwnEndpoint (SdClient.recvfrom packet) i endpoint ∧ endpoint.address = record.ip ∧
      endpoint.port = record.port
  unowned : ∀ i, (∀ endpoint, ¬OwnEndpoint (SdClient.recvfrom packet) i endpoint) →
    ∀ record, ¬Derives findServiceId findInstanceId packet i record

/-- The runs of every wanted entry contain an endpoint with the address and the port of the first one
of the packet, if it has one. -/
def FirstEndpointShared (packet : Bytes) : Prop :=
  ∀ parsed, parseSd (SdClient.recvfrom packet) = .ok parsed → ∀ first endpoint,
    EndpointAt parsed.options first endpoint →
    (∀ earlier < first, ∀ other, ¬EndpointAt parsed.options earlier other) →
    ∀ (i : Nat) (entry : ParsedEntry), parsed.entries[i]? = some entry →
      Wanted findServiceId findInstanceId entry →
        ∃ own, OwnEndpoint (SdClient.recvfrom packet) i own ∧ own.address = endpoint.address ∧
          own.port = endpoint.port

theorem ip4Endpoint_eq_some {option : ParsedOption} {endpoint : ParsedEndpoint} :
    SdClient.ip4Endpoint option = some endpoint ↔ option = ⟨optIp4Endpoint, some endpoint⟩ := by
  obtain ⟨optionType, found⟩ := option
  rw [SdClient.ip4Endpoint, Option.ite_none_right_eq_some, ParsedOption.mk.injEq]

/-- What the loop over the options breaks at is the endpoint at the first position that has one. -/
theorem firstEndpoint_iff (parsed : SdInfo) (endpoint : ParsedEndpoint) :
    firstEndpoint parsed = some endpoint ↔ ∃ first, EndpointAt parsed.options first endpoint ∧
      ∀ earlier < first, ∀ other, ¬EndpointAt parsed.options earlier other := by
  rw [firstEndpoint, List.findSome?_eq_some_iff]
  constructor
  · rintro ⟨front, option, back, hoptions, hoption, hnone⟩
    refine ⟨front.length, ?_, ?_⟩
    · rw [EndpointAt, hoptions, List.getElem?_append_right le_rfl, Nat.sub_self, List.getElem?_cons_zero,
        ip4Endpoint_eq_some.mp hoption]
    · intro earlier hearlier other hother
      rw [EndpointAt, hoptions, List.getElem?_append_left hearlier] at hother
      have hskipped := hnone _ (List.mem_of_getElem? hother)
      rw [ip4Endpoint_eq_some.mpr rfl] at hskipped
      cases hskipped
  · rintro ⟨first, hfirst, hnone⟩
    obtain ⟨hbound, hoption⟩ := List.getElem?_eq_some_iff.mp hfirst
    refine ⟨parsed.options.take first, _, parsed.options.drop (first + 1), ?_, ip4Endpoint_eq_some.mpr rfl, ?_⟩
    · rw [← hoption, ← List.drop_eq_getElem_cons hbound, List.take_append_drop]
    · intro option hmem
      obtain ⟨earlier, hearlier⟩ := List.mem_iff_getElem?.mp hmem
      rw [List.getElem?_take, Option.ite_none_right_eq_some] at hearlier
      cases hfound : SdClient.ip4Endpoint option with
      | none => rfl
      | some other =>
          rw [ip4Endpoint_eq_some.mp hfound] at hearlier
          exact absurd hearlier.2 (hnone earlier hearlier.1 other)

/-- An entry yields the record of the first endpoint if it is wanted, and no other. -/
theorem derives_iff {packet : Bytes} {parsed : SdInfo}
    (hparsed : parseSd (SdClient.recvfrom packet) = .ok parsed) (i : Nat) (record : ServiceRecord) :
    Derives findServiceId findInstanceId packet i record ↔ ∃ entry endpoint,
      parsed.entries[i]? = some entry ∧ Wanted findServiceId findInstanceId entry ∧
        firstEndpoint parsed = some endpoint ∧ record = recordOf entry endpoint := by
  constructor
  · rintro ⟨other, entry, key, hother, hentry, hupdate⟩
    rw [hparsed] at hother
    cases hother
    obtain ⟨hwanted, endpoint, hfirst, heq⟩ := (entryUpdate_eq_some _ _ _ _ _).mp hupdate
    exact ⟨entry, endpoint, hentry, hwanted, hfirst, (Prod.mk.inj heq).2⟩
  · rintro ⟨entry, endpoint, hentry, hwanted, hfirst, rfl⟩
    exact ⟨parsed, entry, ids entry, hparsed, hentry,
      (entryUpdate_eq_some _ _ _ _ _).mpr ⟨hwanted, endpoint, hfirst, rfl⟩⟩

theorem receive_derives {packet : Bytes} {results next : Results}
    (h : SdClient.receive findServiceId findInstanceId results (SdClient.recvfrom packet) = .ok next)
    {key : Nat × Nat} {record : ServiceRecord} (hrecord : (key, record) ∈ next.items) :
    (key, record) ∈ results.items ∨ ∃ i, Derives findServiceId findInstanceId packet i record := by
  rw [SdClient.receive] at h
  split at h
  next =>
    cases h
    exact .inl hrecord
  next => cases h
  next parsed hparsed =>
    cases h
    rw [collect_eq] at hrecord
    refine (OrderedDict.mem_of_mem_setAll hrecord).imp_right fun hupdate => ?_
    obtain ⟨entry, hentry, hassigned⟩ := List.mem_filterMap.mp hupdate
    obtain ⟨i, hi⟩ := List.mem_iff_getElem?.mp hentry
    exact ⟨i, parsed, entry, key, hparsed, hi, hassigned⟩

theorem foldlM_derives {packets : List Bytes} {start last : Results}
    (h : (packets.map SdClient.recvfrom).foldlM (SdClient.receive findServiceId findInstanceId) start = .ok last)
    {key : Nat × Nat} {record : ServiceRecord} (hrecord : (key, record) ∈ last.items) :
    (key, record) ∈ start.items ∨
      ∃ packet ∈ packets, ∃ i, Derives findServiceId findInstanceId packet i record := by
  induction packets generalizing start with
  | nil =>
      cases h
      exact .inl hrecord
  | cons packet rest ih =>
      rw [List.map_cons, List.foldlM_cons] at h
      cases hnext : SdClient.receive findServiceId findInstanceId start (SdClient.recvfrom packet) with
      | error error =>
          rw [hnext] at h
          cases h
      | ok next =>
          rw [hnext] at h
          rcases ih h with hstart | ⟨later, hlater, hderives⟩
          · exact (receive_derives _ _ hnext hstart).imp_right fun hderives =>
              ⟨packet, List.mem_cons_self, hderives⟩
          · exact .inr ⟨later, List.mem_cons_of_mem _ hlater, hderives⟩

/-- Every record that `discover` returns is derived from an entry of a packet it was given. -/
theorem discover_derives {serviceId instanceId : Option Nat} {packets : List Bytes}
    {records : List ServiceRecord} (h : SdClient.discover serviceId instanceId packets = .ok records) :
    ∀ record ∈ records, ∃ packet ∈ packets, ∃ i,
      Derives (serviceId.getD 0xFFFF) (instanceId.getD 0xFFFF) packet i record := by
  rw [discover_eq] at h
  intro record hrecord
  cases hlast : (packets.map SdClient.recvfrom).foldlM
      (SdClient.receive (serviceId.getD 0xFFFF) (instanceId.getD 0xFFFF)) OrderedDict.empty with
  | error error =>
      rw [hlast] at h
      cases h
  | ok last =>
      rw [hlast] at h
      cases h
      obtain ⟨key, hitem⟩ := (OrderedDict.mem_values _ _).mp hrecord
      rcases foldlM_derives _ _ hlast hitem with hstart | hderives
      · cases hstart
      · exact hderives

variable {findServiceId findInstanceId}

theorem FirstEndpointShared.owned {packet : Bytes} (h : FirstEndpointShared findServiceId findInstanceId packet)
    {i : Nat} {record : ServiceRecord} (hderives : Derives findServiceId findInstanceId packet i record) :
    ∃ endpoint, OwnEndpoint (SdClient.recvfrom packet) i endpoint ∧ endpoint.address = record.ip ∧
      endpoint.port = record.port := by
  obtain ⟨parsed, -, -, hparsed, -⟩ := id hderives
  obtain ⟨entry, endpoint, hentry, hwanted, hfirst, rfl⟩ := (derives_iff _ _ hparsed i record).mp hderives
  obtain ⟨first, hendpoint, hearlier⟩ := (firstEndpoint_iff parsed endpoint).mp hfirst
  exact h parsed hparsed first endpoint hendpoint hearlier i entry hentry hwanted

/-- Every record returned is derived from an entry, and they carry endpoints of their own entries
exactly when every wanted entry refers to the first endpoint of the packet. -/
theorem endpointsOwned_iff (serviceId instanceId : Option Nat) (packet : Bytes) :
    (∀ records, SdClient.discover serviceId instanceId [packet] = .ok records → ∀ record ∈ records,
        ∃ i, Derives (serviceId.getD 0xFFFF) (instanceId.getD 0xFFFF) packet i record) ∧
      (EndpointsOwned (serviceId.getD 0xFFFF) (instanceId.getD 0xFFFF) packet ↔
        FirstEndpointShared (serviceId.getD 0xFFFF) (instanceId.getD 0xFFFF) packet) := by
  refine ⟨?_, ?_, ?_⟩
  · intro records hrecords record hrecord
    obtain ⟨given, hgiven, hderives⟩ := discover_derives hrecords record hrecord
    rwa [List.mem_singleton.mp hgiven] at hderives
  · intro howned parsed hparsed first endpoint hendpoint hearlier i entry hentry hwanted
    have hfirst := (firstEndpoint_iff parsed endpoint).mpr ⟨first, hendpoint, hearlier⟩
    exact howned.owned i (recordOf entry endpoint)
      ((derives_iff _ _ hparsed i _).mpr ⟨entry, endpoint, hentry, hwanted, hfirst, rfl⟩)
  · intro hshared
    refine ⟨fun i record hderives => hshared.owned hderives, fun i hnone record hderives => ?_⟩
    obtain ⟨endpoint, hown, -⟩ := hshared.owned hderives
    exact hnone endpoint hown

end Offers

/-- The offer of a service whose first run is one option. -/
def offerAt (serviceId index1 : Nat) : SdEntry :=
  .service entryOfferService (by decide)
    { serviceId := residue 16 serviceId
      instanceId := residue 16 1
      majorVersion := residue 8 1
      ttl := residue 24 ttlDefault
      index1 := index1
      index2 := 0
      nOptsRun1 := 1
      nOptsRun2 := 0 } (residue 32 0)

/-- Two services, each offered at an endpoint of its own. -/
def twoOffers : Bytes :=
  messageOf [offerAt 0x1111 0, offerAt 0x2222 1]
    [udpOption ⟨10, 0, 0, 1⟩ 1000, udpOption ⟨10, 0, 0, 2⟩ 2000] 1 0x40

def twoOffersParsed : SdInfo :=
  { sessionId := 1
    flags := 0x40
    entries := [(offerAt 0x1111 0).parsed, (offerAt 0x2222 1).parsed]
    options := [(udpOption ⟨10, 0, 0, 1⟩ 1000).parsed, (udpOption ⟨10, 0, 0, 2⟩ 2000).parsed] }

/-- The second service is recorded at the endpoint of the first. -/
theorem twoOffers_misplaced :
    SdClient.discover none none [twoOffers] =
        .ok [⟨0x1111, 1, ⟨10, 0, 0, 1⟩, 1000⟩, ⟨0x2222, 1, ⟨10, 0, 0, 1⟩, 1000⟩] ∧
      ¬EndpointsOwned 0xFFFF 0xFFFF twoOffers := by
  have hparsed : parseSd (SdClient.recvfrom twoOffers) = .ok twoOffersParsed :=
    parseSd_messageOf _ _ 1 0x40 (by decide)
  constructor
  · have haccepted : ([twoOffers].map SdClient.recvfrom).mapM parseSd = .ok [twoOffersParsed] := by
      rw [List.map_singleton, List.mapM_cons, hparsed]
      rfl
    rw [discover_accepted none none haccepted]
    decide
  · intro howned
    obtain ⟨endpoint, ⟨parsed, position, hother, hruns, hendpoint⟩, haddress, -⟩ :=
      howned.owned 1 ⟨0x2222, 1, ⟨10, 0, 0, 1⟩, 1000⟩
        ⟨twoOffersParsed, (offerAt 0x2222 1).parsed, (0x2222, 1), hparsed, rfl, by decide⟩
    rw [hparsed] at hother
    cases hother
    have hreceived : SdClient.recvfrom twoOffers = twoOffers := List.take_of_length_le (by decide)
    have hbytes : entryBytes twoOffers = [offerAt 0x1111 0, offerAt 0x2222 1].flatMap SdEntry.build := by
      rw [twoOffers, messageOf, entryBytes_sdMessage (by decide)]
    rw [hreceived, hbytes] at hruns
    have hposition : position = 1 := by
      rcases hruns with ⟨hlow, hhigh⟩ | ⟨hlow, hhigh⟩
      · exact Nat.le_antisymm (Nat.le_of_lt_succ hhigh) hlow
      · exact absurd hhigh (Nat.not_lt.mpr hlow)
    subst hposition
    cases hendpoint
    exact absurd haddress (by decide)

/-! ### Withdrawals -/

/-- The last offer of a service, in the order received. -/
def lastOffer (infos : List SdInfo) (key : Nat × Nat) : Option ParsedEntry :=
  ((infos.flatMap SdInfo.entries).filter fun entry =>
    entry.entryType = entryOfferService ∧ ids entry = key).getLast?

/-- The packet has an IPv4 endpoint among its options. -/
def HasEndpoint (info : SdInfo) : Prop := ∃ position endpoint, EndpointAt info.options position endpoint

theorem hasEndpoint_iff (info : SdInfo) :
    HasEndpoint info ↔ ∃ endpoint, firstEndpoint info = some endpoint := by
  constructor
  · rintro ⟨position, endpoint, hendpoint⟩
    cases hfirst : firstEndpoint info with
    | some first => exact ⟨first, rfl⟩
    | none =>
        have hnone := List.findSome?_eq_none_iff.mp hfirst _ (List.mem_of_getElem? hendpoint)
        rw [ip4Endpoint_eq_some.mpr rfl] at hnone
        cases hnone
  · rintro ⟨endpoint, hfirst⟩
    obtain ⟨first, hendpoint, -⟩ := (firstEndpoint_iff info endpoint).mp hfirst
    exact ⟨first, endpoint, hendpoint⟩

/-- The keys of the results: the services wanted in some packet that has an endpoint. -/
theorem exists_mem_results (findServiceId findInstanceId : Nat) (infos : List SdInfo)
    (key : Nat × Nat) :
    (∃ record, (key, record) ∈ (OrderedDict.empty.setAll
        (infos.flatMap (updates findServiceId findInstanceId))).items) ↔
      ∃ info ∈ infos, HasEndpoint info ∧
        ∃ entry ∈ info.entries, Wanted findServiceId findInstanceId entry ∧ ids entry = key := by
  rw [OrderedDict.exists_mem_setAll_empty]
  constructor
  · rintro ⟨record, hrecord⟩
    obtain ⟨info, hinfo, hupdate⟩ := List.mem_flatMap.mp hrecord
    obtain ⟨entry, hentry, hwanted, endpoint, hfirst, heq⟩ := (mem_updates _ _ _ _).mp hupdate
    exact ⟨info, hinfo, (hasEndpoint_iff info).mpr ⟨endpoint, hfirst⟩, entry, hentry, hwanted,
      (Prod.mk.inj heq).1.symm⟩
  · rintro ⟨info, hinfo, hendpoint, entry, hentry, hwanted, rfl⟩
    obtain ⟨endpoint, hfirst⟩ := (hasEndpoint_iff info).mp hendpoint
    exact ⟨recordOf entry endpoint, List.mem_flatMap.mpr
      ⟨info, hinfo, (mem_updates _ _ _ _).mpr ⟨entry, hentry, hwanted, endpoint, hfirst, rfl⟩⟩⟩

/-- Records are filed under their own ids. -/
theorem ids_of_mem_results {findServiceId findInstanceId : Nat} {infos : List SdInfo}
    {key : Nat × Nat} {record : ServiceRecord}
    (h : (key, record) ∈ (OrderedDict.empty.setAll
      (infos.flatMap (updates findServiceId findInstanceId))).items) :
    (record.serviceId, record.instanceId) = key := by
  rw [OrderedDict.mem_setAll_empty] at h
  obtain ⟨info, _, hupdate⟩ :=
    List.mem_flatMap.mp (List.mem_of_mem_filter (List.mem_of_getLast? h))
  obtain ⟨entry, _, _, endpoint, _, heq⟩ := (mem_updates _ _ _ _).mp hupdate
  cases heq
  rfl

/-- A wanted entry of a key leaves a last offer of that key. -/
theorem lastOffer_of_wanted {findServiceId findInstanceId : Nat} {infos : List SdInfo} {info : SdInfo}
    {entry : ParsedEntry} (hinfo : info ∈ infos) (hentry : entry ∈ info.entries)
    (hwanted : Wanted findServiceId findInstanceId entry) :
    ∃ last, lastOffer infos (ids entry) = some last := by
  have hmem : entry ∈ (infos.flatMap SdInfo.entries).filter fun other =>
      other.entryType = entryOfferService ∧ ids other = ids entry := by
    rw [List.mem_filter]
    exact ⟨List.mem_flatMap.mpr ⟨info, hinfo, hentry⟩, decide_eq_true ⟨hwanted.1, rfl⟩⟩
  exact ⟨_, List.getLast?_eq_some_getLast (List.ne_nil_of_mem hmem)⟩

/-- What an element of a concatenation of blocks is preceded and followed by. -/
theorem flatMap_eq_append_cons {α β : Type} {f : α → List β} {blocks : List α} {front back : List β}
    {element : β} (h : blocks.flatMap f = front ++ element :: back) :
    ∃ earlier block later inner outer, blocks = earlier ++ block :: later ∧
      f block = inner ++ element :: outer ∧ back = outer ++ later.flatMap f := by
  induction blocks generalizing front with
  | nil => exact absurd h.symm (List.append_ne_nil_of_right_ne_nil _ (List.cons_ne_nil _ _))
  | cons block rest ih =>
      have hbehind : ∀ {inner : List β}, rest.flatMap f = inner ++ element :: back →
          ∃ earlier own later inner outer, block :: rest = earlier ++ own :: later ∧
            f own = inner ++ element :: outer ∧ back = outer ++ later.flatMap f := by
        intro inner hrest
        obtain ⟨earlier, own, later, inner, outer, hblocks, hown, hback⟩ := ih hrest
        exact ⟨block :: earlier, own, later, inner, outer, congrArg (block :: ·) hblocks, hown, hback⟩
      rw [List.flatMap_cons, List.append_eq_append_iff] at h
      rcases h with ⟨inner, -, hrest⟩ | ⟨outer, hblock, hrest⟩
      · exact hbehind hrest
      · cases outer with
        | nil => exact @hbehind [] hrest.symm
        | cons first outer =>
            obtain ⟨rfl, hback⟩ := List.cons.inj hrest
            exact ⟨[], block, rest, front, outer, rfl, hblock, hback⟩

/-- The packet of the last offer of a service, and that no offer of it comes behind. -/
theorem lastOffer_split {infos : List SdInfo} {key : Nat × Nat} {last : ParsedEntry}
    (h : lastOffer infos key = some last) :
    ∃ earlier info later front back, infos = earlier ++ info :: later ∧
      info.entries = front ++ last :: back ∧ last.entryType = entryOfferService ∧ ids last = key ∧
      ∀ entry ∈ back ++ later.flatMap SdInfo.entries,
        ¬(entry.entryType = entryOfferService ∧ ids entry = key) := by
  obtain ⟨offers, hoffers⟩ := List.getLast?_eq_some_iff.mp h
  obtain ⟨before, behind, hentries, -, hbehind⟩ := List.filter_eq_append_iff.mp hoffers
  obtain ⟨skipped, back, rfl, -, hlast, hnone⟩ := List.filter_eq_cons_iff.mp hbehind
  rw [← List.append_assoc] at hentries
  obtain ⟨earlier, info, later, front, outer, hinfos, hinfo, rfl⟩ := flatMap_eq_append_cons hentries
  have hoffer := of_decide_eq_true hlast
  refine ⟨earlier, info, later, front, outer, hinfos, hinfo, hoffer.1, hoffer.2, ?_⟩
  intro entry hentry hother
  exact List.filter_eq_nil_iff.mp hnone entry hentry (decide_eq_true hother)

section Withdrawals

variable (findServiceId findInstanceId : Nat)

/-- `results` when some packets have been processed, and some entries of the next. -/
def resultsAfter (earlier : List SdInfo) (info : SdInfo) (entries : List ParsedEntry) : Results :=
  SdClient.collect findServiceId findInstanceId
    (earlier.foldl (SdClient.collect findServiceId findInstanceId) .empty) { info with entries := entries }

/-- An offer with TTL zero, behind some packets and some entries of its own packet. -/
structure StopsAt (infos earlier : List SdInfo) (info : SdInfo) (front : List ParsedEntry)
    (stop : ParsedEntry) : Prop where
  packets : earlier ++ [info] <+: infos
  entries : front ++ [stop] <+: info.entries
  offer : stop.entryType = entryOfferService
  ttl : stop.ttl = ttlStop

/-- No service is added, and that of the key is not there any more. -/
structure Withdraws (before after : Results) (key : Nat × Nat) : Prop where
  adds : ∀ other record, (other, record) ∈ after.items → ∃ old, (other, old) ∈ before.items
  removes : ∀ record, (key, record) ∉ after.items

/-- Every service returned was last offered with a nonzero TTL; an offer with TTL zero adds no service
and removes its own. -/
structure StopsHonoured (infos : List SdInfo) (records : List ServiceRecord) : Prop where
  last : ∀ record ∈ records, ∃ entry,
    lastOffer infos (record.serviceId, record.instanceId) = some entry ∧ entry.ttl ≠ ttlStop
  stops : ∀ earlier info front stop, StopsAt infos earlier info front stop →
    Withdraws (resultsAfter findServiceId findInstanceId earlier info front)
      (resultsAfter findServiceId findInstanceId earlier info (front ++ [stop])) (ids stop)

/-- An offer with TTL zero is not wanted itself in a packet that has an endpoint, and no offer of its
service before it is. -/
def StoppedWithoutEndpoint (infos : List SdInfo) : Prop :=
  ∀ earlier info front stop, StopsAt infos earlier info front stop →
    ∀ packet ∈ earlier ++ [{ info with entries := front ++ [stop] }], HasEndpoint packet →
      ∀ entry ∈ packet.entries, Wanted findServiceId findInstanceId entry → ids entry ≠ ids stop

theorem exists_mem_resultsAfter (earlier : List SdInfo) (info : SdInfo) (entries : List ParsedEntry)
    (key : Nat × Nat) :
    (∃ record, (key, record) ∈ (resultsAfter findServiceId findInstanceId earlier info entries).items) ↔
      ∃ packet ∈ earlier ++ [{ info with entries := entries }], HasEndpoint packet ∧
        ∃ entry ∈ packet.entries, Wanted findServiceId findInstanceId entry ∧ ids entry = key := by
  rw [← exists_mem_results, resultsAfter, foldl_collect, collect_eq, ← OrderedDict.setAll_append,
    List.flatMap_append, List.flatMap_singleton]

variable {findServiceId findInstanceId}

/-- Without an endpoint for it so far, an offer with TTL zero leaves nothing of its service. -/
theorem StoppedWithoutEndpoint.withdraws {infos earlier : List SdInfo} {info : SdInfo}
    {front : List ParsedEntry} {stop : ParsedEntry}
    (h : StoppedWithoutEndpoint findServiceId findInstanceId infos)
    (hstop : StopsAt infos earlier info front stop) :
    Withdraws (resultsAfter findServiceId findInstanceId earlier info front)
      (resultsAfter findServiceId findInstanceId earlier info (front ++ [stop])) (ids stop) := by
  have hunoffered := h earlier info front stop hstop
  constructor
  · intro other record hrecord
    obtain ⟨packet, hpacket, hendpoint, entry, hentry, hwanted, hids⟩ :=
      (exists_mem_resultsAfter _ _ _ _ _ _).mp ⟨record, hrecord⟩
    refine (exists_mem_resultsAfter _ _ _ _ _ _).mpr ?_
    rcases List.mem_append.mp hpacket with hearlier | hown
    · exact ⟨packet, List.mem_append_left _ hearlier, hendpoint, entry, hentry, hwanted, hids⟩
    · rw [List.mem_singleton.mp hown] at hendpoint hentry
      rcases List.mem_append.mp hentry with hfront | hlast
      · exact ⟨_, List.mem_append_right _ List.mem_cons_self, hendpoint, entry, hfront, hwanted, hids⟩
      · have hsame : ids entry = ids stop := congrArg ids (List.mem_singleton.mp hlast)
        exact absurd hsame (hunoffered _ (List.mem_append_right _ List.mem_cons_self) hendpoint entry
          (List.mem_append_right _ hlast) hwanted)
  · intro record hrecord
    obtain ⟨packet, hpacket, hendpoint, entry, hentry, hwanted, hids⟩ :=
      (exists_mem_resultsAfter _ _ _ _ _ _).mp ⟨record, hrecord⟩
    exact hunoffered packet hpacket hendpoint entry hentry hwanted hids

/-- Nor is the service returned when this was its last offer. -/
theorem StoppedWithoutEndpoint.last_ttl {infos : List SdInfo} {info : SdInfo} {entry last : ParsedEntry}
    (h : StoppedWithoutEndpoint findServiceId findInstanceId infos) (hinfo : info ∈ infos)
    (hendpoint : HasEndpoint info) (hentry : entry ∈ info.entries)
    (hwanted : Wanted findServiceId findInstanceId entry) (hlast : lastOffer infos (ids entry) = some last) :
    last.ttl ≠ ttlStop := by
  intro httl
  obtain ⟨earlier, own, later, front, back, rfl, hown, hoffer, hids, hnone⟩ := lastOffer_split hlast
  have hbehind : entry ∉ back ++ later.flatMap SdInfo.entries :=
    fun hmem => hnone entry hmem ⟨hwanted.1, rfl⟩
  have hstop : StopsAt (earlier ++ own :: later) earlier own front last := by
    refine ⟨⟨later, (List.append_cons earlier own later).symm⟩, ⟨back, ?_⟩, hoffer, httl⟩
    rw [hown]
    exact (List.append_cons front last back).symm
  have hunoffered := h earlier own front last hstop
  rcases List.mem_append.mp hinfo with hearlier | hrest
  · exact hunoffered info (List.mem_append_left _ hearlier) hendpoint entry hentry hwanted hids.symm
  rcases List.mem_cons.mp hrest with rfl | hlater
  · rw [hown, List.append_cons, List.mem_append] at hentry
    rcases hentry with hupto | hback
    · exact hunoffered _ (List.mem_append_right _ List.mem_cons_self) hendpoint entry hupto hwanted hids.symm
    · exact hbehind (List.mem_append_left _ hback)
  · exact hbehind (List.mem_append_right _ (List.mem_flatMap.mpr ⟨info, hlater, hentry⟩))

end Withdrawals

/-- Withdrawals are honoured exactly when no service is withdrawn that had an endpoint. -/
theorem stopsHonoured_iff (serviceId instanceId : Option Nat) (datagrams : List Bytes)
    (hharmless : ∀ datagram ∈ datagrams, ¬BareHeader datagram) :
    ∃ records, SdClient.discover serviceId instanceId datagrams = .ok records ∧
      (StopsHonoured (serviceId.getD 0xFFFF) (instanceId.getD 0xFFFF) (accepted datagrams) records ↔
        StoppedWithoutEndpoint (serviceId.getD 0xFFFF) (instanceId.getD 0xFFFF) (accepted datagrams)) := by
  refine ⟨_, discover_collects serviceId instanceId hharmless, ?_⟩
  generalize accepted datagrams = infos
  rw [foldl_collect]
  constructor
  · intro hhonoured earlier info front stop hstop packet hpacket hendpoint entry hentry hwanted hids
    obtain ⟨record, hrecord⟩ := (exists_mem_resultsAfter _ _ _ _ _ (ids stop)).mpr
      ⟨packet, hpacket, hendpoint, entry, hentry, hwanted, hids⟩
    exact (hhonoured.stops earlier info front stop hstop).removes record hrecord
  · intro hstopped
    refine ⟨?_, fun earlier info front stop hstop => hstopped.withdraws hstop⟩
    intro record hrecord
    obtain ⟨key, hitem⟩ := (OrderedDict.mem_values _ _).mp hrecord
    obtain ⟨info, hinfo, hendpoint, entry, hentry, hwanted, hkey⟩ :=
      (exists_mem_results _ _ infos key).mp ⟨record, hitem⟩
    obtain ⟨last, hlast⟩ := lastOffer_of_wanted hinfo hentry hwanted
    refine ⟨last, ?_, hstopped.last_ttl hinfo hendpoint hentry hwanted hlast⟩
    rw [ids_of_mem_results hitem, ← hkey]
    exact hlast

/-- One offer of a service, as the server sends it. -/
def offerMessage (sessionId : Nat) : Bytes :=
  messageOf [serviceEntry 0x01 (by decide) 0x1234 0x5678 ttlDefault 0 1]
    [udpOption ⟨192, 168, 7, 1⟩ 30509] sessionId flagUnicast

/-- The same service withdrawn. -/
def stopOfferMessage (sessionId : Nat) : Bytes :=
  messageOf [serviceEntry 0x01 (by decide) 0x1234 0x5678 ttlStop 0 0] [] sessionId flagUnicast

def offeredInfo : SdInfo :=
  { sessionId := 1
    flags := 0x40
    entries := [(serviceEntry 0x01 (by decide) 0x1234 0x5678 ttlDefault 0 1).parsed]
    options := [(udpOption ⟨192, 168, 7, 1⟩ 30509).parsed] }

def stoppedInfo : SdInfo :=
  { sessionId := 2
    flags := 0x40
    entries := [(serviceEntry 0x01 (by decide) 0x1234 0x5678 ttlStop 0 0).parsed]
    options := [] }

theorem offerMessage_accepted : parseSd (SdClient.recvfrom (offerMessage 1)) = .ok offeredInfo :=
  parseSd_messageOf _ _ 1 0x40 (by decide)

theorem stopOfferMessage_accepted :
    parseSd (SdClient.recvfrom (stopOfferMessage 2)) = .ok stoppedInfo :=
  parseSd_messageOf _ _ 2 0x40 (by decide)

/-- The service is withdrawn before it is offered. -/
theorem stopsHonoured_offer :
    ∃ records, SdClient.discover (some 0x1234) none [stopOfferMessage 1, offerMessage 2] = .ok records ∧
      (StopsHonoured 0x1234 0xFFFF (accepted [stopOfferMessage 1, offerMessage 2]) records ↔
        StoppedWithoutEndpoint 0x1234 0xFFFF (accepted [stopOfferMessage 1, offerMessage 2])) :=
  stopsHonoured_iff (some 0x1234) none [stopOfferMessage 1, offerMessage 2] (by decide)

/-- The service is offered and withdrawn, and still returned. -/
theorem stopOffer_ignored :
    buildStopOfferService 0x1234 0x5678 2 = .ok (stopOfferMessage 2) ∧
      SdClient.discover none none [offerMessage 1, stopOfferMessage 2] =
        .ok [⟨0x1234, 0x5678, ⟨192, 168, 7, 1⟩, 30509⟩] ∧
      ¬StopsHonoured 0xFFFF 0xFFFF (accepted [offerMessage 1, stopOfferMessage 2])
        [⟨0x1234, 0x5678, ⟨192, 168, 7, 1⟩, 30509⟩] := by
  have haccepted : accepted [offerMessage 1, stopOfferMessage 2] = [offeredInfo, stoppedInfo] := by
    rw [accepted, List.filterMap_cons, offerMessage_accepted, List.filterMap_cons, stopOfferMessage_accepted]
    rfl
  refine ⟨buildStopOfferService_eq _ _ _, ?_, ?_⟩
  · rw [discover_collects none none (by decide), haccepted]
    decide
  · rw [haccepted]
    intro hhonoured
    obtain ⟨entry, hlast, httl⟩ := hhonoured.last _ List.mem_cons_self
    have hstopped : lastOffer [offeredInfo, stoppedInfo] (0x1234, 0x5678) =
        some (serviceEntry 0x01 (by decide) 0x1234 0x5678 ttlStop 0 0).parsed := by decide
    rw [hstopped] at hlast
    cases hlast
    exact httl rfl

end SdvZone.Mpu
