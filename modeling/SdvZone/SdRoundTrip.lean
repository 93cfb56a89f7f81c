import SdvZone.SdParser

/-! Decoding what the service discovery builders encode. Entries and options come back one by one,
with every field; a message can be built exactly when its length fits the length field. -/

namespace SdvZone.Mpu

open Wire

/-! ### Entries and options with their fields in range -/

/-- What both shapes of entry have. Indexes and counts are masked by the builders. -/
structure EntryFields where
  serviceId : Fin (2 ^ 16)
  instanceId : Fin (2 ^ 16)
  majorVersion : Fin (2 ^ 8)
  ttl : Fin (2 ^ 24)
  index1 : Nat
  index2 : Nat
  nOptsRun1 : Nat
  nOptsRun2 : Nat

inductive SdEntry where
  | service (entryType : Nat) (htype : entryType ≤ 0x02) (fields : EntryFields)
      (minorVersion : Fin (2 ^ 32))
  | eventgroup (entryType : Nat) (htype : 0x04 ≤ entryType ∧ entryType ≤ 0x07) (fields : EntryFields)
      (eventgroupId : Fin (2 ^ 16))

structure SdOption where
  address : DottedQuad
  port : Fin (2 ^ 16)
  l4Proto : Fin (2 ^ 8)

namespace SdEntry

def build : SdEntry → Bytes
  | service entryType _ fields minorVersion =>
      buildServiceEntry entryType fields.serviceId fields.instanceId fields.ttl minorVersion
        fields.majorVersion fields.index1 fields.index2 fields.nOptsRun1 fields.nOptsRun2
  | eventgroup entryType _ fields eventgroupId =>
      buildEventgroupEntry entryType fields.serviceId fields.instanceId eventgroupId fields.ttl
        fields.majorVersion fields.index1 fields.index2 fields.nOptsRun1 fields.nOptsRun2

/-- The dictionary the parser should return. -/
def parsed : SdEntry → ParsedEntry
  | service entryType _ fields minorVersion =>
      { entryType := entryType
        serviceId := fields.serviceId
        instanceId := fields.instanceId
        majorVersion := fields.majorVersion
        ttl := fields.ttl
        minorVersion := some minorVersion
        eventgroupId := none }
  | eventgroup entryType _ fields eventgroupId =>
      { entryType := entryType
        serviceId := fields.serviceId
        instanceId := fields.instanceId
        majorVersion := fields.majorVersion
        ttl := fields.ttl
        minorVersion := none
        eventgroupId := some eventgroupId }

end SdEntry

namespace SdOption

def build (option : SdOption) : Bytes :=
  buildIpv4EndpointOption option.address option.port option.l4Proto

def parsed (option : SdOption) : ParsedOption :=
  { optionType := optIp4Endpoint
    endpoint := some ⟨option.address, option.l4Proto, option.port⟩ }

end SdOption

/-! ### One entry -/

theorem packTtl_length (ttl : Nat) : (packTtl ttl).length = 3 := by simp [packTtl]

/-- The byte dropped from the four is the one the mask has cleared. -/
theorem beNat_packTtl (ttl : Nat) : beNat (packTtl ttl) = ttl % 2 ^ 24 := by
  have hlow : packTtl ttl = beBytes 3 (ttl &&& 0xFFFFFF) := by
    rw [packTtl, beBytes, List.drop_succ_cons, List.drop_zero]
  calc
    beNat (packTtl ttl) = beNat (beBytes 3 (ttl &&& 0xFFFFFF)) := by rw [hlow]
    _ = ttl % 2 ^ 24 := beNat_masked rfl ttl

/-- The first twelve bytes of an entry, the same in both shapes, before its last four. -/
def entryHead (entryType index1 index2 opts serviceId instanceId majorVersion ttl : Nat)
    (last : Bytes) : Bytes :=
  beBytes 1 (entryType &&& 0xFF) ++ (beBytes 1 (index1 &&& 0xFF) ++ (beBytes 1 (index2 &&& 0xFF) ++
    (beBytes 1 (opts &&& 0xFF) ++ (beBytes 2 (serviceId &&& 0xFFFF) ++
      (beBytes 2 (instanceId &&& 0xFFFF) ++ (beBytes 1 (majorVersion &&& 0xFF) ++
        (packTtl ttl ++ last)))))))

theorem buildServiceEntry_eq (entryType serviceId instanceId ttl minorVersion majorVersion index1 index2
    nOptsRun1 nOptsRun2 : Nat) :
    buildServiceEntry entryType serviceId instanceId ttl minorVersion majorVersion index1 index2
        nOptsRun1 nOptsRun2 =
      entryHead entryType index1 index2 (nOpts nOptsRun1 nOptsRun2) serviceId instanceId majorVersion
        ttl (beBytes 4 (minorVersion &&& 0xFFFFFFFF)) := by
  simp only [buildServiceEntry, entryHead, List.append_assoc]

theorem buildEventgroupEntry_eq (entryType serviceId instanceId eventgroupId ttl majorVersion index1
    index2 nOptsRun1 nOptsRun2 : Nat) :
    buildEventgroupEntry entryType serviceId instanceId eventgroupId ttl majorVersion index1 index2
        nOptsRun1 nOptsRun2 =
      entryHead entryType index1 index2 (nOpts nOptsRun1 nOptsRun2) serviceId instanceId majorVersion
        ttl (beBytes 2 0 ++ beBytes 2 (eventgroupId &&& 0xFFFF)) := by
  simp only [buildEventgroupEntry, entryHead, List.append_assoc]

theorem entryHead_length (entryType index1 index2 opts serviceId instanceId majorVersion ttl : Nat)
    {last : Bytes} (h : last.length = 4) :
    (entryHead entryType index1 index2 opts serviceId instanceId majorVersion ttl last).length = 16 := by
  simp [entryHead, packTtl_length, h]

/-- An entry is parsed field by field. -/
theorem entryOf_entryHead {entryType index1 index2 opts serviceId instanceId majorVersion ttl : Nat}
    {last : Bytes} (hlast : last.length = 4) (htype : entryType < 2 ^ 8) (hservice : serviceId < 2 ^ 16)
    (hinstance : instanceId < 2 ^ 16) (hmajor : majorVersion < 2 ^ 8) (httl : ttl < 2 ^ 24) :
    entryOf (entryHead entryType index1 index2 opts serviceId instanceId majorVersion ttl last) =
      { entryType := entryType
        serviceId := serviceId
        instanceId := instanceId
        majorVersion := majorVersion
        ttl := ttl
        minorVersion := if entryType ≤ 0x02 then some (beNat last) else none
        eventgroupId :=
          if 0x04 ≤ entryType ∧ entryType ≤ 0x07 then some (beNat (last.drop 2)) else none } := by
  have htypeField := (@beNat_masked 1 0xFF rfl entryType).trans (Nat.mod_eq_of_lt htype)
  have hserviceField := (@beNat_masked 2 0xFFFF rfl serviceId).trans (Nat.mod_eq_of_lt hservice)
  have hinstanceField := (@beNat_masked 2 0xFFFF rfl instanceId).trans (Nat.mod_eq_of_lt hinstance)
  have hmajorField := (@beNat_masked 1 0xFF rfl majorVersion).trans (Nat.mod_eq_of_lt hmajor)
  have httlField := (beNat_packTtl ttl).trans (Nat.mod_eq_of_lt httl)
  have hlastField : slice last 0 4 = last := by
    rw [slice_zero_take, List.take_of_length_le hlast.le]
  have hgroupField : slice last 2 4 = last.drop 2 := by
    rw [slice, List.take_of_length_le hlast.le]
  simp [entryOf, entryHead, slice_append_right, slice_append_head, packTtl_length, htypeField,
    hserviceField, hinstanceField, hmajorField, httlField, hlastField, hgroupField]

namespace SdEntry

theorem build_length (entry : SdEntry) : entry.build.length = 16 := by
  cases entry with
  | service entryType htype fields minorVersion =>
      rw [build, buildServiceEntry_eq]
      exact entryHead_length _ _ _ _ _ _ _ _ (beBytes_length 4 _)
  | eventgroup entryType htype fields eventgroupId =>
      rw [build, buildEventgroupEntry_eq]
      exact entryHead_length _ _ _ _ _ _ _ _ rfl

theorem entryOf_build (entry : SdEntry) : entryOf entry.build = entry.parsed := by
  cases entry with
  | service entryType htype fields minorVersion =>
      have hminor := (@beNat_masked 4 0xFFFFFFFF rfl minorVersion.val).trans
        (Nat.mod_eq_of_lt minorVersion.isLt)
      have hno : ¬(0x04 ≤ entryType ∧ entryType ≤ 0x07) := by omega
      rw [build, buildServiceEntry_eq, entryOf_entryHead (beBytes_length 4 _) (by omega)
        fields.serviceId.isLt fields.instanceId.isLt fields.majorVersion.isLt fields.ttl.isLt, hminor,
        if_pos htype, if_neg hno]
      rfl
  | eventgroup entryType htype fields eventgroupId =>
      have hgroup := (@beNat_masked 2 0xFFFF rfl eventgroupId.val).trans
        (Nat.mod_eq_of_lt eventgroupId.isLt)
      have hno : ¬entryType ≤ 0x02 := by omega
      rw [build, buildEventgroupEntry_eq, entryOf_entryHead rfl (by omega) fields.serviceId.isLt
        fields.instanceId.isLt fields.majorVersion.isLt fields.ttl.isLt, if_pos htype, if_neg hno,
        List.drop_left' (beBytes_length 2 0), hgroup]
      rfl

end SdEntry

/-! ### One option -/

namespace SdOption

theorem build_length (option : SdOption) : option.build.length = 12 := by
  simp [build, buildIpv4EndpointOption, inetAton]

theorem build_eq (option : SdOption) :
    option.build = [0, 9, 4, 0, option.address.a, option.address.b, option.address.c,
      option.address.d, 0] ++
        (beBytes 1 (option.l4Proto &&& 0xFF) ++ beBytes 2 (option.port &&& 0xFFFF)) := by
  simp only [build, buildIpv4EndpointOption, List.append_assoc]
  rfl

theorem parseOption_build (option : SdOption) :
    parseOption optIp4Endpoint 12 option.build = .ok option.parsed := by
  have haddress : slice option.build 4 8 =
      [option.address.a, option.address.b, option.address.c, option.address.d] := by
    rw [build_eq]
    rfl
  obtain ⟨l4Proto, hl4, hl4Proto⟩ := @getItem_eq option.build 9 (by rw [build_length]; decide)
  have hprotoField : slice option.build 9 10 = beBytes 1 (option.l4Proto &&& 0xFF) := by
    rw [build_eq, slice_append_right _ _ (Nat.le_refl 9)]
    exact slice_append_head _ _ rfl
  have hportField : slice option.build 10 12 = beBytes 2 (option.port &&& 0xFFFF) := by
    rw [build_eq, slice_append_right _ _ (Nat.le_succ 9), slice_append_right _ _ (by simp)]
    exact List.take_of_length_le (by simp)
  have hproto : l4Proto.toNat = option.l4Proto := by
    calc
      l4Proto.toNat = beNat (beBytes 1 (option.l4Proto &&& 0xFF)) := by rw [hl4Proto, hprotoField]
      _ = option.l4Proto % 2 ^ 8 := beNat_masked rfl _
      _ = option.l4Proto := Nat.mod_eq_of_lt option.l4Proto.isLt
  have hport : beNat (slice option.build 10 12) = option.port := by
    calc
      beNat (slice option.build 10 12) = beNat (beBytes 2 (option.port &&& 0xFFFF)) := by
        rw [hportField]
      _ = option.port % 2 ^ 16 := beNat_masked rfl _
      _ = option.port := Nat.mod_eq_of_lt option.port.isLt
  rw [parseOption, if_pos ⟨Or.inl rfl, by decide⟩, haddress, hl4]
  simp only [bind, Except.bind, inetNtoa, pure, Except.pure, hproto, hport]
  rfl

/-- The loop over the options takes one option off the front. -/
theorem parseOptions_build (option : SdOption) (front back : Bytes) :
    parseOptions (front ++ (option.build ++ back)) front.length =
      (parseOptions (front ++ (option.build ++ back)) (front.length + 12)).map (option.parsed :: ·) := by
  have hlength := option.build_length
  have hfield : ∀ {start stop : Nat}, stop ≤ 12 →
      slice (front ++ (option.build ++ back)) (front.length + start) (front.length + stop) =
        slice option.build start stop := by
    intro start stop hstop
    rw [slice_append_right _ _ (Nat.le_add_right _ _), Nat.add_sub_cancel_left, Nat.add_sub_cancel_left,
      slice_append_left _ _ (by omega)]
  have hoptLength : beNat (slice option.build 0 2) = 9 := by
    rw [build_eq, slice_append_left _ _ (by simp)]
    show beNat [0, 9] = 9
    decide
  have hoptType : beNat (slice option.build 2 3) = optIp4Endpoint := by
    rw [build_eq, slice_append_left _ _ (by simp)]
    rfl
  have hwhole : slice option.build 0 12 = option.build := by
    rw [slice_zero_take, List.take_of_length_le hlength.le]
  have hsize : (front ++ (option.build ++ back)).length = front.length + 12 + back.length := by
    rw [List.length_append, List.length_append, hlength]
    omega
  have hfirst := @hfield 0 2 (by decide)
  have hsecond := @hfield 2 3 (by decide)
  have hblock := @hfield 0 12 (by decide)
  rw [Nat.add_zero] at hfirst hblock
  obtain ⟨parsed, hparsed, hrest⟩ :=
    @parseOptions_block (front ++ (option.build ++ back)) front.length (by omega)
      (by rw [hfirst, hoptLength]; omega)
  rw [hfirst, hoptLength] at hparsed hrest
  rw [hsecond, hoptType, hblock, hwhole, parseOption_build] at hparsed
  cases hparsed
  exact hrest

end SdOption

/-- Options come back in order, whatever stands before them. -/
theorem parseOptions_flatMap (options : List SdOption) (front : Bytes) :
    parseOptions (front ++ options.flatMap SdOption.build) front.length =
      .ok (options.map SdOption.parsed) := by
  induction options generalizing front with
  | nil =>
      rw [List.flatMap_nil, List.append_nil, parseOptions, if_neg (Nat.lt_irrefl _)]
      rfl
  | cons option rest ih =>
      have hrest := ih (front ++ option.build)
      rw [List.append_assoc, List.length_append, option.build_length] at hrest
      rw [List.flatMap_cons, option.parseOptions_build, hrest]
      rfl

/-! ### A message -/

/-- The 24 bytes before the entries, as the builder writes them. -/
def sdHead (length sessionId flags entriesLength : Nat) : Bytes :=
  beBytes 2 sdServiceId ++ (beBytes 2 sdMethodId ++ (beBytes 4 length ++ (beBytes 2 sdClientId ++
    (beBytes 2 (sessionId &&& 0xFFFF) ++ (beBytes 1 sdProtocolVersion ++
      (beBytes 1 sdInterfaceVersion ++ (beBytes 1 sdMessageType ++ (beBytes 1 sdReturnCode ++
        (beBytes 1 (flags &&& 0xFF) ++ (beBytes 3 0 ++ beBytes 4 entriesLength))))))))))

theorem sdHead_length (length sessionId flags entriesLength : Nat) :
    (sdHead length sessionId flags entriesLength).length = 24 := by
  simp [sdHead]

def sdMessage (entries options : Bytes) (sessionId flags : Nat) : Bytes :=
  sdHead (20 + entries.length + options.length) sessionId flags entries.length ++
    (entries ++ (beBytes 4 options.length ++ options))

/-- A message whose length fits its field is built. -/
theorem buildSdMessage_ok (entries options : Bytes) (sessionId flags : Nat)
    (h : 20 + entries.length + options.length < 2 ^ 32) :
    buildSdMessage entries options sessionId flags = .ok (sdMessage entries options sessionId flags) := by
  have hsession : sessionId &&& 0xFFFF < 2 ^ 16 := Nat.and_lt_two_pow sessionId (by decide)
  have hfits : SomeipHeader.Fits ⟨sdServiceId, sdMethodId, 20 + entries.length + options.length,
      sdClientId, sessionId &&& 0xFFFF, sdProtocolVersion, sdInterfaceVersion, sdMessageType,
      sdReturnCode⟩ :=
    ⟨(by decide : 0xFFFF < 2 ^ 16), (by decide : 0x8100 < 2 ^ 16), h, (by decide : 0 < 2 ^ 16),
      hsession, (by decide : 1 < 2 ^ 8), (by decide : 1 < 2 ^ 8), (by decide : 2 < 2 ^ 8),
      (by decide : 0 < 2 ^ 8)⟩
  rw [buildSdMessage, structPackHeader]
  simp only [if_pos hfits, structPackU32, if_pos (show entries.length < 2 ^ 32 by omega),
    if_pos (show options.length < 2 ^ 32 by omega), bind, Except.bind, pure, Except.pure]
  simp only [SomeipHeader.bytes, sdMessage, sdHead, List.append_assoc]
  rfl

/-- A longer one is not. -/
theorem buildSdMessage_error (entries options : Bytes) (sessionId flags : Nat)
    (h : ¬20 + entries.length + options.length < 2 ^ 32) :
    buildSdMessage entries options sessionId flags = .error .structError := by
  rw [buildSdMessage, structPackHeader, if_neg]
  · rfl
  · intro hfits
    exact h hfits.2.2.1

section Message

variable {entries options : Bytes} {sessionId flags : Nat}

theorem slice_sdHead {start stop : Nat} (h : stop ≤ 24) :
    slice (sdMessage entries options sessionId flags) start stop =
      slice (sdHead (20 + entries.length + options.length) sessionId flags entries.length) start stop := by
  rw [sdMessage, slice_append_left _ _ (by rw [sdHead_length]; exact h)]

theorem entriesLen_sdMessage (h : entries.length < 2 ^ 32) :
    entriesLen (sdMessage entries options sessionId flags) = entries.length := by
  have hfield : slice (sdHead (20 + entries.length + options.length) sessionId flags entries.length)
      20 24 = beBytes 4 entries.length := by
    simp [sdHead, slice_append_right, slice_zero_take, List.take_of_length_le]
  rw [entriesLen, slice_sdHead (Nat.le_refl 24), hfield, beNat_beBytes_of_lt h]

theorem entryBytes_sdMessage (h : entries.length < 2 ^ 32) :
    entryBytes (sdMessage entries options sessionId flags) = entries := by
  rw [entryBytes, entriesLen_sdMessage h, sdMessage,
    slice_append_right _ _ (by rw [sdHead_length]), sdHead_length, Nat.sub_self,
    Nat.add_sub_cancel_left, slice_append_head _ _ rfl]

/-- Behind the head and the entries. -/
theorem slice_sdMessage_tail {start stop : Nat} (h : 24 + entries.length ≤ start) :
    slice (sdMessage entries options sessionId flags) start stop =
      slice (beBytes 4 options.length ++ options) (start - 24 - entries.length)
        (stop - 24 - entries.length) := by
  rw [sdMessage, slice_append_right _ _ (by rw [sdHead_length]; omega), sdHead_length,
    slice_append_right _ _ (by omega)]

theorem optionsLen_sdMessage (hentries : entries.length < 2 ^ 32) (h : options.length < 2 ^ 32) :
    optionsLen (sdMessage entries options sessionId flags) = options.length := by
  have hstart : 24 + entries.length - 24 - entries.length = 0 := by omega
  have hstop : 24 + entries.length + 4 - 24 - entries.length = 4 := by omega
  rw [optionsLen, entriesLen_sdMessage hentries, slice_sdMessage_tail (Nat.le_refl _), hstart, hstop,
    slice_append_head _ _ (beBytes_length 4 _), beNat_beBytes_of_lt h]

theorem optionBytes_sdMessage (hentries : entries.length < 2 ^ 32) (h : options.length < 2 ^ 32) :
    optionBytes (sdMessage entries options sessionId flags) = options := by
  have hstart : 24 + entries.length + 4 - 24 - entries.length = 4 := by omega
  have hstop : 24 + entries.length + 4 + options.length - 24 - entries.length = 4 + options.length := by
    omega
  rw [optionBytes, optionsLen_sdMessage hentries h, entriesLen_sdMessage hentries,
    slice_sdMessage_tail (Nat.le_add_right _ _), hstart, hstop,
    slice_append_right _ _ (by rw [beBytes_length]), beBytes_length, Nat.sub_self,
    Nat.add_sub_cancel_left, slice_zero_take, List.take_length]

theorem framed_sdMessage (h : 20 + entries.length + options.length < 2 ^ 32)
    (haligned : entries.length % 16 = 0) : Framed (sdMessage entries options sessionId flags) where
  header := by
    rw [SdHeader, slice_sdHead (by decide), slice_sdHead (by decide), slice_sdHead (by decide)]
    simp [sdHead, slice_append_right, slice_append_head, beNat_beBytes, sdServiceId, sdMethodId,
      sdMessageType]
  aligned := by rwa [entriesLen_sdMessage (by omega)]
  fits := by
    rw [optionsLen_sdMessage (by omega) (by omega), entriesLen_sdMessage (by omega), sdMessage,
      List.length_append, List.length_append, List.length_append, sdHead_length, beBytes_length]
    omega

theorem sessionId_sdMessage :
    beNat (slice (sdMessage entries options sessionId flags) 10 12) = sessionId % 2 ^ 16 := by
  rw [slice_sdHead (by decide), ← @beNat_masked 2 0xFFFF rfl]
  simp [sdHead, slice_append_right, slice_append_head]

theorem flags_sdMessage :
    beNat (slice (sdMessage entries options sessionId flags) 16 17) = flags % 2 ^ 8 := by
  rw [slice_sdHead (by decide), ← @beNat_masked 1 0xFF rfl]
  simp [sdHead, slice_append_right, slice_append_head]

end Message

/-- The parser on a message of entries and options. -/
theorem parseSd_sdMessage (entries : List SdEntry) (options : List SdOption) (sessionId flags : Nat)
    (h : 20 + 16 * entries.length + 12 * options.length < 2 ^ 32) :
    parseSd (sdMessage (entries.flatMap SdEntry.build) (options.flatMap SdOption.build) sessionId
        flags) =
      .ok {
        sessionId := sessionId % 2 ^ 16
        flags := flags % 2 ^ 8
        entries := entries.map SdEntry.parsed
        options := options.map SdOption.parsed } := by
  have hentries := length_flatMap_size SdEntry.build_length entries
  have hoptions := length_flatMap_size SdOption.build_length options
  have hchunks : entriesOf (sdMessage (entries.flatMap SdEntry.build) (options.flatMap SdOption.build)
      sessionId flags) = entries.map SdEntry.parsed := by
    rw [entriesOf, entriesLen_sdMessage (by omega), entryBytes_sdMessage (by omega), hentries,
      Nat.mul_div_cancel_left _ (by decide)]
    apply List.ext_getElem
    · simp
    · intro i hi _
      have hbound : i < entries.length := by simpa using hi
      rw [List.getElem_map, List.getElem_map, List.getElem_range, entryChunk,
        slice_flatMap SdEntry.build_length entries hbound, SdEntry.entryOf_build]
  rw [parseSd_framed (framed_sdMessage (by omega) (by omega)), sessionId_sdMessage, flags_sdMessage,
    hchunks, optionBytes_sdMessage (by omega) (by omega)]
  have hloop := parseOptions_flatMap options []
  rw [List.nil_append, List.length_nil] at hloop
  rw [hloop]
  rfl

/-- Encoding and decoding give everything back exactly when the message fits its length field, and one
that does not is not built. -/
theorem sd_round_trip_iff (entries : List SdEntry) (options : List SdOption) (sessionId : Fin (2 ^ 16))
    (flags : Fin (2 ^ 8)) :
    ((buildSdMessage (entries.flatMap SdEntry.build) (options.flatMap SdOption.build) sessionId
          flags).bind parseSd =
        .ok {
          sessionId := sessionId
          flags := flags
          entries := entries.map SdEntry.parsed
          options := options.map SdOption.parsed } ↔
        20 + 16 * entries.length + 12 * options.length < 2 ^ 32) ∧
      (buildSdMessage (entries.flatMap SdEntry.build) (options.flatMap SdOption.build) sessionId flags =
          .error .structError ↔
        2 ^ 32 ≤ 20 + 16 * entries.length + 12 * options.length) := by
  have hentries := length_flatMap_size SdEntry.build_length entries
  have hoptions := length_flatMap_size SdOption.build_length options
  by_cases h : 20 + 16 * entries.length + 12 * options.length < 2 ^ 32
  · rw [buildSdMessage_ok _ _ _ _ (by omega)]
    refine ⟨iff_of_true ?_ h, iff_of_false ?_ (Nat.not_le.mpr h)⟩
    · rw [Except.bind, parseSd_sdMessage entries options sessionId flags h, Nat.mod_eq_of_lt sessionId.isLt,
        Nat.mod_eq_of_lt flags.isLt]
    · intro herror
      cases herror
  · rw [buildSdMessage_error _ _ _ _ (by omega)]
    refine ⟨iff_of_false ?_ h, iff_of_true rfl (Nat.not_lt.mp h)⟩
    intro hok
    cases hok

def findAnyEntry : SdEntry :=
  .service 0x00 (by decide)
    { serviceId := ⟨0xFFFF, by decide⟩
      instanceId := ⟨0xFFFF, by decide⟩
      majorVersion := ⟨1, by decide⟩
      ttl := ⟨0xFFFFFF, by decide⟩
      index1 := 0
      index2 := 0
      nOptsRun1 := 0
      nOptsRun2 := 0 } ⟨0, by decide⟩

/-- With `2^28` entries the length overflows its field, and no message is built. -/
theorem sd_message_too_long :
    buildSdMessage ((List.replicate (2 ^ 28) findAnyEntry).flatMap SdEntry.build) [] 1 0x40 =
      .error .structError := by
  apply buildSdMessage_error
  rw [length_flatMap_size SdEntry.build_length, List.length_replicate]
  decide

end SdvZone.Mpu
