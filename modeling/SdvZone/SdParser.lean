import SdvZone.MpuServiceDiscovery

/-! What `parse_sd` accepts and what it raises. Behind the length checks every index and slice is in
range, so all errors are `ValueError`, with one exception: the flags are read from a packet that may
consist of nothing but the 16-byte header. -/

namespace SdvZone.Mpu

open Wire

theorem getItem_eq {bytes : Bytes} {index : Nat} (h : index < bytes.length) :
    ∃ byte, getItem bytes index = .ok byte ∧
      byte.toNat = beNat (slice bytes index (index + 1)) := by
  refine ⟨bytes[index], ?_, ?_⟩
  · rw [getItem, List.getElem?_eq_getElem h]
  · have hslice : slice bytes index (index + 1) = [bytes[index]] := by
      rw [slice, List.drop_take, Nat.add_sub_cancel_left, List.drop_eq_getElem_cons h]
      rfl
    rw [hslice]
    simp [beNat]

/-! ### Entries -/

/-- The entry a 16-byte chunk spells. -/
def entryOf (chunk : Bytes) : ParsedEntry :=
  let entryType := beNat (slice chunk 0 1)
  { entryType := entryType
    serviceId := beNat (slice chunk 4 6)
    instanceId := beNat (slice chunk 6 8)
    majorVersion := beNat (slice chunk 8 9)
    ttl := beNat (slice chunk 9 12)
    minorVersion := if entryType ≤ 0x02 then some (beNat (slice chunk 12 16)) else none
    eventgroupId :=
      if 0x04 ≤ entryType ∧ entryType ≤ 0x07 then some (beNat (slice chunk 14 16)) else none }

theorem parseEntry_eq {chunk : Bytes} (h : chunk.length = 16) :
    parseEntry chunk = .ok (entryOf chunk) := by
  obtain ⟨entryType, htype, hentryType⟩ := @getItem_eq chunk 0 (by omega)
  obtain ⟨majorVersion, hmajor, hmajorVersion⟩ := @getItem_eq chunk 8 (by omega)
  rw [parseEntry, htype, hmajor]
  simp only [bind, Except.bind, pure, Except.pure, hentryType, hmajorVersion, entryOf, Nat.zero_add]

/-- A loop whose every pass succeeds collects the results. -/
theorem mapM_ok {α β ε : Type} {f : α → Except ε β} {g : α → β} {items : List α}
    (h : ∀ item ∈ items, f item = .ok (g item)) : items.mapM f = .ok (items.map g) := by
  induction items with
  | nil => rfl
  | cons item rest ih =>
      rw [List.mapM_cons, h item List.mem_cons_self,
        ih fun other hother => h other (List.mem_cons_of_mem item hother)]
      rfl

/-- A loop that succeeds has succeeded in its first pass and in the others. -/
theorem mapM_cons_ok {α β ε : Type} {f : α → Except ε β} {item : α} {rest : List α}
    {results : List β} (h : (item :: rest).mapM f = .ok results) :
    ∃ result later, f item = .ok result ∧ rest.mapM f = .ok later ∧ results = result :: later := by
  rw [List.mapM_cons] at h
  cases hitem : f item with
  | error error =>
      rw [hitem] at h
      cases h
  | ok result =>
      cases hrest : rest.mapM f with
      | error error =>
          rw [hitem, hrest] at h
          cases h
      | ok later =>
          rw [hitem, hrest] at h
          cases h
          exact ⟨result, later, rfl, rfl, rfl⟩

/-- Where an entry starts and ends. -/
def entryChunk (entries : Bytes) (i : Nat) : Bytes := slice entries (16 * i) (16 * i + 16)

theorem parseEntries_eq {entries : Bytes} {count : Nat} (h : entries.length = 16 * count) :
    ((List.range ((entries.length + 15) / 16)).mapM fun i =>
        parseEntry (slice entries (16 * i) (16 * i + 16))) =
      .ok ((List.range count).map fun i => entryOf (entryChunk entries i)) := by
  have hcount : (entries.length + 15) / 16 = count := by omega
  rw [hcount]
  apply mapM_ok
  intro i hi
  have hbound := List.mem_range.mp hi
  apply parseEntry_eq
  rw [slice_length]
  omega

/-! ### Options -/

theorem parseOption_ok (optType : Nat) {block : Nat} {optBytes : Bytes}
    (h : optBytes.length = block) : ∃ option, parseOption optType block optBytes = .ok option := by
  unfold parseOption
  split
  case isFalse => exact ⟨_, rfl⟩
  case isTrue hendpoint =>
    have haddress : (slice optBytes 4 8).length = 4 := by
      rw [slice_length]
      omega
    obtain ⟨a, b, c, d, hquad⟩ : ∃ a b c d, slice optBytes 4 8 = [a, b, c, d] := by
      match hslice : slice optBytes 4 8, haddress with
      | [a, b, c, d], _ => exact ⟨a, b, c, d, rfl⟩
    obtain ⟨l4Proto, hl4, _⟩ := @getItem_eq optBytes 9 (by omega)
    rw [hquad, inetNtoa, hl4]
    exact ⟨_, rfl⟩

/-- One option whose header and block fit, and the rest of the loop. -/
theorem parseOptions_block {options : Bytes} {pos : Nat} (hheader : pos + 4 ≤ options.length)
    (hblock : pos + (beNat (slice options pos (pos + 2)) + 3) ≤ options.length) :
    ∃ option, parseOption (beNat (slice options (pos + 2) (pos + 3)))
        (beNat (slice options pos (pos + 2)) + 3)
        (slice options pos (pos + (beNat (slice options pos (pos + 2)) + 3))) = .ok option ∧
      parseOptions options pos =
        (parseOptions options (pos + (beNat (slice options pos (pos + 2)) + 3))).map (option :: ·) := by
  obtain ⟨optType, htype, hoptType⟩ := @getItem_eq options (pos + 2) (by omega)
  obtain ⟨option, hoption⟩ := @parseOption_ok optType.toNat
    (beNat (slice options pos (pos + 2)) + 3)
    (slice options pos (pos + (beNat (slice options pos (pos + 2)) + 3)))
    (by rw [slice_length]; omega)
  refine ⟨option, ?_, ?_⟩
  · rw [← hoptType]
    exact hoption
  · rw [parseOptions, if_pos (by omega), if_neg (by omega), htype]
    simp only [bind, Except.bind]
    rw [if_neg (by omega), hoption]
    rfl

/-- The loop over the options raises nothing but `ValueError`. -/
theorem parseOptions_error (options : Bytes) (pos : Nat) {error : PyError}
    (h : parseOptions options pos = .error error) : ∃ message, error = .valueError message := by
  induction pos using parseOptions.induct options with
  | case1 pos hmore hheader =>
      rw [parseOptions, if_pos hmore, if_pos hheader] at h
      cases h
      exact ⟨_, rfl⟩
  | case2 pos hmore hheader optLength ih =>
      by_cases hblock : options.length < pos + (optLength + 3)
      · obtain ⟨optType, htype, _⟩ := @getItem_eq options (pos + 2) (by omega)
        rw [parseOptions, if_pos hmore, if_neg hheader, htype] at h
        simp only [bind, Except.bind] at h
        rw [if_pos hblock] at h
        cases h
        exact ⟨_, rfl⟩
      · obtain ⟨option, _, hrest⟩ := @parseOptions_block options pos (by omega) (by omega)
        rw [hrest] at h
        cases htail : parseOptions options (pos + (optLength + 3)) with
        | ok rest =>
            rw [htail] at h
            cases h
        | error other =>
            rw [htail] at h
            cases h
            exact ih hblock htail
  | case3 pos hdone =>
      rw [parseOptions, if_neg hdone] at h
      cases h

/-! ### Packets -/

/-- The service, method and message type of service discovery. -/
def SdHeader (packet : Bytes) : Prop :=
  beNat (slice packet 0 2) = sdServiceId ∧ beNat (slice packet 2 4) = sdMethodId ∧
    beNat (slice packet 14 15) = sdMessageType

/-- The one kind of packet on which the parser reads past the end. -/
def BareHeader (packet : Bytes) : Prop := packet.length = 16 ∧ SdHeader packet

instance (packet : Bytes) : Decidable (SdHeader packet) := by unfold SdHeader; infer_instance

instance (packet : Bytes) : Decidable (BareHeader packet) := by unfold BareHeader; infer_instance

def entriesLen (packet : Bytes) : Nat := beNat (slice packet 20 24)

def entryBytes (packet : Bytes) : Bytes := slice packet 24 (24 + entriesLen packet)

def optionsLen (packet : Bytes) : Nat :=
  beNat (slice packet (24 + entriesLen packet) (24 + entriesLen packet + 4))

def optionBytes (packet : Bytes) : Bytes :=
  slice packet (24 + entriesLen packet + 4) (24 + entriesLen packet + 4 + optionsLen packet)

/-- The header is that of service discovery and the length fields agree with the packet. -/
structure Framed (packet : Bytes) : Prop where
  header : SdHeader packet
  aligned : entriesLen packet % 16 = 0
  fits : 24 + entriesLen packet + 4 + optionsLen packet ≤ packet.length

/-- The entries a framed packet spells. -/
def entriesOf (packet : Bytes) : List ParsedEntry :=
  (List.range (entriesLen packet / 16)).map fun i => entryOf (entryChunk (entryBytes packet) i)

/-- In a framed packet only the loop over the options can fail. -/
theorem parseSd_framed {packet : Bytes} (h : Framed packet) :
    parseSd packet = (parseOptions (optionBytes packet) 0).map fun options =>
      { sessionId := beNat (slice packet 10 12)
        flags := beNat (slice packet 16 17)
        entries := entriesOf packet
        options := options } := by
  obtain ⟨⟨hservice, hmethod, htype⟩, haligned, hfits⟩ := h
  obtain ⟨flags, hflags, hflag⟩ := @getItem_eq packet 16 (by omega)
  have hentries := @parseEntries_eq (entryBytes packet) (entriesLen packet / 16)
    (by rw [entryBytes, slice_length]; omega)
  have hlength : (entryBytes packet).length = entriesLen packet := by
    rw [entryBytes, slice_length]
    omega
  rw [hlength] at hentries
  rw [parseSd, if_neg (by omega), structUnpackHeader, if_pos (by rw [slice_length]; omega)]
  simp only [bind, Except.bind, slice_zero_take packet 16]
  rw [slice_take packet (show 2 ≤ 16 by omega), slice_take packet (show 4 ≤ 16 by omega),
    slice_take packet (show 12 ≤ 16 by omega), slice_take packet (show 15 ≤ 16 by omega),
    if_neg (by simp [hservice, hmethod]), if_neg (by simp [htype]), hflags]
  dsimp only
  rw [if_neg (by unfold entriesLen at hfits; omega), if_neg (by unfold entriesLen at haligned; omega),
    if_neg (by unfold optionsLen entriesLen at hfits; omega)]
  unfold entryBytes entriesLen at hentries
  rw [hentries, hflag]
  unfold optionBytes optionsLen entriesLen
  cases parseOptions _ 0 <;> rfl

/-- Every other packet but the bare header is a `ValueError`. -/
theorem parseSd_unframed {packet : Bytes} (hbare : ¬BareHeader packet) (h : ¬Framed packet) :
    ∃ message, parseSd packet = .error (.valueError message) := by
  rw [parseSd]
  by_cases hshort : packet.length < 16
  · rw [if_pos hshort]
    exact ⟨_, rfl⟩
  rw [if_neg hshort, structUnpackHeader, if_pos (by rw [slice_length]; omega)]
  simp only [bind, Except.bind, slice_zero_take packet 16]
  rw [slice_take packet (show 2 ≤ 16 by omega), slice_take packet (show 4 ≤ 16 by omega),
    slice_take packet (show 15 ≤ 16 by omega)]
  by_cases hids : beNat (slice packet 0 2) ≠ sdServiceId ∨ beNat (slice packet 2 4) ≠ sdMethodId
  · rw [if_pos hids]
    exact ⟨_, rfl⟩
  rw [if_neg hids]
  by_cases htype : beNat (slice packet 14 15) ≠ sdMessageType
  · rw [if_pos htype]
    exact ⟨_, rfl⟩
  rw [if_neg htype]
  have hheader : SdHeader packet := by
    unfold SdHeader
    omega
  -- the header is right, so the packet is longer than it and a length field is wrong
  have hlong : packet.length ≠ 16 := fun hlength => hbare ⟨hlength, hheader⟩
  obtain ⟨flags, hflags, _⟩ := @getItem_eq packet 16 (by omega)
  rw [hflags]
  dsimp only
  by_cases hentries : packet.length < 24 + beNat (slice packet 20 24) + 4
  · rw [if_pos hentries]
    exact ⟨_, rfl⟩
  rw [if_neg hentries]
  by_cases haligned : beNat (slice packet 20 24) % 16 ≠ 0
  · rw [if_pos haligned]
    exact ⟨_, rfl⟩
  rw [if_neg haligned]
  by_cases hoptions : packet.length < 24 + beNat (slice packet 20 24) + 4 +
      beNat (slice packet (24 + beNat (slice packet 20 24)) (24 + beNat (slice packet 20 24) + 4))
  · rw [if_pos hoptions]
    exact ⟨_, rfl⟩
  · refine absurd ⟨hheader, not_not.mp haligned, ?_⟩ h
    unfold optionsLen entriesLen
    exact Nat.le_of_not_lt hoptions

/-- The flags of a bare header are not there. -/
theorem parseSd_bareHeader {packet : Bytes} (h : BareHeader packet) :
    parseSd packet = .error .indexError := by
  obtain ⟨hlength, hservice, hmethod, htype⟩ := h
  have hflags : getItem packet 16 = .error .indexError := by
    rw [getItem, List.getElem?_eq_none (by omega)]
  rw [parseSd, if_neg (by omega), structUnpackHeader, if_pos (by rw [slice_length]; omega)]
  simp only [bind, Except.bind, slice_zero_take packet 16]
  rw [slice_take packet (show 2 ≤ 16 by omega), slice_take packet (show 4 ≤ 16 by omega),
    slice_take packet (show 15 ≤ 16 by omega), if_neg (by simp [hservice, hmethod]),
    if_neg (by simp [htype]), hflags]

/-- The parser raises nothing but `ValueError`, the bare header apart. -/
theorem parseSd_error {packet : Bytes} (hbare : ¬BareHeader packet) {error : PyError}
    (h : parseSd packet = .error error) : ∃ message, error = .valueError message := by
  by_cases hframed : Framed packet
  · rw [parseSd_framed hframed] at h
    cases hoptions : parseOptions (optionBytes packet) 0 with
    | ok options =>
        rw [hoptions] at h
        cases h
    | error other =>
        rw [hoptions] at h
        cases h
        exact parseOptions_error _ _ hoptions
  · obtain ⟨message, hmessage⟩ := parseSd_unframed hbare hframed
    rw [hmessage] at h
    cases h
    exact ⟨message, rfl⟩

/-- An accepted packet is framed, and its options are what the loop over them returns. -/
theorem parseSd_ok {packet : Bytes} {info : SdInfo} (h : parseSd packet = .ok info) :
    Framed packet ∧ parseOptions (optionBytes packet) 0 = .ok info.options ∧
      info.sessionId = beNat (slice packet 10 12) ∧ info.flags = beNat (slice packet 16 17) ∧
      info.entries = entriesOf packet := by
  have hbare : ¬BareHeader packet := by
    intro hbare
    rw [parseSd_bareHeader hbare] at h
    cases h
  have hframed : Framed packet := by
    by_contra hframed
    obtain ⟨message, hmessage⟩ := parseSd_unframed hbare hframed
    rw [hmessage] at h
    cases h
  refine ⟨hframed, ?_⟩
  rw [parseSd_framed hframed] at h
  cases hoptions : parseOptions (optionBytes packet) 0 with
  | ok options =>
      rw [hoptions] at h
      cases h
      exact ⟨rfl, rfl, rfl, rfl⟩
  | error error =>
      rw [hoptions] at h
      cases h

/-- Bytes behind an accepted packet are ignored. -/
theorem parseSd_take {packet : Bytes} {n : Nat} {info : SdInfo}
    (h : parseSd (packet.take n) = .ok info) : parseSd packet = .ok info := by
  obtain ⟨hframed, hoptions, hsession, hflags, hentries⟩ := parseSd_ok h
  have hlen := hframed.fits
  rw [List.length_take] at hlen
  have hbig : 28 ≤ n := by omega
  have hentriesLen : entriesLen (packet.take n) = entriesLen packet := by
    rw [entriesLen, slice_take packet (by omega), entriesLen]
  rw [hentriesLen] at hlen
  have hoptionsLen : optionsLen (packet.take n) = optionsLen packet := by
    rw [optionsLen, hentriesLen, slice_take packet (by omega), optionsLen]
  rw [hoptionsLen] at hlen
  have hentryBytes : entryBytes (packet.take n) = entryBytes packet := by
    rw [entryBytes, hentriesLen, slice_take packet (by omega), entryBytes]
  have hoptionBytes : optionBytes (packet.take n) = optionBytes packet := by
    rw [optionBytes, hentriesLen, hoptionsLen, slice_take packet (by omega), optionBytes]
  have hwhole : Framed packet := by
    refine ⟨?_, ?_, by omega⟩
    · have hheader := hframed.header
      rwa [SdHeader, slice_take packet (show 2 ≤ n by omega), slice_take packet (show 4 ≤ n by omega),
        slice_take packet (show 15 ≤ n by omega)] at hheader
    · rw [← hentriesLen]
      exact hframed.aligned
  rw [hoptionBytes] at hoptions
  rw [slice_take packet (by omega)] at hsession hflags
  rw [parseSd_framed hwhole, hoptions, ← hsession, ← hflags]
  rw [entriesOf, hentriesLen, hentryBytes, ← entriesOf] at hentries
  rw [← hentries]
  rfl

end SdvZone.Mpu
