import SdvZone.SdBothParsers
import SdvZone.SdSenders
import SdvZone.UdpReceiver

/-! What an offer in one datagram makes the MCU do. The handler subscribes once for each offer of its
service, if `sd_parse` has found a UDP endpoint; but `sd_parse` is given the first 64 bytes, and
refuses what does not fit them. -/

namespace SdvZone.Udp

open Wire Sd
open Mpu (entriesLen optionsLen optionBytes entryBytes entryChunk entriesOf)

section Handler

variable (memory : Vector UInt8 64) (sendto : Mcu.Outgoing → Int)

/-! ### Subscriptions -/

/-- The state after some calls of `someip_sd_send_subscribe`. -/
def subscribed (n : Nat) (udp : Mcu.SomeipUdp) : Mcu.SomeipUdp :=
  (fun udp => (udp.someipSdSendSubscribe memory sendto).2)^[n] udp

theorem subscribed_sent (n : Nat) (udp : Mcu.SomeipUdp) :
    (subscribed memory sendto n udp).sent.length = udp.sent.length + n := by
  induction n generalizing udp with
  | zero => rfl
  | succ n ih =>
      rw [subscribed, Function.iterate_succ_apply, ← subscribed, ih, someipSdSendSubscribe_eq,
        List.length_append, List.length_singleton]
      omega

/-- An offer of the service the MCU looks for. -/
def Offered (e : Mcu.SdEntry) : Prop :=
  e.type = Mcu.sdEntryOfferService ∧ e.ttl ≠ 0 ∧ e.serviceId.toNat = Mcu.serviceId ∧
    e.instanceId.toNat = Mcu.instanceId

instance : DecidablePred Offered := fun e => by unfold Offered; infer_instance

theorem sdHandleEntry_eq (parsed : Mcu.SdParsed) (udp : Mcu.SomeipUdp) (e : Mcu.SdEntry) :
    Mcu.SomeipUdp.sdHandleEntry memory sendto parsed udp e =
      if Offered e ∧ (Mcu.SomeipUdp.udpEndpoint parsed).isSome then
        subscribed memory sendto 1 udp
      else udp := by
  unfold Mcu.SomeipUdp.sdHandleEntry Offered
  by_cases htype : e.type = Mcu.sdEntryOfferService
  · by_cases httl : e.ttl = 0
    · rw [if_pos htype, if_pos httl, if_neg fun h => h.1.2.1 httl]
    · by_cases hids : e.serviceId.toNat = Mcu.serviceId ∧ e.instanceId.toNat = Mcu.instanceId
      · rw [if_pos htype, if_neg httl, if_neg (by rw [← not_and_or, not_not]; exact hids)]
        cases hendpoint : Mcu.SomeipUdp.udpEndpoint parsed with
        | none => rw [if_neg (by simp)]
        | some o =>
            rw [if_pos ⟨⟨htype, httl, hids⟩, rfl⟩]
            rfl
      · rw [if_pos htype, if_neg httl, if_pos (not_and_or.mp hids), if_neg fun h => hids h.1.2.2]
  · rw [if_neg htype, if_neg fun h => htype h.1.1]

/-- One subscription for each offer. -/
theorem foldl_sdHandleEntry (parsed : Mcu.SdParsed)
    (h : (Mcu.SomeipUdp.udpEndpoint parsed).isSome) (entries : List Mcu.SdEntry)
    (udp : Mcu.SomeipUdp) :
    entries.foldl (Mcu.SomeipUdp.sdHandleEntry memory sendto parsed) udp =
      subscribed memory sendto (entries.countP fun e => decide (Offered e)) udp := by
  induction entries generalizing udp with
  | nil => rfl
  | cons e rest ih =>
      rw [List.foldl_cons, ih, sdHandleEntry_eq, List.countP_cons]
      by_cases hoffered : Offered e
      · rw [if_pos ⟨hoffered, h⟩, decide_eq_true hoffered, if_pos rfl, subscribed, subscribed,
          subscribed, Function.iterate_add_apply]
      · rw [if_neg fun hsend => hoffered hsend.1, decide_eq_false hoffered]
        rfl

end Handler

/-! ### The first 64 bytes -/

section Truncation

variable (memory : Vector UInt8 64) {packet : Bytes}

theorem entriesLen_received (h : 24 ≤ packet.length) :
    entriesLen (received memory packet) = entriesLen packet := by
  rw [entriesLen, slice_received memory (by omega), entriesLen]

theorem optionsLen_received (h : 28 + entriesLen packet ≤ min packet.length 64) :
    optionsLen (received memory packet) = optionsLen packet := by
  rw [optionsLen, entriesLen_received memory (by omega), slice_received memory (by omega), optionsLen]

/-- `sd_parse` accepts what has been received of a packet if that is all of it. -/
theorem delimited_received_iff (hframed : Mpu.Framed packet) (hcapacity : entriesLen packet / 16 ≤ 4) :
    Delimited (received memory packet) (min packet.length 64) ↔
      28 + entriesLen packet + optionsLen packet ≤ 64 := by
  have hfits := hframed.fits
  have hentries := @entriesLen_received memory packet (by omega)
  constructor
  · intro hdelimited
    have hreceived := hdelimited.fits
    rw [hentries] at hreceived
    rw [optionsLen_received memory (by omega)] at hreceived
    omega
  · intro hsmall
    have hoptions := @optionsLen_received memory packet (by omega)
    obtain ⟨hservice, hmethod, -⟩ := hframed.header
    refine ⟨?_, ?_, ?_, ?_, ?_⟩
    · rwa [slice_received memory (by omega)]
    · rwa [slice_received memory (by omega)]
    · rw [hentries]
      exact hframed.aligned
    · rwa [hentries]
    · rw [hentries, hoptions]
      omega

theorem entriesOf_received (h : 24 + entriesLen packet ≤ min packet.length 64) :
    entriesOf (received memory packet) = entriesOf packet := by
  have hbytes : entryBytes (received memory packet) = entryBytes packet := by
    rw [entryBytes, entriesLen_received memory (by omega), slice_received memory h, entryBytes]
  rw [entriesOf, hbytes, entriesLen_received memory (by omega), entriesOf]

/-- What `sd_parse` finds in a packet that fits is what `parse_sd` finds. -/
theorem sdParse_received {info : Mpu.SdInfo} (hinfo : Mpu.parseSd packet = .ok info)
    (hcapacity : entriesLen packet / 16 ≤ 4)
    (hsmall : 28 + entriesLen packet + optionsLen packet ≤ 64) :
    ∃ parsed, Mcu.sdParse (received memory packet) (min packet.length 64) = (0, parsed) ∧
      SameContent parsed info := by
  obtain ⟨hframed, hoptions, hsession, hflags, hentries⟩ := Mpu.parseSd_ok hinfo
  obtain ⟨blocks, hblocks, hparsed⟩ := (parseOptions_iff _ _ _).mp hoptions
  have hfits := hframed.fits
  have hbytes : optionBytes (received memory packet) = optionBytes packet := by
    rw [optionBytes, entriesLen_received memory (by omega), optionsLen_received memory (by omega),
      slice_received memory (by omega), optionBytes]
  have hlen : min packet.length 64 ≤ (received memory packet).length := by
    rw [received, List.length_append, List.length_take]
    omega
  obtain ⟨parsed, hparse, hsame⟩ := sdParse_content hlen
    ((delimited_received_iff memory hframed hcapacity).mpr hsmall)
    (show OptionBlocks (optionBytes (received memory packet)) blocks from hbytes ▸ hblocks)
  refine ⟨parsed, hparse, ?_⟩
  rw [slice_received memory (by omega), slice_received memory (by omega),
    entriesOf_received memory (by omega), ← hsession, ← hflags, ← hentries, ← hparsed] at hsame
  exact hsame

end Truncation

/-! ### Offers -/

/-- An offer of the service with a UDP endpoint, within the capacity of `sd_parse`. -/
structure OfferInfo (info : Mpu.SdInfo) : Prop where
  entries : info.entries.length ≤ Mcu.sdMaxEntries
  options : info.options.length ≤ Mcu.sdMaxOptions
  offer : ∃ entry ∈ info.entries, entry.entryType = Mpu.entryOfferService ∧ entry.ttl ≠ 0 ∧
    entry.serviceId = Mcu.serviceId ∧ entry.instanceId = Mcu.instanceId
  endpoint : ∃ i endpoint, ip4EndpointAt info i = some endpoint ∧ endpoint.l4Proto = Mpu.l4Udp

theorem forall₂_mem_right {α β : Type} {rel : α → β → Prop} {first : List α} {second : List β}
    (h : List.Forall₂ rel first second) {b : β} (hb : b ∈ second) : ∃ a ∈ first, rel a b := by
  induction h with
  | nil => cases hb
  | cons hrel _ ih =>
      rcases List.mem_cons.mp hb with rfl | hb
      · exact ⟨_, List.mem_cons_self, hrel⟩
      · obtain ⟨a, ha, hab⟩ := ih hb
        exact ⟨a, List.mem_cons_of_mem _ ha, hab⟩

theorem offered_of_sameContent {parsed : Mcu.SdParsed} {info : Mpu.SdInfo}
    (h : SameContent parsed info) (hinfo : OfferInfo info) :
    0 < (parsed.entries.toList.take parsed.entryCount.toNat).countP fun e => decide (Offered e) := by
  obtain ⟨entry, hentry, htype, httl, hservice, hinstance⟩ := hinfo.offer
  obtain ⟨e, he, hsame⟩ := forall₂_mem_right h.entries hentry
  refine List.countP_pos_iff.mpr ⟨e, he, decide_eq_true ⟨?_, ?_, ?_, ?_⟩⟩
  · rw [← UInt8.toNat_inj, hsame.type, htype]
    rfl
  · intro hzero
    rw [← hsame.ttl, hzero] at httl
    exact httl rfl
  · rw [hsame.serviceId, hservice]
  · rw [hsame.instanceId, hinstance]

theorem udpEndpoint_of_sameContent {parsed : Mcu.SdParsed} {info : Mpu.SdInfo}
    (h : SameContent parsed info) (hinfo : OfferInfo info) :
    (Mcu.SomeipUdp.udpEndpoint parsed).isSome := by
  obtain ⟨i, endpoint, hendpoint, hudp⟩ := hinfo.endpoint
  have hi : i < 4 := by
    refine lt_of_lt_of_le ?_ hinfo.options
    by_contra hbeyond
    rw [ip4EndpointAt, List.getElem?_eq_none (Nat.le_of_not_lt hbeyond)] at hendpoint
    cases hendpoint
  have hoption := h.options i hi
  rw [hendpoint] at hoption
  obtain ⟨hsame, hcount⟩ := hoption
  refine List.find?_isSome.mpr ⟨parsed.options[i], ?_, decide_eq_true ⟨hsame.type, ?_⟩⟩
  · exact List.mem_take_iff_getElem.mpr ⟨i, by rw [Vector.length_toList]; omega, Vector.getElem_toList _⟩
  · rw [← UInt8.toNat_inj, hsame.l4Proto, hudp]
    rfl

/-- An offer that `parse_sd` accepts is acted on exactly when its entries and options fit the first 64
bytes. -/
theorem offer_subscribed_iff (memory : Vector UInt8 64) (sendto : Mcu.Outgoing → Int)
    (udp : Mcu.SomeipUdp) (packet : Bytes) (info : Mpu.SdInfo)
    (hpacket : Mpu.parseSd packet = .ok info) (hinfo : OfferInfo info) :
    (∃ n, 0 < n ∧ (udp.someipUdpReceive memory sendto (some packet)).1 =
      subscribed memory sendto n udp) ↔
    28 + entriesLen packet + optionsLen packet ≤ 64 := by
  obtain ⟨hframed, -, -, -, hentries⟩ := Mpu.parseSd_ok hpacket
  have hfits := hframed.fits
  have hcapacity : entriesLen packet / 16 ≤ 4 := by
    have hcount := hinfo.entries
    rwa [hentries, entriesOf, List.length_map, List.length_range] at hcount
  have hservice : beNat (slice packet 0 2) = 0xFFFF := hframed.header.1
  rw [someipUdpReceive_eq, if_neg (by omega), if_pos hservice]
  dsimp only
  rw [Mcu.SomeipUdp.someipSdHandle]
  constructor
  · rintro ⟨n, hpos, hafter⟩
    by_contra hlarge
    have hlen : min packet.length 64 ≤ (received memory packet).length := by
      rw [received, List.length_append, List.length_take]
      omega
    rw [sdParse_rejects hlen (mt (delimited_received_iff memory hframed hcapacity).mp hlarge)] at hafter
    have hsent := congrArg (fun after => after.sent.length) hafter
    dsimp only at hsent
    rw [if_pos (by decide), subscribed_sent] at hsent
    omega
  · intro hsmall
    obtain ⟨parsed, hparse, hsame⟩ := sdParse_received memory hpacket hcapacity hsmall
    rw [hparse]
    dsimp only
    rw [if_neg (by decide), foldl_sdHandleEntry memory sendto parsed
      (udpEndpoint_of_sameContent hsame hinfo)]
    exact ⟨_, offered_of_sameContent hsame hinfo, rfl⟩

theorem offerService_le : Mpu.entryOfferService ≤ 0x02 := by decide

/-- An offer of the service with UDP endpoints. -/
def offerEntry : Mpu.SdEntry :=
  Mpu.serviceEntry Mpu.entryOfferService offerService_le 0x1234 0x5678 Mpu.ttlDefault 0 1

def offerWith (options : List Mpu.SdOption) : Bytes := Mpu.messageOf [offerEntry] options 1 0x40

def offerWithInfo (options : List Mpu.SdOption) : Mpu.SdInfo :=
  { sessionId := 1
    flags := 0x40
    entries := [offerEntry.parsed]
    options := options.map Mpu.SdOption.parsed }

theorem parseSd_offerWith (options : List Mpu.SdOption) (h : options.length ≤ 4) :
    Mpu.parseSd (offerWith options) = .ok (offerWithInfo options) :=
  Mpu.parseSd_sdMessage [offerEntry] options 1 0x40 (by rw [List.length_singleton]; omega)

theorem offerInfo_offerWith (address : Mpu.DottedQuad) (port : Nat) (rest : List Mpu.SdOption)
    (h : rest.length ≤ 3) : OfferInfo (offerWithInfo (Mpu.udpOption address port :: rest)) where
  entries := show 1 ≤ 4 by decide
  options := by
    rw [offerWithInfo, List.length_map, List.length_cons]
    exact Nat.succ_le_succ h
  offer := ⟨offerEntry.parsed, List.mem_singleton_self _, rfl, by decide, rfl, rfl⟩
  endpoint := ⟨0, _, rfl, rfl⟩

def providerA : Mpu.SdOption := Mpu.udpOption ⟨192, 168, 1, 10⟩ 30500
def providerB : Mpu.SdOption := Mpu.udpOption ⟨10, 0, 0, 10⟩ 30500

theorem offer_subscribed_one :
    (∃ n, 0 < n ∧ (Mcu.SomeipUdp.static.someipUdpReceive (Vector.replicate 64 0) (fun _ => 56)
        (some (offerWith [providerA]))).1 =
      subscribed (Vector.replicate 64 0) (fun _ => 56) n .static) ↔
    28 + entriesLen (offerWith [providerA]) + optionsLen (offerWith [providerA]) ≤ 64 :=
  offer_subscribed_iff _ _ _ _ _ (parseSd_offerWith [providerA] (by decide))
    (offerInfo_offerWith _ _ [] (by decide))

/-- With one endpoint more the same offer is ignored. -/
theorem offer_ignored_two :
    OfferInfo (offerWithInfo [providerA, providerB]) ∧
    Mpu.parseSd (offerWith [providerA, providerB]) = .ok (offerWithInfo [providerA, providerB]) ∧
    (offerWith [providerA, providerB]).length = 68 ∧
    ¬∃ n, 0 < n ∧ (Mcu.SomeipUdp.static.someipUdpReceive (Vector.replicate 64 0) (fun _ => 56)
        (some (offerWith [providerA, providerB]))).1 =
      subscribed (Vector.replicate 64 0) (fun _ => 56) n .static := by
  refine ⟨offerInfo_offerWith _ _ [providerB] (by decide), parseSd_offerWith _ (by decide),
    by decide +kernel, ?_⟩
  rintro ⟨n, hpos, hafter⟩
  have hnothing : (Mcu.SomeipUdp.static.someipUdpReceive (Vector.replicate 64 0) (fun _ => 56)
      (some (offerWith [providerA, providerB]))).1 = .static := by
    decide +kernel
  rw [hnothing] at hafter
  have hsent := congrArg (fun after => after.sent.length) hafter
  rw [subscribed_sent] at hsent
  omega

end SdvZone.Udp
