import SdvZone.SdBothParsers

/-! What `sd_parse` makes of a packet that is cut or followed by other bytes. The length fields say
how far the packet goes; a buffer that ends before is refused, and nothing behind is read. -/

namespace SdvZone.Sd

open Wire
open Mpu (entriesLen optionsLen)

/-! ### Buffers that agree -/

section Agreement

variable {first second : Bytes}

theorem getU16_congr {n pos : Nat} (h : ∀ i < n, getU8 first i = getU8 second i) (hpos : pos + 2 ≤ n) :
    getU16 first pos = getU16 second pos := by
  rw [getU16, getU16, h pos (by omega), h (pos + 1) (by omega)]

theorem readEntry_congr {n e : Nat} (h : ∀ i < n, getU8 first i = getU8 second i) (he : e + 16 ≤ n) :
    Mcu.readEntry first e = Mcu.readEntry second e := by
  unfold Mcu.readEntry
  rw [h e (by omega), h (e + 8) (by omega), h (e + 9) (by omega), h (e + 10) (by omega),
    h (e + 11) (by omega), getU16_congr h (by omega : e + 4 + 2 ≤ n),
    getU16_congr h (by omega : e + 6 + 2 ≤ n), getU16_congr h (by omega : e + 14 + 2 ≤ n)]

theorem readEntries_congr {n count : Nat} (h : ∀ i < n, getU8 first i = getU8 second i)
    (hcount : count ≤ Mcu.sdMaxEntries) (hn : 24 + 16 * count ≤ n) (entries : Vector Mcu.SdEntry 4) :
    Mcu.readEntries first count hcount entries = Mcu.readEntries second count hcount entries := by
  induction count with
  | zero => rfl
  | succ count ih =>
      rw [readEntries_succ first hcount, readEntries_succ second hcount, ih (Nat.le_of_succ_le hcount) (by omega),
        readEntry_congr h (by omega)]

theorem readOption_congr {n o : Nat} (h : ∀ i < n, getU8 first i = getU8 second i) (ho : o + 12 ≤ n) :
    Mcu.readOption first o = Mcu.readOption second o := by
  unfold Mcu.readOption
  rw [h (o + 2) (by omega), h (o + 4) (by omega), h (o + 5) (by omega), h (o + 6) (by omega),
    h (o + 7) (by omega), h (o + 9) (by omega), getU16_congr h (by omega : o + 10 + 2 ≤ n)]

/-- The loop over the options stays inside their region. -/
theorem readOptions_congr {base optionsLen : Nat}
    (h : ∀ i < base + optionsLen, getU8 first i = getU8 second i) (left optOff : Nat)
    (out : Mcu.SdParsed) :
    Mcu.readOptions first base optionsLen left optOff out =
      Mcu.readOptions second base optionsLen left optOff out := by
  induction left generalizing optOff out with
  | zero => rfl
  | succ left ih =>
      unfold Mcu.readOptions
      by_cases hheader : optOff + 3 ≤ optionsLen
      case neg => rw [if_neg hheader, if_neg hheader]
      case pos =>
        have hlength : getU16 first (base + optOff + 0) = getU16 second (base + optOff + 0) :=
          getU16_congr h (by omega)
        have htype : getU8 first (base + optOff + 2) = getU8 second (base + optOff + 2) :=
          h _ (by omega)
        rw [if_pos hheader, if_pos hheader]
        dsimp only
        rw [hlength, htype]
        generalize 3 + (getU16 second (base + optOff + 0)).toNat = block
        by_cases hblock : optionsLen - optOff < block
        · rw [if_pos hblock, if_pos hblock]
        · rw [if_neg hblock, if_neg hblock]
          by_cases hendpoint : getU8 second (base + optOff + 2) = Mcu.sdOptIp4Endpoint ∧
              Mcu.sdIp4OptionSize ≤ block
          · have hsize := hendpoint.2
            unfold Mcu.sdIp4OptionSize at hsize
            rw [if_pos hendpoint, if_pos hendpoint, ih, readOption_congr h (by omega)]
          · rw [if_neg hendpoint, if_neg hendpoint, ih]

end Agreement

/-! ### Cut packets -/

section Cut

variable {packet buf : Bytes}

theorem slice_congr {n start stop : Nat} (h : buf.take n = packet.take n) (hstop : stop ≤ n) :
    slice buf start stop = slice packet start stop := by
  rw [← slice_take buf hstop, h, slice_take packet hstop]

theorem getU8_congr {n : Nat} (h : buf.take n = packet.take n) : ∀ i < n,
    getU8 buf i = getU8 packet i := by
  intro i hi
  rw [← getU8_take buf hi, h, getU8_take packet hi]

theorem entriesLen_congr {n : Nat} (h : buf.take n = packet.take n) (hn : 24 ≤ n) :
    entriesLen buf = entriesLen packet := by
  rw [entriesLen, entriesLen, slice_congr h hn]

theorem optionsLen_congr {n : Nat} (h : buf.take n = packet.take n)
    (hn : 28 + entriesLen packet ≤ n) : optionsLen buf = optionsLen packet := by
  rw [optionsLen, optionsLen, entriesLen_congr h (by omega), slice_congr h (by omega)]

/-- The length fields ask for more than there is. -/
theorem not_delimited_of_cut {n m : Nat} (h : buf.take n = packet.take n) (hm : m ≤ n)
    (hcut : m < 28 + entriesLen packet + optionsLen packet) : ¬ Delimited buf m := by
  intro hdelimited
  have hfits := hdelimited.fits
  have hentries := entriesLen_congr h (by omega)
  rw [hentries] at hfits
  rw [optionsLen_congr h (by omega)] at hfits
  omega

/-- All that is read lies within the length fields. -/
theorem sdParse_congr {n m len : Nat} (h : buf.take n = packet.take n) (hlen : len ≤ packet.length)
    (hdelimited : Delimited packet len) (hn : 28 + entriesLen packet + optionsLen packet ≤ n)
    (hm : 28 + entriesLen packet + optionsLen packet ≤ m) (hbuf : m ≤ buf.length) :
    Mcu.sdParse buf m = Mcu.sdParse packet len := by
  have hentries := entriesLen_congr h (by omega)
  have hoptions := optionsLen_congr h (by omega)
  obtain ⟨hservice, hmethod, haligned, hcapacity, hfits⟩ := hdelimited
  have hsame : Delimited buf m := by
    refine ⟨?_, ?_, ?_, ?_, ?_⟩
    · rwa [slice_congr h (by omega)]
    · rwa [slice_congr h (by omega)]
    · rwa [hentries]
    · rwa [hentries]
    · rw [hentries, hoptions]
      omega
  have hbytes := getU8_congr h
  have hhead : parsedHead buf hsame.capacity = parsedHead packet hcapacity := by
    unfold parsedHead
    rw [hbytes 16 (by omega), getU16_congr hbytes (by omega : 10 + 2 ≤ n)]
    simp only [hentries]
    rw [readEntries_congr hbytes hcapacity (by omega)]
  rw [sdParse_accepts hbuf hsame, sdParse_accepts hlen ⟨hservice, hmethod, haligned, hcapacity, hfits⟩,
    hhead, hentries, hoptions]
  refine Prod.ext rfl (readOptions_congr (fun i hi => hbytes i ?_) _ _ _)
  omega

end Cut

/-- A packet that is accepted is refused as soon as a byte of it is missing, and is read alike
whatever follows it, inside the length or behind it. -/
theorem truncation_rejected (packet : Bytes) (parsed : Mcu.SdParsed)
    (haccepted : Mcu.sdParse packet packet.length = (0, parsed)) :
    (∀ m < 28 + entriesLen packet + optionsLen packet, ∀ memory,
      Mcu.sdParse (packet.take m ++ memory) m = (-1, .zero)) ∧
    (∀ m ≥ 28 + entriesLen packet + optionsLen packet, m ≤ packet.length → ∀ memory,
      Mcu.sdParse (packet.take m ++ memory) m = (0, parsed)) ∧
    ∀ extra memory,
      Mcu.sdParse (packet ++ extra ++ memory) (packet ++ extra).length = (0, parsed) := by
  have hdelimited := (sdParse_eq_zero_iff le_rfl).mp (congrArg Prod.fst haccepted)
  have hfits := hdelimited.fits
  have hfirst : ∀ m ≤ packet.length, ∀ memory, (packet.take m ++ memory).take m = packet.take m := by
    intro m hm memory
    exact List.take_left' (by rw [List.length_take]; omega)
  refine ⟨fun m hm memory => ?_, fun m hm hle memory => ?_, fun extra memory => ?_⟩
  · apply sdParse_rejects
    · rw [List.length_append, List.length_take]
      omega
    · exact not_delimited_of_cut (hfirst m (by omega) memory) le_rfl hm
  · rw [← haccepted]
    apply sdParse_congr (hfirst m hle memory) le_rfl hdelimited hm hm
    rw [List.length_append, List.length_take]
    omega
  · rw [← haccepted]
    have htake : (packet ++ extra ++ memory).take packet.length = packet.take packet.length := by
      rw [List.append_assoc, List.take_left, List.take_length]
    apply sdParse_congr htake le_rfl hdelimited (by omega)
    · rw [List.length_append]
      omega
    · rw [@List.length_append _ _ memory]
      omega

/-- One entry and one endpoint, without the last byte and with two bytes more. -/
theorem truncation_rejected_endpoint :
    Mcu.sdParse (endpointPacket.take 55 ++ [0xAB]) 55 = (-1, .zero) ∧
      Mcu.sdParse (endpointPacket ++ [0x04, 0x00] ++ []) (endpointPacket ++ [0x04, 0x00]).length =
        (0, (Mcu.sdParse endpointPacket endpointPacket.length).2) := by
  have haccepted : Mcu.sdParse endpointPacket endpointPacket.length =
      (0, (Mcu.sdParse endpointPacket endpointPacket.length).2) := Prod.ext (by decide) rfl
  obtain ⟨hcut, -, hextended⟩ := truncation_rejected endpointPacket _ haccepted
  exact ⟨hcut 55 (by decide) [0xAB], hextended [0x04, 0x00] []⟩

end SdvZone.Sd
