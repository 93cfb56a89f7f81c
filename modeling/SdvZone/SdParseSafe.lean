import SdvZone.McuSdParseChecked
import SdvZone.SdBothParsers

/-! `sd_parse` meets no fault on any buffer: the checks of the three lengths come before what relies
on them, and the loop over the options never leaves their region. What it computes is what the
unchecked model computes. -/

namespace SdvZone.Sd

open Wire Mcu Mcu.Checked
open Mpu (entriesLen optionsLen)

/-! ### The loop over the entries -/

/-- The entries that are not reached yet. -/
theorem readEntries_beyond (buf : Bytes) {count : Nat} (h : count < 4) (entries : Vector SdEntry 4) :
    (readEntries buf count (Nat.le_of_lt h) entries)[count] = entries[count] := by
  have hbeyond : ∀ n (hn : n ≤ count),
      (readEntries buf n (hn.trans (Nat.le_of_lt h)) entries)[count] = entries[count] := by
    intro n
    induction n with
    | zero => intro _; rfl
    | succ n ih =>
        intro hn
        rw [readEntries_succ buf (by omega), Vector.getElem_set_ne _ _ (by omega)]
        exact ih (by omega)
  exact hbeyond count le_rfl

theorem storeEntry_ok {k : Nat} (hk : k < 4) (out : SdParsed) (write : SdEntry → SdEntry) :
    storeEntry out k write =
      .ok { out with entries := out.entries.set k (write out.entries[k]) } := dif_pos hk

/-- A write to the entry that the iteration before it has written. -/
theorem storeEntry_set {k : Nat} (hk : k < 4) (out : SdParsed) (entry : SdEntry)
    (write : SdEntry → SdEntry) :
    storeEntry { out with entries := out.entries.set k entry } k write =
      .ok { out with entries := out.entries.set k (write entry) } := by
  rw [storeEntry_ok hk]
  dsimp only
  rw [Vector.getElem_set_self, Vector.set_set]

theorem parseEntry_ok {buf : Bytes} (hsize : buf.length < 2 ^ 32) {k : Nat} (hk : k < 4)
    (hfits : 24 + 16 * k + 16 ≤ buf.length) {out : SdParsed} (hzero : out.entries[k] = .zero) :
    parseEntry buf (16 * k) out =
      .ok { out with entries := out.entries.set k (readEntry buf (24 + 16 * k)) } := by
  have hindex : 16 * k / sdEntrySize = k := Nat.mul_div_cancel_left k (by decide)
  have hstart : add hdrSize (16 * k) = .ok (24 + 16 * k) := add_ok (by unfold hdrSize; omega)
  have hnext : ∀ n ≤ 14, add (24 + 16 * k) n = .ok (24 + 16 * k + n) := fun n hn => add_ok (by omega)
  have hload : ∀ n < 16, load buf (24 + 16 * k + n) = .ok (getU8 buf (24 + 16 * k + n)) :=
    fun n hn => load_ok (by omega)
  have hload16 : ∀ n ≤ 14, loadU16 buf (24 + 16 * k + n) = .ok (getU16 buf (24 + 16 * k + n)) :=
    fun n hn => loadU16_ok hsize (by omega)
  have htype := hload 0 (by decide)
  rw [Nat.add_zero] at htype
  rw [parseEntry, hstart]
  simp only [ok_bind, htype, hnext 4 (by decide), hnext 6 (by decide), hnext 8 (by decide),
    hnext 9 (by decide), hnext 10 (by decide), hnext 11 (by decide), hnext 14 (by decide),
    hload16 4 (by decide), hload16 6 (by decide), hload16 14 (by decide), hload 8 (by decide),
    hload 9 (by decide), hload 10 (by decide), hload 11 (by decide), hindex]
  rw [storeEntry_ok hk, ok_bind, hzero]
  unfold readEntry
  by_cases hgroup : getU8 buf (24 + 16 * k) = sdEntrySubscribeEventgroup ∨
      getU8 buf (24 + 16 * k) = sdEntrySubscribeEventgroupAck
  · simp only [if_pos hgroup]
    exact storeEntry_set hk out _ _
  · simp only [if_neg hgroup]
    rfl

/-- The loop from the entry `k` on. The entries behind it are still zero. -/
theorem parseEntries_ok {buf : Bytes} (hsize : buf.length < 2 ^ 32) {count : Nat} (hcount : count ≤ 4)
    (hfits : 24 + 16 * count ≤ buf.length) (out : SdParsed) :
    ∀ left k (h : k + left = count),
      parseEntries buf (16 * count) (16 * k)
          { out with entries := readEntries buf k (by unfold sdMaxEntries; omega) SdParsed.zero.entries } =
        .ok { out with entries := readEntries buf count hcount SdParsed.zero.entries } := by
  intro left
  induction left with
  | zero =>
      intro k h
      obtain rfl : k = count := h
      rw [parseEntries, if_neg (Nat.lt_irrefl _)]
  | succ left ih =>
      intro k h
      have hk : k < 4 := by omega
      have hzero : (readEntries buf k (Nat.le_of_lt hk) SdParsed.zero.entries)[k] = .zero := by
        rw [readEntries_beyond buf hk]
        exact Vector.getElem_replicate hk
      have hoff : 16 * k + sdEntrySize = 16 * (k + 1) := rfl
      rw [parseEntries, if_pos (by omega), parseEntry_ok hsize hk (by omega) hzero, ok_bind, hoff,
        if_pos (by omega)]
      have hnext := ih (k + 1) (by omega)
      rw [readEntries_succ buf hk] at hnext
      exact hnext

theorem parseEntries_all {buf : Bytes} (hsize : buf.length < 2 ^ 32) {len : Nat} (haligned : len % 16 = 0)
    (hcapacity : len / 16 ≤ 4) (hfits : 24 + len ≤ buf.length) {out : SdParsed}
    (hzero : out.entries = SdParsed.zero.entries) :
    parseEntries buf len 0 out =
      .ok { out with entries := readEntries buf (len / 16) hcapacity SdParsed.zero.entries } := by
  have hlen : 16 * (len / 16) = len := Nat.mul_div_cancel' (Nat.dvd_of_mod_eq_zero haligned)
  have hout : { out with entries := SdParsed.zero.entries } = out := by rw [← hzero]
  have hall := parseEntries_ok hsize hcapacity (by omega) out (len / 16) 0 (Nat.zero_add _)
  rw [hlen] at hall
  rw [← hall]
  exact congrArg (parseEntries buf len 0) hout.symm

/-! ### The loop over the options -/

theorem storeOption_ok {i : Nat} (hi : i < 4) (out : SdParsed) (write : SdOptionIp4 → SdOptionIp4) :
    Mcu.Checked.storeOption out i write =
      .ok { out with options := out.options.set i (write out.options[i]) } := dif_pos hi

section Options

variable {buf : Bytes} {base len : Nat} (hsize : buf.length < 2 ^ 32) (hregion : base + len ≤ buf.length)

include hsize hregion

/-- A block of twelve bytes or more that fits into the region holds all of an endpoint option. -/
theorem parseOption_ok {i optOff : Nat} (hi : i < 4) (hfits : optOff + 3 ≤ len) (out : SdParsed) :
    parseOption buf base len i optOff out =
      let block := 3 + (getU16 buf (base + optOff)).toNat
      if len - optOff < block then .ok (none, out)
      else if getU8 buf (base + optOff + 2) = sdOptIp4Endpoint ∧ sdIp4OptionSize ≤ block then
        .ok (some block, { out with
          options := out.options.set i (readOption buf (base + optOff))
          optionCount := UInt8.ofNat (i + 1) })
      else .ok (some block, out) := by
  have hlength := (getU16 buf (base + optOff)).toNat_lt
  rw [parseOption, add_ok (by omega), ok_bind, loadU16_ok hsize (by omega), ok_bind,
    add_ok (by omega), ok_bind, sub_ok (by omega), ok_bind]
  dsimp only
  by_cases hshort : len - optOff < 3 + (getU16 buf (base + optOff)).toNat
  · rw [if_pos hshort, if_pos hshort]
    rfl
  rw [if_neg hshort, if_neg hshort, add_ok (by omega), ok_bind, load_ok (by omega), ok_bind]
  by_cases hendpoint : getU8 buf (base + optOff + 2) = sdOptIp4Endpoint ∧
      sdIp4OptionSize ≤ 3 + (getU16 buf (base + optOff)).toNat
  · rw [if_pos hendpoint, if_pos hendpoint]
    have hbytes := hendpoint.2
    unfold sdIp4OptionSize at hbytes
    have hnext : ∀ n ≤ 10, add (base + optOff) n = .ok (base + optOff + n) :=
      fun n hn => add_ok (by omega)
    have hload : ∀ n < 12, load buf (base + optOff + n) = .ok (getU8 buf (base + optOff + n)) :=
      fun n hn => load_ok (by omega)
    simp only [ok_bind, hnext 4 (by decide), hnext 5 (by decide), hnext 6 (by decide),
      hnext 7 (by decide), hnext 9 (by decide), hnext 10 (by decide), hload 4 (by decide),
      hload 5 (by decide), hload 6 (by decide), hload 7 (by decide), hload 9 (by decide)]
    rw [loadU16_ok hsize (by omega), ok_bind, storeOption_ok hi, ok_bind]
    rfl
  · rw [if_neg hendpoint, if_neg hendpoint]
    rfl

/-- The offset stays inside the region: a block that would leave it ends the loop. The headers before
the region leave room for the sum that the loop compares with its end. -/
theorem parseOptions_ok (hbase : 28 ≤ base) : ∀ left optOff out, left ≤ 4 → optOff ≤ len →
    Mcu.Checked.parseOptions buf base len (4 - left) optOff out =
      .ok (readOptions buf base len left optOff out) := by
  intro left
  induction left with
  | zero =>
      intro optOff out _ _
      rw [Mcu.Checked.parseOptions, if_neg (by decide)]
      rfl
  | succ left ih =>
      intro optOff out hleft hoff
      have hi : 4 - (left + 1) < 4 := by omega
      have hagain : 4 - (left + 1) < sdMaxOptions := hi
      have hnext : 4 - (left + 1) + 1 = 4 - left := by omega
      rw [Mcu.Checked.parseOptions, if_pos hagain, add_ok (by omega), ok_bind, readOptions]
      by_cases hmore : optOff + 3 ≤ len
      · rw [if_pos hmore, if_pos hmore, parseOption_ok hsize hregion hi hmore]
        simp only [Nat.add_zero]
        by_cases hshort : len - optOff < 3 + (getU16 buf (base + optOff)).toNat
        · rw [if_pos hshort, if_pos hshort]
          rfl
        rw [if_neg hshort, if_neg hshort]
        have hblock : add optOff (3 + (getU16 buf (base + optOff)).toNat) =
            .ok (optOff + (3 + (getU16 buf (base + optOff)).toNat)) := add_ok (by omega)
        by_cases hendpoint : getU8 buf (base + optOff + 2) = sdOptIp4Endpoint ∧
            sdIp4OptionSize ≤ 3 + (getU16 buf (base + optOff)).toNat
        · rw [if_pos hendpoint, if_pos hendpoint, ok_bind]
          dsimp only
          have hcount : sdMaxOptions - (left + 1) + 1 = 4 - left := hnext
          rw [hblock, ok_bind, hnext, hcount]
          exact ih _ _ (by omega) (by omega)
        · rw [if_neg hendpoint, if_neg hendpoint, ok_bind]
          dsimp only
          rw [hblock, ok_bind, hnext]
          exact ih _ _ (by omega) (by omega)
      · rw [if_neg hmore, if_neg hmore]
        rfl

theorem parseOptions_all (hbase : 28 ≤ base) (out : SdParsed) :
    Mcu.Checked.parseOptions buf base len 0 0 out = .ok (readOptions buf base len 4 0 out) :=
  parseOptions_ok hsize hregion hbase 4 0 out le_rfl (Nat.zero_le _)

end Options

/-! ### The whole parser -/

theorem readOptions_count {buf : Bytes} {base len : Nat} : ∀ left optOff out, left ≤ 4 →
    out.optionCount.toNat ≤ 4 → (readOptions buf base len left optOff out).optionCount.toNat ≤ 4 := by
  intro left
  induction left with
  | zero =>
      intro optOff out _ hcount
      exact hcount
  | succ left ih =>
      intro optOff out hleft hcount
      have hlast : (UInt8.ofNat (sdMaxOptions - (left + 1) + 1)).toNat ≤ 4 := by
        rw [UInt8.toNat_ofNat']
        unfold sdMaxOptions
        omega
      rw [readOptions]
      dsimp only
      split_ifs
      · exact hcount
      · exact ih _ _ (by omega) hlast
      · exact ih _ _ (by omega) hcount
      · exact hcount

/-- What `sd_parse` leaves, whatever it returns. -/
theorem sdParse_output {buf : Bytes} {len : Nat} (hlen : len ≤ buf.length) :
    ((Mcu.sdParse buf len).1 = 0 ∨ Mcu.sdParse buf len = (-1, .zero)) ∧
      (Mcu.sdParse buf len).2.entryCount.toNat ≤ 4 ∧ (Mcu.sdParse buf len).2.optionCount.toNat ≤ 4 := by
  by_cases h : Delimited buf len
  · rw [sdParse_accepts hlen h]
    refine ⟨Or.inl rfl, ?_, readOptions_count _ _ _ le_rfl (Nat.zero_le _)⟩
    have hcapacity := h.capacity
    have hentries : (parsedHead buf hcapacity).entryCount.toNat = entriesLen buf / 16 :=
      Nat.mod_eq_of_lt (by omega)
    rw [(readOptions_frame _ _ _ _ _ _).1, hentries]
    exact hcapacity
  · rw [sdParse_rejects hlen h]
    exact ⟨Or.inr rfl, by decide, by decide⟩

/-- `sd_parse` on the machine computes what `Mcu.sdParse` computes. -/
theorem sdParse_ok {buf : Bytes} (hsize : buf.length < 2 ^ 32) (out : SdParsed) :
    Mcu.Checked.sdParse (some buf) (some out) =
      .ok ((Mcu.sdParse buf buf.length).1, some (Mcu.sdParse buf buf.length).2) := by
  unfold Mcu.Checked.sdParse Mcu.sdParse
  dsimp only
  rw [add_ok (by decide), ok_bind]
  by_cases hshort : buf.length < hdrSize + 4
  · rw [if_pos hshort, if_pos hshort]
    rfl
  rw [if_neg hshort, if_neg hshort]
  unfold hdrSize at hshort
  rw [loadU16_ok hsize (by omega), ok_bind]
  by_cases hservice : getU16 buf 0 ≠ sdServiceId
  · rw [if_pos hservice, if_pos (Or.inl hservice)]
    rfl
  rw [if_neg hservice, loadU16_ok hsize (by omega), ok_bind]
  by_cases hmethod : getU16 buf 2 ≠ sdMethodId
  · rw [if_pos hmethod, if_pos (Or.inr hmethod)]
    rfl
  rw [if_neg hmethod, if_neg (not_or.mpr ⟨hservice, hmethod⟩), loadU32_ok hsize (by omega), ok_bind]
  by_cases hcounts : (getU32 buf 20).toNat % sdEntrySize ≠ 0 ∨
      sdMaxEntries < (getU32 buf 20).toNat / sdEntrySize
  · rw [if_pos hcounts, dif_pos hcounts]
    rfl
  rw [if_neg hcounts, dif_neg hcounts]
  unfold sdEntrySize sdMaxEntries at hcounts
  rw [add_ok (by unfold hdrSize; omega), ok_bind, add_ok (by unfold hdrSize; omega), ok_bind]
  by_cases hmore : buf.length < hdrSize + (getU32 buf 20).toNat + 4
  · rw [if_pos hmore, if_pos hmore]
    rfl
  rw [if_neg hmore, if_neg hmore, ok_bind]
  unfold hdrSize at hmore
  rw [loadU32_ok hsize (by unfold hdrSize; omega), ok_bind, sub_ok (by unfold hdrSize; omega), ok_bind]
  by_cases hfits : buf.length - (hdrSize + (getU32 buf 20).toNat + 4) <
      (getU32 buf (hdrSize + (getU32 buf 20).toNat)).toNat
  · rw [if_pos hfits, if_pos hfits]
    rfl
  rw [if_neg hfits, if_neg hfits, load_ok (by omega), ok_bind, loadU16_ok hsize (by omega), ok_bind]
  unfold hdrSize at hfits
  have haligned : (getU32 buf 20).toNat % 16 = 0 := by omega
  have hcapacity : (getU32 buf 20).toNat / 16 ≤ 4 := by omega
  rw [parseEntries_all hsize haligned hcapacity (by omega), ok_bind]
  · have hregion : hdrSize + (getU32 buf 20).toNat + 4 +
        (getU32 buf (hdrSize + (getU32 buf 20).toNat)).toNat ≤ buf.length := by
      unfold hdrSize
      omega
    rw [parseOptions_all hsize hregion (by unfold hdrSize; omega), ok_bind]
    rfl
  · rfl

/-- On every buffer whose size is a `uint32_t`, and whatever it and the output hold, `sd_parse` runs to
its end without a fault; it stays inside both arrays, and what it rejects leaves the output zero. -/
theorem sdParse_safe :
    (∀ buf out, buf = none ∨ out = none → Mcu.Checked.sdParse buf out = .ok (-1, out)) ∧
      ∀ (buf : Bytes) (out : SdParsed), buf.length < 2 ^ 32 →
        ∃ returned parsed, Mcu.Checked.sdParse (some buf) (some out) = .ok (returned, some parsed) ∧
          (returned = 0 ∨ returned = -1) ∧ (returned = -1 → parsed = .zero) ∧
          parsed.entryCount.toNat ≤ 4 ∧ parsed.optionCount.toNat ≤ 4 := by
  refine ⟨?_, ?_⟩
  · rintro buf out (rfl | rfl)
    · rfl
    · cases buf
      · rfl
      · rfl
  · intro buf out hsize
    obtain ⟨hreturned, hentries, hoptions⟩ := @sdParse_output buf _ le_rfl
    refine ⟨_, _, sdParse_ok hsize out, ?_, ?_, hentries, hoptions⟩
    · rcases hreturned with hzero | hrejected
      · exact Or.inl hzero
      · exact Or.inr (congrArg Prod.fst hrejected)
    · intro hnegative
      rcases hreturned with hzero | hrejected
      · rw [hzero] at hnegative
        exact absurd hnegative (by decide)
      · exact congrArg Prod.snd hrejected

/-- An options region of three bytes whose only option claims 65535 more. -/
theorem sdParse_safe_long_option :
    Mcu.Checked.sdParse none (some .zero) = .ok (-1, some .zero) ∧
      ∃ returned parsed, Mcu.Checked.sdParse (some (findPacket 0x02 [0xFF, 0xFF, 0x04])) (some .zero) =
          .ok (returned, some parsed) ∧
        (returned = 0 ∨ returned = -1) ∧ (returned = -1 → parsed = .zero) ∧
        parsed.entryCount.toNat ≤ 4 ∧ parsed.optionCount.toNat ≤ 4 :=
  ⟨sdParse_safe.1 none (some .zero) (Or.inl rfl),
    sdParse_safe.2 (findPacket 0x02 [0xFF, 0xFF, 0x04]) .zero (by decide)⟩

end SdvZone.Sd
