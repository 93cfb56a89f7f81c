import SdvZone.McuServiceDiscovery
import SdvZone.SdParser
import SdvZone.WireBlocks

/-! The options of a service discovery packet as a row of blocks, and what the two parsers make of a
block. `parse_sd` accepts exactly the regions that are tiled by blocks; over such a region the loop
of `sd_parse` stands at the start of a block in every pass. -/

namespace SdvZone.Sd

open Wire

/-- The length field of an option leaves out itself and the type. -/
def optionSize (region : Bytes) : Nat := beNat (slice region 0 2) + 3

/-- The blocks of an options region. -/
abbrev OptionBlocks (region : Bytes) (blocks : List Bytes) : Prop := Tiles 4 optionSize region blocks

def optionType (block : Bytes) : Nat := beNat (slice block 2 3)

/-- A block that both parsers read as an IPv4 endpoint. -/
def IsEndpoint (block : Bytes) : Prop := optionType block = 0x04 ∧ 12 ≤ block.length

instance (block : Bytes) : Decidable (IsEndpoint block) := by unfold IsEndpoint; infer_instance

/-! ### The MPU -/

def endpointOf (block : Bytes) : Mpu.ParsedEndpoint :=
  { address := ⟨getU8 block 4, getU8 block 5, getU8 block 6, getU8 block 7⟩
    l4Proto := beNat (slice block 9 10)
    port := beNat (slice block 10 12) }

/-- The dictionary `parse_sd` makes of a block. -/
def optionOf (block : Bytes) : Mpu.ParsedOption :=
  { optionType := optionType block
    endpoint :=
      if (optionType block = Mpu.optIp4Endpoint ∨ optionType block = Mpu.optIp4Multicast) ∧
          12 ≤ block.length then some (endpointOf block)
      else none }

theorem parseOption_eq (block : Bytes) :
    Mpu.parseOption (optionType block) block.length block = .ok (optionOf block) := by
  unfold Mpu.parseOption optionOf
  split
  case isFalse => rfl
  case isTrue hendpoint =>
    have haddress : slice block 4 8 = [getU8 block 4, getU8 block 5, getU8 block 6, getU8 block 7] := by
      rw [slice_succ block (by omega) (by omega), slice_succ block (by omega) (by omega),
        slice_succ block (by omega) (by omega), slice_getU8 block (by omega)]
      rfl
    obtain ⟨l4Proto, hl4, hl4Proto⟩ := @Mpu.getItem_eq block 9 (by omega)
    rw [haddress, Mpu.inetNtoa, hl4]
    simp only [bind, Except.bind, pure, Except.pure, hl4Proto, endpointOf]

theorem parseOptions_nil {options : Bytes} {pos : Nat} (h : options.drop pos = []) :
    Mpu.parseOptions options pos = .ok [] := by
  rw [Mpu.parseOptions, if_neg (by rw [List.drop_eq_nil_iff] at h; omega)]

/-- One pass of the loop, over a block that is complete. -/
theorem parseOptions_cons {options : Bytes} {pos : Nat} (hheader : pos + 4 ≤ options.length)
    (hblock : pos + optionSize (options.drop pos) ≤ options.length) :
    Mpu.parseOptions options pos =
      (Mpu.parseOptions options (pos + optionSize (options.drop pos))).map
        (optionOf ((options.drop pos).take (optionSize (options.drop pos))) :: ·) := by
  have hsize : optionSize (options.drop pos) = beNat (slice options pos (pos + 2)) + 3 := by
    rw [optionSize, slice_drop]
    rfl
  rw [hsize] at hblock ⊢
  obtain ⟨option, hoption, hrest⟩ := Mpu.parseOptions_block hheader hblock
  rw [hrest]
  generalize beNat (slice options pos (pos + 2)) + 3 = block at hsize hblock hoption
  have hfirst : slice options pos (pos + block) = (options.drop pos).take block := by
    rw [slice, List.drop_take, Nat.add_sub_cancel_left]
  have hlength : ((options.drop pos).take block).length = block := by
    rw [List.length_take, List.length_drop]
    omega
  have htype : beNat (slice options (pos + 2) (pos + 3)) =
      optionType ((options.drop pos).take block) := by
    have hlong : 3 ≤ block := by
      rw [← hsize]
      exact Nat.le_add_left _ _
    rw [optionType, slice_take _ hlong, slice_drop]
  have hparsed := parseOption_eq ((options.drop pos).take block)
  rw [hlength, ← htype, ← hfirst, hoption] at hparsed
  cases hparsed
  rw [hfirst]

/-- The loop over the options accepts what is tiled by blocks. -/
theorem parseOptions_iff (options : Bytes) (pos : Nat) (parsed : List Mpu.ParsedOption) :
    Mpu.parseOptions options pos = .ok parsed ↔
      ∃ blocks, OptionBlocks (options.drop pos) blocks ∧ parsed = blocks.map optionOf := by
  induction pos using Mpu.parseOptions.induct options generalizing parsed with
  | case1 pos hmore hheader =>
      have hne : options.drop pos ≠ [] := by rw [Ne, List.drop_eq_nil_iff]; omega
      rw [Mpu.parseOptions, if_pos hmore, if_pos hheader]
      constructor
      · intro h
        cases h
      · rintro ⟨blocks, hblocks, -⟩
        have hshort := ((tiles_iff hne).mp hblocks).1
        rw [List.length_drop] at hshort
        omega
  | case2 pos hmore hheader optLength ih =>
      have hne : options.drop pos ≠ [] := by rw [Ne, List.drop_eq_nil_iff]; omega
      have hsize : optionSize (options.drop pos) = optLength + 3 := by
        rw [optionSize, slice_drop]
        rfl
      by_cases hblock : options.length < pos + (optLength + 3)
      · obtain ⟨optType, htype, _⟩ := @Mpu.getItem_eq options (pos + 2) (by omega)
        rw [Mpu.parseOptions, if_pos hmore, if_neg hheader, htype]
        simp only [bind, Except.bind]
        rw [if_pos hblock]
        constructor
        · intro h
          cases h
        · rintro ⟨blocks, hblocks, -⟩
          have hfits := ((tiles_iff hne).mp hblocks).2.1
          rw [hsize, List.length_drop] at hfits
          omega
      · rw [parseOptions_cons (by omega) (by omega), hsize]
        constructor
        · intro h
          cases hlater : Mpu.parseOptions options (pos + (optLength + 3)) with
          | error error =>
              rw [hlater] at h
              cases h
          | ok later =>
              rw [hlater] at h
              cases h
              obtain ⟨blocks, hblocks, rfl⟩ := (ih hblock later).mp hlater
              refine ⟨(options.drop pos).take (optLength + 3) :: blocks, ?_, rfl⟩
              rw [OptionBlocks, tiles_iff hne, hsize, List.drop_drop, List.length_drop]
              exact ⟨by omega, by omega, blocks, rfl, hblocks⟩
        · rintro ⟨blocks, hblocks, rfl⟩
          obtain ⟨-, -, later, rfl, hlater⟩ := (tiles_iff hne).mp hblocks
          rw [hsize, List.drop_drop] at hlater
          rw [(ih hblock _).mpr ⟨later, hlater, rfl⟩, hsize]
          rfl
  | case3 pos hdone =>
      have hnil : options.drop pos = [] := by rw [List.drop_eq_nil_iff]; omega
      rw [parseOptions_nil hnil, hnil]
      constructor
      · intro h
        cases h
        exact ⟨[], .nil, rfl⟩
      · rintro ⟨blocks, hblocks, rfl⟩
        rw [hblocks.eq_nil (by decide)]
        rfl

/-! ### The MCU -/

/-- What `sd_parse` does with the `i`-th block. -/
def storeOption (out : Mcu.SdParsed) (i : Nat) (block : Bytes) : Mcu.SdParsed :=
  if IsEndpoint block then
    { out with
      options := out.options.setIfInBounds i (Mcu.readOption block 0)
      optionCount := UInt8.ofNat (i + 1) }
  else out

/-- What it does with successive blocks, from the `i`-th on. -/
def storeOptions (out : Mcu.SdParsed) (i : Nat) : List Bytes → Mcu.SdParsed
  | [] => out
  | block :: rest => storeOptions (storeOption out i block) (i + 1) rest

/-- A block is read in place. -/
theorem readOption_eq (buf : Bytes) (o : Nat) {stop : Nat} (h : o + 12 ≤ stop) :
    Mcu.readOption buf o = Mcu.readOption (slice buf o stop) 0 := by
  have hbyte : ∀ k < 12, getU8 (slice buf o stop) (0 + k) = getU8 buf (o + k) := by
    intro k hk
    rw [Nat.zero_add]
    exact getU8_slice buf (by omega)
  simp only [Mcu.readOption, getU16, Nat.add_assoc]
  rw [hbyte 2 (by decide), hbyte 4 (by decide), hbyte 5 (by decide), hbyte 6 (by decide),
    hbyte 7 (by decide), hbyte 9 (by decide), hbyte 10 (by decide), hbyte (10 + 1) (by decide)]

theorem isEndpoint_iff {buf : Bytes} {o block : Nat} (hlong : 3 ≤ block)
    (hfits : o + block ≤ buf.length) :
    IsEndpoint (slice buf o (o + block)) ↔
      getU8 buf (o + 2) = Mcu.sdOptIp4Endpoint ∧ Mcu.sdIp4OptionSize ≤ block := by
  have htype : optionType (slice buf o (o + block)) = (getU8 buf (o + 2)).toNat := by
    rw [optionType, slice_slice _ (by omega), getU8_toNat _ (by omega)]
  have hlength : (slice buf o (o + block)).length = block := by
    rw [slice_length]
    omega
  rw [IsEndpoint, htype, hlength, ← UInt8.toNat_inj]
  exact Iff.rfl

theorem set_eq_setIfInBounds {α : Type} {n : Nat} (xs : Vector α n) (i : Nat) (x : α) (h : i < n) :
    xs.set i x h = xs.setIfInBounds i x := by
  apply Vector.ext
  intro j hj
  rw [Vector.getElem_set, Vector.getElem_setIfInBounds]

/-- Over a tiled region the loop stores block after block, four at most. -/
theorem readOptions_eq {buf : Bytes} {base optionsLen : Nat} (hlen : base + optionsLen ≤ buf.length)
    (left : Nat) (hleft : left ≤ 4) (optOff : Nat) (hoff : optOff ≤ optionsLen) (out : Mcu.SdParsed)
    {blocks : List Bytes} (h : OptionBlocks (slice buf (base + optOff) (base + optionsLen)) blocks) :
    Mcu.readOptions buf base optionsLen left optOff out =
      storeOptions out (4 - left) (blocks.take left) := by
  induction left generalizing optOff out blocks with
  | zero => rw [List.take_zero]; rfl
  | succ left ih =>
      have hlength : (slice buf (base + optOff) (base + optionsLen)).length = optionsLen - optOff := by
        rw [slice_length]
        omega
      rw [Mcu.readOptions]
      by_cases hdone : optOff = optionsLen
      · have hnil : slice buf (base + optOff) (base + optionsLen) = [] :=
          List.eq_nil_of_length_eq_zero (by omega)
        rw [hnil] at h
        rw [if_neg (by omega), h.eq_nil (by decide)]
        rfl
      · have hne : slice buf (base + optOff) (base + optionsLen) ≠ [] :=
          List.ne_nil_of_length_pos (by omega)
        obtain ⟨hheader, hfits, later, rfl, hlater⟩ := (tiles_iff hne).mp h
        rw [hlength] at hheader hfits
        have hsize : 3 + (getU16 buf (base + optOff + 0)).toNat =
            optionSize (slice buf (base + optOff) (base + optionsLen)) := by
          rw [optionSize, slice_slice _ (by omega), getU16_toNat buf (by omega), Nat.add_comm]
        rw [if_pos (by omega)]
        simp only [hsize]
        have hlong : 3 ≤ optionSize (slice buf (base + optOff) (base + optionsLen)) :=
          Nat.le_add_left _ _
        generalize optionSize (slice buf (base + optOff) (base + optionsLen)) = block at *
        have hfirst : (slice buf (base + optOff) (base + optionsLen)).take block =
            slice buf (base + optOff) (base + optOff + block) := by
          rw [← slice_zero_take, slice_slice _ (by omega)]
          rfl
        have hnext : (slice buf (base + optOff) (base + optionsLen)).drop block =
            slice buf (base + (optOff + block)) (base + optionsLen) := by
          rw [slice, slice, List.drop_drop, Nat.add_assoc]
        have hindex : 4 - (left + 1) + 1 = 4 - left := by omega
        rw [hnext] at hlater
        rw [hfirst, List.take_succ_cons, storeOptions, storeOption, hindex, if_neg (by omega)]
        by_cases hendpoint : getU8 buf (base + optOff + 2) = Mcu.sdOptIp4Endpoint ∧
            Mcu.sdIp4OptionSize ≤ block
        · have hread := readOption_eq buf (base + optOff)
            (Nat.add_le_add_left hendpoint.2 (base + optOff))
          rw [if_pos hendpoint, if_pos ((isEndpoint_iff hlong (by omega)).mpr hendpoint), hread,
            ih (by omega) _ (by omega) _ hlater, set_eq_setIfInBounds, Mcu.sdMaxOptions, hindex]
        · rw [if_neg hendpoint, if_neg (mt (isEndpoint_iff hlong (by omega)).mp hendpoint)]
          exact ih (by omega) _ (by omega) _ hlater

/-! ### What is stored -/

/-- The block at a position, if it is an endpoint. -/
def endpointAt (blocks : List Bytes) (i : Nat) : Option Bytes :=
  blocks[i]?.filter fun block => decide (IsEndpoint block)

theorem storeOption_frame (out : Mcu.SdParsed) (i : Nat) (block : Bytes) :
    (storeOption out i block).flags = out.flags ∧
      (storeOption out i block).sessionId = out.sessionId ∧
      (storeOption out i block).entryCount = out.entryCount ∧
      (storeOption out i block).entries = out.entries := by
  unfold storeOption
  split <;> exact ⟨rfl, rfl, rfl, rfl⟩

/-- Storing options touches nothing else. -/
theorem storeOptions_frame (out : Mcu.SdParsed) (i : Nat) (blocks : List Bytes) :
    (storeOptions out i blocks).flags = out.flags ∧
      (storeOptions out i blocks).sessionId = out.sessionId ∧
      (storeOptions out i blocks).entryCount = out.entryCount ∧
      (storeOptions out i blocks).entries = out.entries := by
  induction blocks generalizing out i with
  | nil => exact ⟨rfl, rfl, rfl, rfl⟩
  | cons block rest ih =>
      obtain ⟨hflags, hsession, hcount, hentries⟩ := ih (storeOption out i block) (i + 1)
      obtain ⟨hflags', hsession', hcount', hentries'⟩ := storeOption_frame out i block
      exact ⟨hflags.trans hflags', hsession.trans hsession', hcount.trans hcount',
        hentries.trans hentries'⟩

theorem storeOption_options (out : Mcu.SdParsed) (i : Nat) (block : Bytes) {j : Nat} (hj : j < 4) :
    (storeOption out i block).options[j] =
      if i = j ∧ IsEndpoint block then Mcu.readOption block 0 else out.options[j] := by
  unfold storeOption
  by_cases hendpoint : IsEndpoint block
  · simp only [hendpoint, if_true, and_true, Vector.getElem_setIfInBounds]
  · simp [hendpoint]

/-- Positions before the first block are not written. -/
theorem storeOptions_before (out : Mcu.SdParsed) (i : Nat) (blocks : List Bytes) {j : Nat} (hj : j < 4)
    (h : j < i) : (storeOptions out i blocks).options[j] = out.options[j] := by
  induction blocks generalizing out i with
  | nil => rfl
  | cons block rest ih => rw [storeOptions, ih _ _ (by omega), storeOption_options, if_neg (by omega)]

/-- Each endpoint is stored at its position, and no other position is written. -/
theorem storeOptions_at (out : Mcu.SdParsed) (i : Nat) (blocks : List Bytes) {k : Nat}
    (hk : i + k < 4) :
    (storeOptions out i blocks).options[i + k] =
      (endpointAt blocks k).elim out.options[i + k] fun block => Mcu.readOption block 0 := by
  induction blocks generalizing out i k with
  | nil => rfl
  | cons block rest ih =>
      rw [storeOptions]
      cases k with
      | zero =>
          rw [storeOptions_before _ _ _ _ (by omega), storeOption_options]
          by_cases hendpoint : IsEndpoint block <;> simp [hendpoint, endpointAt, Option.filter]
      | succ k =>
          have hindex : i + (k + 1) = i + 1 + k := by omega
          have hrest := @ih (storeOption out i block) (i + 1) k (by omega)
          rw [storeOption_options, if_neg (by omega)] at hrest
          simp only [hindex]
          exact hrest

/-- The count is one more than the position of the last endpoint. -/
theorem storeOptions_count (out : Mcu.SdParsed) (i : Nat) (blocks : List Bytes)
    (hroom : i + blocks.length ≤ 4) (hcount : out.optionCount.toNat ≤ i) :
    out.optionCount.toNat ≤ (storeOptions out i blocks).optionCount.toNat ∧
      (∀ j, (endpointAt blocks j).isSome → i + j < (storeOptions out i blocks).optionCount.toNat) ∧
      ((storeOptions out i blocks).optionCount = out.optionCount ∨
        ∃ j, (endpointAt blocks j).isSome ∧
          (storeOptions out i blocks).optionCount.toNat = i + j + 1) := by
  induction blocks generalizing out i with
  | nil =>
      refine ⟨Nat.le_refl _, ?_, Or.inl rfl⟩
      intro j hj
      cases hj
  | cons block rest ih =>
      rw [List.length_cons] at hroom
      have hfirst : (storeOption out i block).optionCount.toNat =
          if IsEndpoint block then i + 1 else out.optionCount.toNat := by
        unfold storeOption
        split
        · exact Nat.mod_eq_of_lt (by omega)
        · rfl
      obtain ⟨hmono, hlast, hreached⟩ := ih (storeOption out i block) (i + 1) (by omega) (by
        rw [hfirst]
        split <;> omega)
      rw [storeOptions]
      refine ⟨?_, ?_, ?_⟩
      · rw [hfirst] at hmono
        split at hmono <;> omega
      · intro j hj
        cases j with
        | zero =>
            have hendpoint : IsEndpoint block := by simpa [endpointAt] using hj
            rw [hfirst, if_pos hendpoint] at hmono
            omega
        | succ j =>
            have := hlast j hj
            omega
      · rcases hreached with hsame | ⟨j, hj, hcounted⟩
        · by_cases hendpoint : IsEndpoint block
          · refine Or.inr ⟨0, by simpa [endpointAt] using hendpoint, ?_⟩
            rw [hsame, hfirst, if_pos hendpoint]
          · left
            rw [hsame, storeOption, if_neg hendpoint]
        · refine Or.inr ⟨j + 1, hj, ?_⟩
          omega

end SdvZone.Sd
