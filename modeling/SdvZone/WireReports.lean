import SdvZone.WireFramer

/-! Which blocks of a stream a framer reports. What is in the buffer has come in since it was last empty;
so a block whose frame lies at its beginning is reported exactly when the buffer is empty where the block
begins and is not cleared before the frame is complete. -/

namespace SdvZone.Wire.Framer

open Machine

variable {α ε : Type} (verdict : List α → Verdict ε)

/-- None of the beginnings has been decided. -/
def Pending (buffer : List α) : Prop :=
  ∀ k, 0 < k → k ≤ buffer.length → verdict (buffer.take k) = .wait

theorem pending_nil : Pending verdict [] := fun _ hpos hle => absurd hpos (Nat.not_lt.mpr hle)

theorem Pending.snoc {verdict : List α → Verdict ε} {buffer : List α} (h : Pending verdict buffer)
    {element : α} (hwait : verdict (buffer ++ [element]) = .wait) : Pending verdict (buffer ++ [element]) := by
  intro k hpos hle
  rw [List.length_append, List.length_singleton] at hle
  rcases Nat.lt_or_ge buffer.length k with hall | hpart
  · have hk : k = (buffer ++ [element]).length := by
      rw [List.length_append, List.length_singleton]
      omega
    rw [hk, List.take_length]
    exact hwait
  · rw [List.take_append_of_le_length hpart]
    exact h k hpos hpart

theorem Pending.front {verdict : List α → Verdict ε} {buffer : List α} {element : α}
    (h : Pending verdict (buffer ++ [element])) : Pending verdict buffer := by
  intro k hpos hle
  have hwait := h k hpos (by rw [List.length_append]; omega)
  rwa [List.take_append_of_le_length hle] at hwait

/-- What is in the buffer has come in since the buffer was last empty, and nothing of it has been
decided. -/
theorem scan_buffer (inputs : List (Option α)) :
    (∃ front, inputs = front ++ (scan verdict [] inputs).1.map some ∧ (scan verdict [] front).1 = []) ∧
      Pending verdict (scan verdict [] inputs).1 := by
  induction inputs using List.reverseRecOn with
  | nil => exact ⟨⟨[], rfl, rfl⟩, pending_nil verdict⟩
  | append_singleton inputs input ih =>
      obtain ⟨⟨front, hfront, hempty⟩, hpending⟩ := ih
      have hcleared : (scan verdict [] (inputs ++ [input])).1 = [] →
          (∃ front, inputs ++ [input] = front ++ (scan verdict [] (inputs ++ [input])).1.map some ∧
            (scan verdict [] front).1 = []) ∧ Pending verdict (scan verdict [] (inputs ++ [input])).1 := by
        intro hnil
        refine ⟨⟨inputs ++ [input], ?_, hnil⟩, ?_⟩
        · rw [hnil, List.map_nil, List.append_nil]
        · rw [hnil]
          exact pending_nil verdict
      have hlast : (scan verdict [] (inputs ++ [input])).1 =
          (step verdict (scan verdict [] inputs).1 input).1 := by
        rw [scan, react_snoc]
      cases input with
      | none => exact hcleared hlast
      | some element =>
          cases hverdict : verdict ((scan verdict [] inputs).1 ++ [element]) with
          | wait =>
              rw [step, hverdict] at hlast
              rw [hlast]
              refine ⟨⟨front, ?_, hempty⟩, hpending.snoc hverdict⟩
              show inputs ++ [some element] =
                front ++ ((scan verdict [] inputs).1 ++ [element]).map some
              rw [List.map_append, ← List.append_assoc, ← hfront]
              rfl
          | drop =>
              apply hcleared
              rw [hlast, step, hverdict]
              rfl
          | emit event =>
              apply hcleared
              rw [hlast, step, hverdict]
              rfl

/-- Elements of which nothing is decided stay in the buffer. -/
theorem scan_pending {more : List α} (h : Pending verdict more) :
    scan verdict [] (more.map some) = (more, []) := by
  induction more using List.reverseRecOn with
  | nil => rfl
  | append_singleton more element ih =>
      have hwait := h (more ++ [element]).length (by simp) (Nat.le_refl _)
      rw [List.take_length] at hwait
      rw [List.map_append, List.map_singleton, scan, react_snoc, ← scan, ih h.front, step, hwait]
      rfl

/-! ### Blocks -/

variable (size len : ℕ) (stream : List α) (sent : List ε)

/-- The beginning of a block. -/
def frame (k : ℕ) : List α := (stream.drop (k * size)).take len

/-- Each block of the stream has its frame at its beginning, and nothing else is accepted. -/
structure Blocks : Prop where
  aligned : Aligned verdict size stream sent
  pos : 0 < len
  fits : len ≤ size
  whole : sent.length * size ≤ stream.length
  emits : ∀ k event, sent[k]? = some event → verdict (frame size len stream k) = .emit event
  waits : ∀ k event, sent[k]? = some event → ∀ n, 0 < n → n < len →
    verdict ((frame size len stream k).take n) = .wait

/-- The frame of the block comes in behind an empty buffer, with no clearing in between. -/
def Undisturbed (inputs : List (Option α)) (k : ℕ) : Prop :=
  ∃ front back, inputs = front ++ (frame size len stream k).map some ++ back ∧
    front.reduceOption.length = k * size ∧ (scan verdict [] front).1 = []

/-- The same, and the frame has just come in. -/
def Gathered (inputs : List (Option α)) (k : ℕ) : Prop :=
  ∃ front, inputs = front ++ (frame size len stream k).map some ∧
    front.reduceOption.length = k * size ∧ (scan verdict [] front).1 = []

variable {verdict size len stream sent}

theorem undisturbed_snoc (inputs : List (Option α)) (input : Option α) (k : ℕ) :
    Undisturbed verdict size len stream (inputs ++ [input]) k ↔
      Undisturbed verdict size len stream inputs k ∨ Gathered verdict size len stream (inputs ++ [input]) k := by
  constructor
  · rintro ⟨front, back, hsplit, hpos, hempty⟩
    induction back using List.reverseRecOn with
    | nil => exact .inr ⟨front, by rw [hsplit, List.append_nil], hpos, hempty⟩
    | append_singleton back last _ =>
        rw [← List.append_assoc] at hsplit
        exact .inl ⟨front, back, (List.append_inj' hsplit rfl).1, hpos, hempty⟩
  · rintro (⟨front, back, rfl, hpos, hempty⟩ | ⟨front, hsplit, hpos, hempty⟩)
    · exact ⟨front, back ++ [input], List.append_assoc _ _ _, hpos, hempty⟩
    · exact ⟨front, [], by rw [hsplit, List.append_nil], hpos, hempty⟩

section Blocks

variable (h : Blocks verdict size len stream sent)

include h

theorem Blocks.frame_length {k : ℕ} (hk : k < sent.length) : (frame size len stream k).length = len := by
  have hblock : (k + 1) * size ≤ sent.length * size := Nat.mul_le_mul_right size hk
  have hwhole := h.whole
  have hfits := h.fits
  rw [Nat.succ_mul] at hblock
  rw [frame, List.length_take, List.length_drop]
  omega

/-- A block that has just come in ends where the elements read so far end. -/
theorem Blocks.gathered_length {inputs : List (Option α)} {k : ℕ} (hk : k < sent.length)
    (hgathered : Gathered verdict size len stream inputs k) :
    k * size + len = inputs.reduceOption.length := by
  obtain ⟨front, hsplit, hpos, -⟩ := hgathered
  rw [hsplit, List.reduceOption_append, reduceOption_map_some, List.length_append, hpos, h.frame_length hk]

/-- A frame that has just come in behind an empty buffer is reported. -/
theorem Blocks.gathered_emits {inputs : List (Option α)} {input : Option α} {k : ℕ} {event : ε}
    (hk : sent[k]? = some event) (hgathered : Gathered verdict size len stream (inputs ++ [input]) k) :
    (step verdict (scan verdict [] inputs).1 input).2 = some event := by
  obtain ⟨front, hsplit, -, hempty⟩ := hgathered
  have hlength := h.frame_length (List.getElem?_eq_some_iff.mp hk).1
  have hemits := h.emits k event hk
  have hwaits := h.waits k event hk
  generalize frame size len stream k = frame at hsplit hlength hemits hwaits
  induction frame using List.reverseRecOn with
  | nil => exact absurd hlength.symm (Nat.ne_of_gt h.pos)
  | append_singleton body last _ =>
      rw [List.length_append, List.length_singleton] at hlength
      have hpending : Pending verdict body := by
        intro n hpos hle
        have hwait := hwaits n hpos (by omega)
        rwa [List.take_append_of_le_length hle] at hwait
      rw [List.map_append, ← List.append_assoc] at hsplit
      obtain ⟨rfl, hlast⟩ := List.append_inj' hsplit rfl
      cases hlast
      rw [scan, react_append, ← scan, hempty, ← scan, scan_pending verdict hpending, step, hemits]
      rfl

/-- What is reported is a frame that has just come in behind an empty buffer. -/
theorem Blocks.emitted_gathered {inputs : List (Option α)} {input : Option α} {event : ε}
    (hinputs : (inputs ++ [input]).reduceOption <+: stream)
    (hevent : (step verdict (scan verdict [] inputs).1 input).2 = some event) :
    ∃ k, sent[k]? = some event ∧ Gathered verdict size len stream (inputs ++ [input]) k := by
  obtain ⟨⟨front, hfront, hempty⟩, hpending⟩ := scan_buffer verdict inputs
  generalize (scan verdict [] inputs).1 = buffer at hevent hfront hpending
  cases input with
  | none => cases hevent
  | some element =>
      have hemits : verdict (buffer ++ [element]) = .emit event := by
        rw [step] at hevent
        cases hverdict : verdict (buffer ++ [element]) with
        | wait | drop =>
            rw [hverdict] at hevent
            cases hevent
        | emit other =>
            rw [hverdict] at hevent
            cases hevent
            rfl
      have hsplit : inputs ++ [some element] = front ++ (buffer ++ [element]).map some := by
        rw [List.map_append, ← List.append_assoc, ← hfront]
        rfl
      rw [hsplit, List.reduceOption_append, reduceOption_map_some] at hinputs
      obtain ⟨rest, hstream⟩ := hinputs
      have hwindow : window stream front.reduceOption.length
          (front.reduceOption ++ (buffer ++ [element])).length = buffer ++ [element] := by
        rw [window, ← hstream, List.take_left, List.drop_left]
      have hstop : (front.reduceOption ++ (buffer ++ [element])).length ≤ stream.length := by
        rw [← hstream]
        exact (List.prefix_append _ rest).length_le
      obtain ⟨k, hstart, hk, -⟩ := h.aligned front.reduceOption.length _ event
        (by rw [List.length_append]; exact Nat.le_add_right _ _) hstop (by rw [hwindow]; exact hemits)
      refine ⟨k, hk, front, ?_, hstart, hempty⟩
      have hlength := h.frame_length (List.getElem?_eq_some_iff.mp hk).1
      have hbehind : stream.drop (k * size) = buffer ++ [element] ++ rest := by
        rw [← hstart, ← hstream, List.append_assoc, List.drop_left]
      -- a longer buffer would have been decided before, and a shorter one would still wait
      rcases Nat.lt_trichotomy len (buffer ++ [element]).length with hlong | hsame | hshort
      · have hpart : frame size len stream k = buffer.take len := by
          rw [List.length_append, List.length_singleton] at hlong
          rw [frame, hbehind, List.append_assoc, List.take_append_of_le_length (by omega)]
        rw [List.length_append, List.length_singleton] at hlong
        have hwait := hpending len h.pos (by omega)
        rw [← hpart, h.emits k event hk] at hwait
        cases hwait
      · rw [hsplit, frame, hbehind, hsame, List.take_left]
      · have hwait := h.waits k event hk _ (by rw [List.length_append]; exact Nat.succ_pos _) hshort
        rw [frame, hbehind, List.take_take, Nat.min_eq_left (Nat.le_of_lt hshort), List.take_left, hemits] at hwait
        cases hwait

/-- The blocks reported are those whose frame comes in undisturbed, each of them once and in order. -/
theorem Blocks.scan_reports (inputs : List (Option α)) (hinputs : inputs.reduceOption <+: stream) :
    ∃ heard : List ℕ, heard.Pairwise (· < ·) ∧
      (scan verdict [] inputs).2 = heard.filterMap (fun k => sent[k]?) ∧
      ∀ k, k ∈ heard ↔ k < sent.length ∧ Undisturbed verdict size len stream inputs k := by
  suffices hreports : ∃ heard : List ℕ, heard.Pairwise (· < ·) ∧
      (∀ k ∈ heard, k * size + len ≤ inputs.reduceOption.length) ∧
      (scan verdict [] inputs).2 = heard.filterMap (fun k => sent[k]?) ∧
      ∀ k, k ∈ heard ↔ k < sent.length ∧ Undisturbed verdict size len stream inputs k by
    obtain ⟨heard, hsorted, -, hevents, hheard⟩ := hreports
    exact ⟨heard, hsorted, hevents, hheard⟩
  induction inputs using List.reverseRecOn with
  | nil =>
      refine ⟨[], List.Pairwise.nil, ?_, rfl, fun k => iff_of_false List.not_mem_nil ?_⟩
      · intro k hk
        cases hk
      · rintro ⟨hk, front, back, hsplit, -⟩
        have hlength := congrArg List.length hsplit
        rw [List.length_append, List.length_append, List.length_map, h.frame_length hk, List.length_nil] at hlength
        have hpos := h.pos
        omega
  | append_singleton inputs input ih =>
      have hbefore : inputs.reduceOption <+: stream := by
        rw [List.reduceOption_append] at hinputs
        exact (List.prefix_append _ _).trans hinputs
      obtain ⟨heard, hsorted, hread, hevents, hheard⟩ := ih hbefore
      have hlater : inputs.reduceOption.length ≤ (inputs ++ [input]).reduceOption.length := by
        rw [List.reduceOption_append, List.length_append]
        exact Nat.le_add_right _ _
      rw [scan, react_snoc, ← scan, hevents]
      cases hevent : (step verdict (scan verdict [] inputs).1 input).2 with
      | none =>
          refine ⟨heard, hsorted, fun k hk => Nat.le_trans (hread k hk) hlater, List.append_nil _, ?_⟩
          intro k
          rw [hheard, undisturbed_snoc]
          refine and_congr_right fun hk => (or_iff_left ?_).symm
          intro hgathered
          have hemits := h.gathered_emits (List.getElem?_eq_getElem hk) hgathered
          rw [hevent] at hemits
          cases hemits
      | some event =>
          obtain ⟨new, hnew, hgathered⟩ := h.emitted_gathered hinputs hevent
          have hbound := (List.getElem?_eq_some_iff.mp hnew).1
          have hplace := h.gathered_length hbound hgathered
          have hgrows : inputs.reduceOption.length < (inputs ++ [input]).reduceOption.length := by
            cases input with
            | none => cases hevent
            | some element =>
                rw [List.reduceOption_append, List.length_append]
                exact Nat.lt_succ_self _
          refine ⟨heard ++ [new], ?_, ?_, ?_, ?_⟩
          · refine List.pairwise_append.mpr ⟨hsorted, List.pairwise_singleton _ _, ?_⟩
            intro earlier hearlier last hlast
            rw [List.mem_singleton.mp hlast]
            have hend := hread earlier hearlier
            exact Nat.lt_of_mul_lt_mul_right (show earlier * size < new * size by omega)
          · intro k hk
            rcases List.mem_append.mp hk with hearlier | hlast
            · exact Nat.le_trans (hread k hearlier) hlater
            · rw [List.mem_singleton.mp hlast]
              exact Nat.le_of_eq hplace
          · rw [List.filterMap_append, List.filterMap_cons, hnew]
            rfl
          · intro k
            rw [List.mem_append, List.mem_singleton, hheard, undisturbed_snoc]
            constructor
            · rintro (⟨hk, hundisturbed⟩ | rfl)
              · exact ⟨hk, .inl hundisturbed⟩
              · exact ⟨hbound, .inr hgathered⟩
            · rintro ⟨hk, hundisturbed | hlast⟩
              · exact .inl ⟨hk, hundisturbed⟩
              · right
                have hend := h.gathered_length hk hlast
                have hsize : 0 < size := Nat.lt_of_lt_of_le h.pos h.fits
                exact Nat.eq_of_mul_eq_mul_right hsize (by omega)

end Blocks

end SdvZone.Wire.Framer
