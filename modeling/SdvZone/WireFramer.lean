import SdvZone.MachineRun

/-! Receivers that cut frames out of a stream. A framer appends each element to its buffer and lets
a verdict on the whole buffer decide: keep waiting, discard it, or report an event and discard it.
Between elements the buffer can also be cleared, at any time, by a resynchronisation. The buffer is
always a contiguous window of the stream, and this is all the soundness argument needs. -/

namespace SdvZone.Wire

open Machine

inductive Verdict (ε : Type) where
  | wait
  | drop
  | emit (event : ε)
  deriving DecidableEq

namespace Framer

variable {α ε : Type}

/-- What is left of the buffer after a verdict on it, and the event reported. -/
def settle (buffer : List α) : Verdict ε → List α × Option ε
  | .wait => (buffer, none)
  | .drop => ([], none)
  | .emit event => ([], some event)

variable (verdict : List α → Verdict ε)

/-- `none` clears the buffer, `some element` appends it and applies the verdict. -/
def step (buffer : List α) : Option α → List α × Option ε
  | none => ([], none)
  | some element => settle (buffer ++ [element]) (verdict (buffer ++ [element]))

/-- The buffer and the events after a run of the framer. -/
abbrev scan (buffer : List α) (inputs : List (Option α)) : List α × List ε :=
  react (step verdict) buffer inputs

/-! ### Gathering one frame -/

theorem scan_some_cons (buffer : List α) (element : α) (rest : List α) :
    scan verdict buffer ((element :: rest).map some) =
      ((scan verdict (step verdict buffer (some element)).1 (rest.map some)).1,
        (step verdict buffer (some element)).2.toList ++
          (scan verdict (step verdict buffer (some element)).1 (rest.map some)).2) := rfl

/-- A frame whose proper prefixes all wait is gathered from any of its prefixes, and judged whole. -/
theorem scan_frame (missing : List α) (buffer : List α) (hmissing : missing ≠ [])
    (hwait : ∀ k, buffer.length < k → k < buffer.length + missing.length →
      verdict ((buffer ++ missing).take k) = .wait) :
    scan verdict buffer (missing.map some) =
      ((settle (buffer ++ missing) (verdict (buffer ++ missing))).1,
        (settle (buffer ++ missing) (verdict (buffer ++ missing))).2.toList) := by
  induction missing generalizing buffer with
  | nil => exact absurd rfl hmissing
  | cons element rest ih =>
      rw [scan_some_cons, step]
      by_cases hrest : rest = []
      · subst hrest
        simp only [List.map_nil, react_nil, List.append_nil]
      · have hpos : 0 < rest.length := List.length_pos_of_ne_nil hrest
        have hjoin : buffer ++ [element] ++ rest = buffer ++ element :: rest := by simp
        have hfirst : verdict (buffer ++ [element]) = .wait := by
          have h := hwait (buffer.length + 1) (by omega) (by simp only [List.length_cons]; omega)
          rwa [← hjoin, List.take_left' (by simp)] at h
        have htail := ih (buffer ++ [element]) hrest (by
          intro k hlow hhigh
          rw [hjoin]
          simp only [List.length_append, List.length_cons, List.length_nil] at hlow hhigh
          exact hwait k (by omega) (by simp only [List.length_cons]; omega))
        rw [hjoin] at htail
        rw [hfirst]
        exact htail

/-! ### Soundness over a stream of equal blocks -/

/-- The window of a stream between two positions. -/
def window (stream : List α) (start stop : Nat) : List α := (stream.take stop).drop start

@[simp] theorem window_self (stream : List α) (pos : Nat) : window stream pos pos = [] := by
  rw [window, List.drop_eq_nil_of_le (by rw [List.length_take]; omega)]

theorem window_succ (stream : List α) {start pos : Nat} (hstart : start ≤ pos) {element : α}
    (helement : stream[pos]? = some element) :
    window stream start (pos + 1) = window stream start pos ++ [element] := by
  have hpos : pos < stream.length := (List.getElem?_eq_some_iff.mp helement).1
  rw [window, window, List.take_add_one, helement, Option.toList_some,
    List.drop_append_of_le_length (by rw [List.length_take]; omega)]

/-- An accepted window of the stream is one of its blocks, cut at the block's first element. -/
def Aligned (size : Nat) (stream : List α) (sent : List ε) : Prop :=
  ∀ start stop event, start ≤ stop → stop ≤ stream.length →
    verdict (window stream start stop) = .emit event →
      ∃ k, start = k * size ∧ sent[k]? = some event ∧ start < stop

/-- The blocks that begin at or after a position. -/
def blocksFrom (size start : Nat) : Nat := (start + size - 1) / size

theorem blocksFrom_mul {size : Nat} (hsize : 0 < size) (k : Nat) : blocksFrom size (k * size) = k := by
  rw [blocksFrom, Nat.add_sub_assoc hsize, Nat.mul_comm, Nat.mul_add_div hsize,
    Nat.div_eq_of_lt (by omega), Nat.add_zero]

theorem blocksFrom_mono (size : Nat) {start pos : Nat} (h : start ≤ pos) :
    blocksFrom size start ≤ blocksFrom size pos :=
  Nat.div_le_div_right (by omega)

theorem blocksFrom_lt {size : Nat} (hsize : 0 < size) {k pos : Nat} (h : k * size < pos) :
    k < blocksFrom size pos := by
  rw [blocksFrom, ← Nat.succ_le_iff, Nat.le_div_iff_mul_le hsize, Nat.succ_mul]
  omega

theorem sublist_drop_of_le {sent events : List ε} {m n : Nat} (hle : m ≤ n)
    (h : events.Sublist (sent.drop n)) : events.Sublist (sent.drop m) :=
  h.trans (List.drop_sublist_drop_left sent hle)

/-- Whatever the resynchronisations, the events of a framer with only aligned windows are a
subsequence of what was sent: each event uses up a block, and the next window starts after it. -/
theorem scan_sublist_from {size : Nat} (hsize : 0 < size) {stream : List α} {sent : List ε}
    (haligned : Aligned verdict size stream sent) (inputs : List (Option α)) (pos start : Nat)
    (hinputs : inputs.reduceOption = stream.drop pos) (hstart : start ≤ pos)
    (hpos : pos ≤ stream.length) :
    (scan verdict (window stream start pos) inputs).2.Sublist (sent.drop (blocksFrom size start)) := by
  induction inputs generalizing pos start with
  | nil => exact List.nil_sublist _
  | cons input rest ih =>
      cases input with
      | none =>
          rw [List.reduceOption_cons_of_none] at hinputs
          have h := ih pos pos hinputs (Nat.le_refl _) hpos
          rw [window_self] at h
          exact sublist_drop_of_le (blocksFrom_mono size hstart) h
      | some element =>
          rw [List.reduceOption_cons_of_some] at hinputs
          have helement : stream[pos]? = some element := by
            have h := congrArg (fun xs : List α => xs[0]?) hinputs
            simpa using h.symm
          have hlt : pos < stream.length := (List.getElem?_eq_some_iff.mp helement).1
          have hrest : rest.reduceOption = stream.drop (pos + 1) := by
            have h := congrArg List.tail hinputs
            simpa using h
          rw [scan, react_cons, step, ← window_succ stream hstart helement]
          cases hverdict : verdict (window stream start (pos + 1)) with
          | wait =>
              simp only [settle, Option.toList_none, List.nil_append]
              exact ih (pos + 1) start hrest (by omega) hlt
          | drop =>
              simp only [settle, Option.toList_none, List.nil_append]
              have h := ih (pos + 1) (pos + 1) hrest (Nat.le_refl _) hlt
              rw [window_self] at h
              exact sublist_drop_of_le (blocksFrom_mono size (by omega)) h
          | emit event =>
              simp only [settle, Option.toList_some]
              obtain ⟨k, rfl, hsent, hlong⟩ := haligned start (pos + 1) event (by omega) hlt hverdict
              have h := ih (pos + 1) (pos + 1) hrest (Nat.le_refl _) hlt
              rw [window_self] at h
              have hk : sent.drop k = event :: sent.drop (k + 1) := by
                obtain ⟨hbound, hget⟩ := List.getElem?_eq_some_iff.mp hsent
                rw [List.drop_eq_getElem_cons hbound, hget]
              rw [blocksFrom_mul hsize, hk]
              exact (sublist_drop_of_le (blocksFrom_lt hsize hlong) h).cons_cons event

theorem scan_sublist {size : Nat} (hsize : 0 < size) {stream : List α} {sent : List ε}
    (haligned : Aligned verdict size stream sent) (inputs : List (Option α))
    (hinputs : inputs.reduceOption = stream) : (scan verdict [] inputs).2.Sublist sent := by
  have h := scan_sublist_from verdict hsize haligned inputs 0 0 (by simpa using hinputs) (Nat.le_refl _)
    (Nat.zero_le _)
  rw [window_self] at h
  exact sublist_drop_of_le (Nat.zero_le _) h

theorem reduceOption_map_some (elements : List α) : (elements.map some).reduceOption = elements := by
  rw [List.reduceOption, List.filterMap_map]
  exact List.filterMap_some

/-- The part of the stream that is still to come does not matter. -/
theorem scan_sublist_front {size : Nat} (hsize : 0 < size) {stream : List α} {sent : List ε}
    (haligned : Aligned verdict size stream sent) (inputs : List (Option α))
    (hinputs : inputs.reduceOption <+: stream) : (scan verdict [] inputs).2.Sublist sent := by
  obtain ⟨rest, hrest⟩ := hinputs
  have hall := scan_sublist verdict hsize haligned (inputs ++ rest.map some) (by
    rw [List.reduceOption_append, reduceOption_map_some, hrest])
  rw [scan, react_append] at hall
  exact (List.sublist_append_left _ _).trans hall

end Framer

end SdvZone.Wire
