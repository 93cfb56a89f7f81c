import Mathlib.Tactic.IntervalCases
import SdvZone.WireFramer
import SdvZone.MpuProtocol
import SdvZone.McuSomeipUart

/-! One framer for both ends of the UART tunnel. `frameVerdict` says what a receiver of SOME/IP
events does with the bytes it has gathered; `StreamParser.feed` and `someip_uart_receive` are both
runs of the framer with this verdict, resynchronised when their clocks say so. -/

namespace SdvZone.Uart

open Wire Machine Mpu

/-- The decision taken after each byte: wait for the header, discard on a length out of range, wait
for the payload, then report or discard the frame. -/
def frameVerdict (buffer : Bytes) : Verdict (Nat × Bytes) :=
  if buffer.length < 16 then .wait
  else
    let length := beNat (slice buffer 4 8)
    if length < 8 ∨ 32 < length then .drop
    else if buffer.length < 16 + (length - 8) then .wait
    else if beNat (slice buffer 0 2) = serviceId ∧ beNat (slice buffer 14 15) = 0x02 then
      .emit (beNat (slice buffer 2 4), slice buffer 16 (16 + (length - 8)))
    else .drop

theorem frameVerdict_short {buffer : Bytes} (h : buffer.length < 16) : frameVerdict buffer = .wait :=
  if_pos h

theorem frameVerdict_badLength {buffer : Bytes} (hlong : 16 ≤ buffer.length)
    (hlength : beNat (slice buffer 4 8) < 8 ∨ 32 < beNat (slice buffer 4 8)) :
    frameVerdict buffer = .drop := by
  rw [frameVerdict, if_neg (by omega), if_pos hlength]

theorem frameVerdict_incomplete {buffer : Bytes} (hlong : 16 ≤ buffer.length)
    (hlength : ¬(beNat (slice buffer 4 8) < 8 ∨ 32 < beNat (slice buffer 4 8)))
    (hmore : buffer.length < 16 + (beNat (slice buffer 4 8) - 8)) :
    frameVerdict buffer = .wait := by
  rw [frameVerdict, if_neg (by omega), if_neg hlength, if_pos hmore]

theorem frameVerdict_complete {buffer : Bytes}
    (hlength : ¬(beNat (slice buffer 4 8) < 8 ∨ 32 < beNat (slice buffer 4 8)))
    (htotal : 16 + (beNat (slice buffer 4 8) - 8) ≤ buffer.length) :
    frameVerdict buffer =
      if beNat (slice buffer 0 2) = serviceId ∧ beNat (slice buffer 14 15) = 0x02 then
        .emit (beNat (slice buffer 2 4), slice buffer 16 (16 + (beNat (slice buffer 4 8) - 8)))
      else .drop := by
  rw [frameVerdict, if_neg (by omega), if_neg hlength, if_neg (by omega)]

/-- An undecided buffer is shorter than the longest frame. -/
theorem frameVerdict_wait_length {buffer : Bytes} (h : frameVerdict buffer = .wait) :
    buffer.length < 40 := by
  unfold frameVerdict at h
  dsimp only at h
  split_ifs at h <;> omega

/-- The checks on the header that every receiver makes. -/
structure Notification (packet : Bytes) : Prop where
  length : 8 ≤ beNat (slice packet 4 8) ∧ beNat (slice packet 4 8) ≤ 32
  service : beNat (slice packet 0 2) = serviceId
  type : beNat (slice packet 14 15) = 0x02

/-- A buffer with a frame that is reported. -/
structure Complete (buffer : Bytes) : Prop extends Notification buffer where
  size : 16 + (beNat (slice buffer 4 8) - 8) ≤ buffer.length

theorem frameVerdict_emit_iff {buffer : Bytes} {frame : Nat × Bytes} :
    frameVerdict buffer = .emit frame ↔ Complete buffer ∧
      frame = (beNat (slice buffer 2 4),
        slice buffer 16 (16 + (beNat (slice buffer 4 8) - 8))) := by
  constructor
  · intro h
    simp only [frameVerdict] at h
    split_ifs at h with hshort hlength hmore hvalid
    cases h
    exact ⟨⟨⟨by omega, hvalid.1, hvalid.2⟩, by omega⟩, rfl⟩
  · rintro ⟨⟨⟨hlength, hservice, htype⟩, hsize⟩, rfl⟩
    rw [frameVerdict_complete (by omega) hsize, if_pos ⟨hservice, htype⟩]

/-- A frame with a length in range is undecided as long as bytes of it are missing. -/
theorem frameVerdict_take {frame : Bytes}
    (hlength : ¬(beNat (slice frame 4 8) < 8 ∨ 32 < beNat (slice frame 4 8)))
    (hsize : frame.length = 16 + (beNat (slice frame 4 8) - 8)) {k : Nat} (hk : k < frame.length) :
    frameVerdict (frame.take k) = .wait := by
  have htake : (frame.take k).length = k := by
    rw [List.length_take]
    omega
  by_cases hshort : k < 16
  · exact frameVerdict_short (by omega)
  · have hfield := @slice_take frame 4 8 k (by omega)
    refine frameVerdict_incomplete (by omega) ?_ ?_ <;> rw [hfield] <;> omega

/-- The framer of the tunnel. -/
abbrev scanFrames (buffer : Bytes) (inputs : List (Option UInt8)) : Bytes × List (Nat × Bytes) :=
  Framer.scan frameVerdict buffer inputs

theorem scanFrames_append (buffer : Bytes) (front back : List (Option UInt8)) :
    scanFrames buffer (front ++ back) =
      ((scanFrames (scanFrames buffer front).1 back).1,
        (scanFrames buffer front).2 ++ (scanFrames (scanFrames buffer front).1 back).2) :=
  react_append _ _ _ _

/-! ### Gathering -/

/-- Bytes are kept while nothing is decided. -/
theorem scanFrames_undecided (buffer more : Bytes)
    (hwait : ∀ k, buffer.length < k → k ≤ buffer.length + more.length →
      frameVerdict ((buffer ++ more).take k) = .wait) :
    scanFrames buffer (more.map some) = (buffer ++ more, []) := by
  by_cases hmore : more = []
  · simp [hmore]
  · have hframe := Framer.scan_frame frameVerdict more buffer hmore
      (fun k hlow hhigh => hwait k hlow hhigh.le)
    have hpos : 0 < more.length := List.length_pos_of_ne_nil hmore
    have hlast := hwait (buffer.length + more.length) (by omega) (Nat.le_refl _)
    rw [List.take_of_length_le (by rw [List.length_append])] at hlast
    rw [hlast] at hframe
    exact hframe

/-- Below a header's worth of bytes nothing is decided. -/
theorem scanFrames_short (buffer more : Bytes) (h : buffer.length + more.length < 16) :
    scanFrames buffer (more.map some) = (buffer ++ more, []) :=
  scanFrames_undecided buffer more fun k _ hk =>
    frameVerdict_short (by rw [List.length_take]; omega)

/-- A header with a length out of range is discarded as soon as it is complete. -/
theorem scanFrames_badLength (buffer more : Bytes) {length : Nat} (hbuffer : buffer.length < 16)
    (hlong : buffer.length + more.length = 16)
    (hfield : beNat (slice (buffer ++ more) 4 8) = length) (hlength : length < 8 ∨ 32 < length) :
    scanFrames buffer (more.map some) = ([], []) := by
  have hframe := Framer.scan_frame frameVerdict more buffer
    (List.ne_nil_of_length_pos (by omega))
    (fun k _ hk => frameVerdict_short (by rw [List.length_take]; omega))
  rw [frameVerdict_badLength (by rw [List.length_append]; omega) (by rwa [hfield])] at hframe
  exact hframe

/-- A frame with a length in range is judged when its last byte arrives. -/
theorem scanFrames_frame (buffer more : Bytes) {length : Nat} (hbuffer : buffer.length < 16)
    (hfield : beNat (slice (buffer ++ more) 4 8) = length) (hlength : 8 ≤ length ∧ length ≤ 32)
    (htotal : buffer.length + more.length = 16 + (length - 8)) :
    scanFrames buffer (more.map some) =
      ([], if beNat (slice (buffer ++ more) 0 2) = serviceId ∧
            beNat (slice (buffer ++ more) 14 15) = 0x02
          then [(beNat (slice (buffer ++ more) 2 4), slice (buffer ++ more) 16 (16 + (length - 8)))]
          else []) := by
  subst hfield
  have hframe := Framer.scan_frame frameVerdict more buffer
    (List.ne_nil_of_length_pos (by omega))
    (fun k _ hk => frameVerdict_take (by omega) (by rw [List.length_append]; omega)
      (by rw [List.length_append]; omega))
  rw [frameVerdict_complete (by omega) (by rw [List.length_append]; omega)] at hframe
  rw [scanFrames, hframe]
  split <;> rfl

/-! ### The stream parser of the MPU -/

theorem parseEvent_toOption {packet : Bytes} (hlength : 8 ≤ beNat (slice packet 4 8))
    (htotal : 16 + (beNat (slice packet 4 8) - 8) ≤ packet.length) :
    (parseEvent packet).toOption =
      if beNat (slice packet 0 2) = serviceId ∧ beNat (slice packet 14 15) = 0x02 then
        some (beNat (slice packet 2 4), slice packet 16 (16 + (beNat (slice packet 4 8) - 8)))
      else none := by
  have hheader : (slice packet 0 16).length = 16 := by rw [slice_length]; omega
  rw [parseEvent, if_neg (by omega), structUnpackHeader, if_pos hheader]
  simp only [bind, Except.bind, slice_zero_take packet 16]
  rw [slice_take packet (show 2 ≤ 16 by omega), slice_take packet (show 4 ≤ 16 by omega),
    slice_take packet (show 8 ≤ 16 by omega), slice_take packet (show 15 ≤ 16 by omega)]
  by_cases hservice : beNat (slice packet 0 2) = serviceId
  · by_cases htype : beNat (slice packet 14 15) = 0x02
    · rw [if_neg (by simp [hservice]), if_neg (by simp [htype]), if_neg (by omega),
        if_pos ⟨hservice, htype⟩]
      have hpayload : ((beNat (slice packet 4 8) : Int) - 8).toNat = beNat (slice packet 4 8) - 8 := by
        omega
      rw [hpayload]
      rfl
    · rw [if_neg (by simp [hservice]), if_pos htype, if_neg (by simp [htype])]
      rfl
  · rw [if_pos hservice, if_neg (by simp [hservice])]
    rfl

theorem stale_reset_buf (parser : StreamParser) (now : ℚ) :
    (if parser.stale now then parser.reset else parser).buf =
      if parser.stale now then [] else parser.buf := by
  split <;> rfl

/-- `feed` is one step of the framer, after the resynchronisation it decides on. -/
theorem feed_refines (parser : StreamParser) (now tick : ℚ) (byte : UInt8) :
    ((parser.feed now tick byte.toNat).1.buf, (parser.feed now tick byte.toNat).2) =
      Framer.step frameVerdict (if parser.stale now then [] else parser.buf) (some byte) := by
  have hbyte : UInt8.ofNat (byte.toNat &&& 0xFF) = byte := by
    rw [Nat.and_two_pow_sub_one_eq_mod _ 8, Nat.mod_eq_of_lt byte.toNat_lt, UInt8.ofNat_toNat]
  simp only [StreamParser.feed, Framer.step, stale_reset_buf, hbyte, StreamParser.headerSize]
  generalize (if parser.stale now then [] else parser.buf) ++ [byte] = buffer
  by_cases hshort : buffer.length < 16
  · rw [if_pos hshort, frameVerdict_short hshort]
    rfl
  rw [if_neg hshort]
  by_cases hlength : beNat (slice buffer 4 8) < 8 ∨ 32 < beNat (slice buffer 4 8)
  · rw [if_pos hlength, frameVerdict_badLength (by omega) hlength]
    rfl
  rw [if_neg hlength]
  by_cases hmore : buffer.length < 16 + (beNat (slice buffer 4 8) - 8)
  · rw [if_pos hmore, frameVerdict_incomplete (by omega) hlength hmore]
    rfl
  rw [if_neg hmore, frameVerdict_complete hlength (by omega), slice_zero_take]
  have hlengthField := @slice_take buffer 4 8 (16 + (beNat (slice buffer 4 8) - 8)) (by omega)
  have hparse := @parseEvent_toOption (buffer.take (16 + (beNat (slice buffer 4 8) - 8)))
    (by rw [hlengthField]; omega) (by rw [hlengthField, List.length_take]; omega)
  rw [hlengthField, @slice_take _ 0 2 _ (by omega), @slice_take _ 14 15 _ (by omega),
    @slice_take _ 2 4 _ (by omega), slice_take _ (Nat.le_refl _)] at hparse
  cases hresult : parseEvent (buffer.take (16 + (beNat (slice buffer 4 8) - 8))) with
  | ok event =>
      rw [hresult] at hparse
      split at hparse
      next hvalid =>
        rw [if_pos hvalid]
        cases hparse
        rfl
      next => cases hparse
  | error error =>
      rw [hresult] at hparse
      split at hparse
      next => cases hparse
      next hinvalid =>
        rw [if_neg hinvalid]
        rfl

/-- A call leaves nothing and no tick, or its own tick. -/
theorem feed_lastTick (parser : StreamParser) (now tick : ℚ) (byte : Nat) :
    (parser.feed now tick byte).1.timeoutMs = parser.timeoutMs ∧
      ((parser.feed now tick byte).1.buf = [] ∧ (parser.feed now tick byte).1.lastTick = none ∨
        (parser.feed now tick byte).1.lastTick = some tick) := by
  have htimeout : (if parser.stale now then parser.reset else parser).timeoutMs = parser.timeoutMs := by
    split <;> rfl
  simp only [StreamParser.feed]
  generalize (if parser.stale now then parser.reset else parser) = resynced at htimeout
  split_ifs with hshort hlength hmore
  · exact ⟨htimeout, .inr rfl⟩
  · exact ⟨htimeout, .inl ⟨rfl, rfl⟩⟩
  · exact ⟨htimeout, .inr rfl⟩
  · split <;> exact ⟨htimeout, .inl ⟨rfl, rfl⟩⟩

/-- Any run of the stream parser is a run of the framer over the same bytes. -/
theorem feedBytes_refines (parser : StreamParser) (arrivals : List StreamParser.Arrival) :
    ∃ inputs, inputs.reduceOption = arrivals.map StreamParser.Arrival.byte ∧
      scanFrames parser.buf inputs = ((parser.feedBytes arrivals).1.buf, (parser.feedBytes arrivals).2) := by
  let resyncs (parser : StreamParser) (arrival : StreamParser.Arrival) : List (Option UInt8) :=
    (if parser.stale arrival.now then [none] else []) ++ [some arrival.byte]
  obtain ⟨hlast, hevents⟩ := react_refines
    (fun parser arrival => parser.feed arrival.now arrival.tick arrival.byte.toNat)
    (Framer.step frameVerdict) (fun _ => True) StreamParser.buf Eq resyncs
    (fun parser arrival _ => by
      have hstep := feed_refines parser arrival.now arrival.tick arrival.byte
      have hrun : scanFrames parser.buf (resyncs parser arrival) =
          ((Framer.step frameVerdict (if parser.stale arrival.now then [] else parser.buf)
              (some arrival.byte)).1,
            (Framer.step frameVerdict (if parser.stale arrival.now then [] else parser.buf)
              (some arrival.byte)).2.toList) := by
        simp only [resyncs]
        split
        · simp [react_cons, Framer.step]
        · simp [react_cons]
      rw [← hstep] at hrun
      rw [scanFrames, Framer.scan] at hrun
      rw [hrun]
      exact ⟨trivial, rfl, List.forall₂_refl _⟩)
    parser arrivals trivial
  refine ⟨_, ?_, Prod.ext hlast (List.forall₂_eq_eq_eq ▸ hevents).symm⟩
  rw [translate_reduceOption _ resyncs (fun arrival => [arrival.byte])]
  · exact List.flatMap_pure_eq_map _ _
  · intro parser arrival
    simp only [resyncs]
    split <;> rfl

theorem not_stale_of_tick {parser : StreamParser} {now tick : ℚ}
    (htick : parser.lastTick = none ∨ parser.lastTick = some tick)
    (hpause : now - tick ≤ (parser.timeoutMs : ℚ) / 1000) : parser.stale now = false := by
  rcases htick with h | h
  · rw [StreamParser.stale, h]
  · simp only [StreamParser.stale, h, not_lt.mpr hpause, decide_false, Bool.and_false]

/-- Without pauses the parser never resynchronises by its clock. -/
theorem feedBytes_unpaused (parser : StreamParser) (arrivals : List StreamParser.Arrival)
    (hfirst : ∀ arrival ∈ arrivals.head?, parser.stale arrival.now = false)
    (hunpaused : StreamParser.Unpaused parser.timeoutMs arrivals) :
    scanFrames parser.buf ((arrivals.map StreamParser.Arrival.byte).map some) =
      ((parser.feedBytes arrivals).1.buf, (parser.feedBytes arrivals).2) := by
  induction arrivals generalizing parser with
  | nil => rfl
  | cons arrival rest ih =>
      have hstep := feed_refines parser arrival.now arrival.tick arrival.byte
      rw [hfirst arrival rfl, if_neg Bool.false_ne_true] at hstep
      obtain ⟨htimeout, htick⟩ := feed_lastTick parser arrival.now arrival.tick arrival.byte.toNat
      have htail := ih (parser.feed arrival.now arrival.tick arrival.byte.toNat).1
        (fun next hnext => by
          refine not_stale_of_tick (htick.imp_left And.right) ?_
          rw [htimeout]
          obtain ⟨later, rfl⟩ := List.head?_eq_some_iff.mp hnext
          exact (List.isChain_cons_cons.mp hunpaused).1)
        (by rw [htimeout]; exact hunpaused.tail)
      rw [List.map_cons, List.map_cons, scanFrames, Framer.scan, react_cons, ← hstep]
      simp only [StreamParser.feedBytes, react_cons]
      obtain ⟨hbuf, hevents⟩ := Prod.mk.inj htail
      refine Prod.ext hbuf ?_
      exact congrArg ((parser.feed arrival.now arrival.tick arrival.byte.toNat).2.toList ++ ·) hevents

end SdvZone.Uart
