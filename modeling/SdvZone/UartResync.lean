import SdvZone.UartSameMachine

/-! The stream parser after silence. Whatever it has gathered, a pause longer than the timeout makes
the next byte the first one of a frame. -/

namespace SdvZone.Uart

open Wire Machine Mpu

/-- A partial frame has the tick of the byte fed last. -/
theorem feedBytes_tick (parser : StreamParser) (hempty : parser.buf = [])
    (history : List StreamParser.Arrival) :
    (parser.feedBytes history).1.timeoutMs = parser.timeoutMs ∧
      ((parser.feedBytes history).1.buf = [] ∨
        ∃ last ∈ history.getLast?, (parser.feedBytes history).1.lastTick = some last.tick) := by
  refine react_induction _ parser (fun history reached _ => reached.timeoutMs = parser.timeoutMs ∧
    (reached.buf = [] ∨ ∃ last ∈ history.getLast?, reached.lastTick = some last.tick)) ?_ ?_ history
  · exact ⟨rfl, Or.inl hempty⟩
  · intro history mid _ arrival hmid
    obtain ⟨htimeout, hreset | htick⟩ := feed_lastTick mid arrival.now arrival.tick arrival.byte.toNat
    · exact ⟨htimeout.trans hmid.1, Or.inl hreset.1⟩
    · exact ⟨htimeout.trans hmid.1, Or.inr ⟨arrival, List.getLast?_concat .., htick⟩⟩

/-- The parser `feed` goes on with after its look at the clock. -/
def afterPause (parser : StreamParser) (now : ℚ) : StreamParser :=
  if parser.stale now then parser.reset else parser

theorem feed_afterPause (parser : StreamParser) (now tick : ℚ) (byte : Nat) :
    (afterPause parser now).feed now tick byte = parser.feed now tick byte := by
  rw [afterPause]
  by_cases hstale : parser.stale now
  · have hreset : parser.reset.stale now = false := rfl
    rw [if_pos hstale, StreamParser.feed, StreamParser.feed, if_pos hstale, hreset]
    rfl
  · rw [if_neg hstale]

theorem feedBytes_afterPause (parser : StreamParser) (arrival : StreamParser.Arrival)
    (rest : List StreamParser.Arrival) :
    (afterPause parser arrival.now).feedBytes (arrival :: rest) = parser.feedBytes (arrival :: rest) := by
  rw [StreamParser.feedBytes, StreamParser.feedBytes, react_cons, react_cons, feed_afterPause]

/-- The pause empties the buffer, if it is not empty already. -/
theorem afterPause_buf {parser : StreamParser} {now : ℚ}
    (h : parser.buf = [] ∨ ∃ tick, parser.lastTick = some tick ∧ (parser.timeoutMs : ℚ) / 1000 < now - tick) :
    (afterPause parser now).buf = [] := by
  rw [afterPause, stale_reset_buf]
  rcases h with hempty | ⟨tick, htick, hpause⟩
  · rw [hempty, ite_self]
  · by_cases hempty : parser.buf = []
    · rw [hempty, ite_self]
    · have hpartial : parser.buf.isEmpty = false := by simpa using hempty
      have hstale : parser.stale now = true := by
        simp only [StreamParser.stale, htick, hpartial, decide_eq_true hpause]
        rfl
      rw [hstale, if_pos rfl]

/-- Inside a frame nothing is decided, and its last byte completes it. -/
theorem step_frame {frame : Bytes} {event : Nat × Bytes} (hframe : parseEvent frame = .ok event)
    (hlength : 8 ≤ beNat (slice frame 4 8) ∧ beNat (slice frame 4 8) ≤ 32)
    (hsize : frame.length = 16 + (beNat (slice frame 4 8) - 8)) {front back : Bytes} {byte : UInt8}
    (hbytes : frame = front ++ byte :: back) :
    Framer.step frameVerdict (scanFrames [] (front.map some)).1 (some byte) =
      if back = [] then ([], some event) else (front ++ [byte], none) := by
  have hwait : ∀ k < frame.length, frameVerdict (frame.take k) = .wait :=
    fun k hk => frameVerdict_take (by omega) hsize hk
  have hfront : front.length < frame.length := by
    rw [hbytes, List.length_append, List.length_cons]
    omega
  have hgathered : scanFrames [] (front.map some) = (front, []) := by
    apply scanFrames_undecided
    intro k _ hk
    rw [List.length_nil, Nat.zero_add] at hk
    have htake : front.take k = frame.take k := by
      rw [hbytes, List.take_append_of_le_length hk]
    rw [List.nil_append, htake]
    exact hwait k (by omega)
  rw [hgathered, Framer.step]
  by_cases hlast : back = []
  · have hall : front ++ [byte] = frame := by rw [hbytes, hlast]
    have hparse := parseEvent_toOption hlength.1 hsize.ge
    rw [hframe] at hparse
    rw [if_pos hlast, hall, frameVerdict_complete (by omega) hsize.ge]
    split at hparse
    next hvalid =>
      rw [if_pos hvalid]
      cases hparse
      rfl
    next => cases hparse
  · have hpart : front ++ [byte] = frame.take (front.length + 1) := by
      rw [hbytes, List.take_length_add_append]
      rfl
    have hmore : front.length + 1 < frame.length := by
      have hpos := List.length_pos_of_ne_nil hlast
      rw [hbytes, List.length_append, List.length_cons]
      omega
    rw [if_neg hlast, hpart, hwait _ hmore]
    rfl

/-- A parser with an empty buffer, fed a frame without pauses. -/
theorem feedBytes_frame {parser : StreamParser} (hempty : parser.buf = [])
    {arrivals : List StreamParser.Arrival} {event : Nat × Bytes}
    (hframe : parseEvent (arrivals.map StreamParser.Arrival.byte) = .ok event)
    (hlength : 8 ≤ beNat (slice (arrivals.map StreamParser.Arrival.byte) 4 8) ∧
      beNat (slice (arrivals.map StreamParser.Arrival.byte) 4 8) ≤ 32)
    (hsize : arrivals.length = 16 + (beNat (slice (arrivals.map StreamParser.Arrival.byte) 4 8) - 8))
    (hunpaused : StreamParser.Unpaused parser.timeoutMs arrivals)
    {front back : List StreamParser.Arrival} {arrival : StreamParser.Arrival}
    (hsplit : arrivals = front ++ arrival :: back) :
    ((parser.feedBytes (front ++ [arrival])).1.buf,
      ((parser.feedBytes front).1.feed arrival.now arrival.tick arrival.byte.toNat).2) =
        if back = [] then ([], some event)
        else (front.map StreamParser.Arrival.byte ++ [arrival.byte], none) := by
  have hfirst : StreamParser.Unpaused parser.timeoutMs (front ++ [arrival]) := by
    rw [hsplit, List.append_cons] at hunpaused
    exact hunpaused.left_of_append
  have hbytes : arrivals.map StreamParser.Arrival.byte = front.map StreamParser.Arrival.byte ++
      arrival.byte :: back.map StreamParser.Arrival.byte := by
    rw [hsplit, List.map_append, List.map_cons]
  rw [feed_unpaused parser hempty front arrival hfirst,
    step_frame hframe hlength (by rw [List.length_map, hsize]) hbytes]
  simp only [List.map_eq_nil_iff]

/-- After a pause the parser reports the frame with its last byte and nothing before, whatever bytes
it has been fed until then. -/
theorem resynchronises (timeoutMs : Nat) (history arrivals : List StreamParser.Arrival) (frame : Bytes)
    (event : Nat × Bytes) (hframe : parseEvent frame = .ok event)
    (hlength : 8 ≤ beNat (slice frame 4 8) ∧ beNat (slice frame 4 8) ≤ 32)
    (hsize : frame.length = 16 + (beNat (slice frame 4 8) - 8))
    (hbytes : arrivals.map StreamParser.Arrival.byte = frame)
    (hpause : ∀ first ∈ arrivals.head?, ∀ last ∈ history.getLast?,
      (timeoutMs : ℚ) / 1000 < first.now - last.tick)
    (hunpaused : StreamParser.Unpaused timeoutMs arrivals) :
    (∀ front arrival back, arrivals = front ++ arrival :: back →
      ((((StreamParser.init timeoutMs).feedBytes history).1.feedBytes front).1.feed arrival.now
          arrival.tick arrival.byte.toNat).2 = if back = [] then some event else none) ∧
      (((StreamParser.init timeoutMs).feedBytes history).1.feedBytes arrivals).1.buf = [] := by
  obtain ⟨htimeout, htick⟩ := feedBytes_tick (.init timeoutMs) rfl history
  generalize ((StreamParser.init timeoutMs).feedBytes history).1 = parser at htimeout htick ⊢
  subst hbytes
  rw [List.length_map] at hsize
  cases arrivals with
  | nil => cases hsize
  | cons first rest =>
      have hempty : (afterPause parser first.now).buf = [] := by
        apply afterPause_buf
        refine htick.imp_right ?_
        rintro ⟨last, hlast, htick⟩
        rw [htimeout]
        exact ⟨last.tick, htick, hpause first rfl last hlast⟩
      have hkept : (afterPause parser first.now).timeoutMs = timeoutMs := by
        rw [afterPause]
        split <;> exact htimeout
      rw [← hkept] at hunpaused
      refine ⟨fun front arrival back hsplit => ?_, ?_⟩
      · have hread := congrArg Prod.snd (feedBytes_frame hempty hframe hlength hsize hunpaused hsplit)
        have hevent : (if back = [] then (([] : Bytes), some event)
            else (front.map StreamParser.Arrival.byte ++ [arrival.byte], none)).2 =
              if back = [] then some event else none := by
          split <;> rfl
        rw [hevent] at hread
        rw [← hread]
        cases front with
        | nil =>
            obtain ⟨rfl, -⟩ := List.cons_eq_cons.mp hsplit
            exact congrArg Prod.snd (feed_afterPause parser first.now first.tick first.byte.toNat).symm
        | cons next front =>
            obtain ⟨rfl, -⟩ := List.cons_eq_cons.mp hsplit
            rw [feedBytes_afterPause]
      · have hsplit := (List.dropLast_concat_getLast (List.cons_ne_nil first rest)).symm
        have hread := congrArg Prod.fst (feedBytes_frame hempty hframe hlength hsize hunpaused hsplit)
        rw [← hsplit, feedBytes_afterPause, if_pos rfl] at hread
        exact hread

/-- Two bytes of a frame, a second of silence, and a heartbeat. -/
theorem resynchronises_heartbeat :
    (∀ front arrival back, (heartbeatHead ++ [7]).map (StreamParser.Arrival.mk 1 1) =
        front ++ arrival :: back →
      ((((StreamParser.init 50).feedBytes [⟨0, 0, 0x12⟩, ⟨0, 0, 0x34⟩]).1.feedBytes front).1.feed
          arrival.now arrival.tick arrival.byte.toNat).2 =
        if back = [] then some (0x8002, [7]) else none) ∧
      (((StreamParser.init 50).feedBytes [⟨0, 0, 0x12⟩, ⟨0, 0, 0x34⟩]).1.feedBytes
        ((heartbeatHead ++ [7]).map (StreamParser.Arrival.mk 1 1))).1.buf = [] := by
  refine resynchronises 50 [⟨0, 0, 0x12⟩, ⟨0, 0, 0x34⟩]
    ((heartbeatHead ++ [7]).map (StreamParser.Arrival.mk 1 1)) (heartbeatHead ++ [7]) (0x8002, [7])
    (by decide +kernel) (by decide) (by decide) rfl ?_ (by unfold StreamParser.Unpaused; decide +kernel)
  intro first hfirst last hlast
  cases hfirst
  cases hlast
  norm_num

end SdvZone.Uart
