import SdvZone.UartReceiver

/-! Lines as the receiver of the MCU reads them: what it has gathered after a line without pauses,
and how a frame that is gathered from an empty buffer lies in `rx_buf`, before whatever the frames
before it have left there. -/

namespace SdvZone.Uart

open Wire Machine Mpu

/-! ### The clock -/

namespace LineInput

def clock : LineInput → Nat
  | check now => now
  | byte tick _ => tick

def tick? : LineInput → Option Nat
  | check _ => none
  | byte tick _ => some tick

def byte? : LineInput → Option UInt8
  | check _ => none
  | byte _ received => some received

end LineInput

def lineTicks (inputs : List LineInput) : List Nat := inputs.filterMap LineInput.tick?

def inputBytes (inputs : List LineInput) : Bytes := inputs.filterMap LineInput.byte?

/-- The clock does not run backwards, and no two consecutive bytes are read over 50 ms apart. -/
structure Unpaused (inputs : List LineInput) : Prop where
  sorted : (inputs.map LineInput.clock).Pairwise (· ≤ ·)
  close : (lineTicks inputs).IsChain fun earlier later => later ≤ earlier + 50

def LineUnpaused (line : List Mcu.UartRound) : Prop := Unpaused (lineInputs line)

theorem inputBytes_byteInputs (bytes : List (Nat × UInt8)) :
    inputBytes (byteInputs bytes) = bytes.map Prod.snd := by
  rw [inputBytes, byteInputs, List.filterMap_map, ← List.filterMap_eq_map]
  rfl

theorem inputBytes_lineInputs (line : List Mcu.UartRound) :
    inputBytes (lineInputs line) = lineBytes line := by
  induction line with
  | nil => rfl
  | cons round rest ih =>
      rw [lineInputs_cons, inputBytes, List.filterMap_cons_none rfl, List.filterMap_append]
      exact congrArg₂ (· ++ ·) (inputBytes_byteInputs round.bytes) ih

theorem lineInputs_append (front back : List Mcu.UartRound) :
    lineInputs (front ++ back) = lineInputs front ++ lineInputs back := List.flatMap_append

/-- One more byte in the last round. -/
theorem lineInputs_snoc (front : List Mcu.UartRound) (now : Nat) (bytes : List (Nat × UInt8))
    (tick : Nat) (byte : UInt8) :
    lineInputs (front ++ [⟨now, bytes ++ [(tick, byte)]⟩]) =
      lineInputs (front ++ [⟨now, bytes⟩]) ++ [.byte tick byte] := by
  rw [lineInputs_append, lineInputs_append, List.append_assoc]
  simp [lineInputs, byteInputs]

theorem lineBytes_snoc (front : List Mcu.UartRound) (now : Nat) (bytes : List (Nat × UInt8))
    (tick : Nat) (byte : UInt8) :
    lineBytes (front ++ [⟨now, bytes ++ [(tick, byte)]⟩]) =
      inputBytes (lineInputs (front ++ [⟨now, bytes⟩])) ++ [byte] := by
  rw [← inputBytes_lineInputs, lineInputs_snoc, inputBytes, List.filterMap_append]
  rfl

/-! ### Lines without pauses -/

theorem clock_of_tick {inputs : List LineInput} {tick : Nat} (h : tick ∈ lineTicks inputs) :
    tick ∈ inputs.map LineInput.clock := by
  obtain ⟨input, hinput, htick⟩ := List.mem_filterMap.mp h
  refine List.mem_map.mpr ⟨input, hinput, ?_⟩
  cases input with
  | check _ => cases htick
  | byte _ _ => exact Option.some.inj htick

/-- No look at the clock before the next byte clears the buffer. -/
theorem resync_calm {rx : Mcu.UartRx} {now next : Nat} (hnow : now ≤ next)
    (hnext : 0 < rx.rxLen → next ≤ rx.lastRxTick + 50) : rx.resync now = rx := by
  rw [Mcu.UartRx.resync, if_neg (by omega)]

/-- Ahead of a byte that comes in time, the receiver runs the framer over the bytes alone. -/
theorem react_calm (body : List LineInput) (tick : Nat) (byte : UInt8)
    (hunpaused : Unpaused (body ++ [.byte tick byte])) (rx : Mcu.UartRx) (hgather : Gathering rx)
    (hfirst : 0 < rx.rxLen → ∀ next ∈ (lineTicks (body ++ [.byte tick byte])).head?,
      next ≤ rx.lastRxTick + 50) :
    Gathering (react lineStep rx body).1 ∧
      received (react lineStep rx body).1 =
        (scanFrames (received rx) ((inputBytes body).map some)).1 := by
  induction body generalizing rx with
  | nil => exact ⟨hgather, rfl⟩
  | cons input rest ih =>
      have hrest : Unpaused (rest ++ [.byte tick byte]) :=
        ⟨hunpaused.sorted.tail, by
          cases input with
          | check now => exact hunpaused.close
          | byte earlier _ => exact hunpaused.close.tail⟩
      have hticks : lineTicks (rest ++ [.byte tick byte]) ≠ [] := by
        rw [lineTicks, List.filterMap_append]
        exact List.append_ne_nil_of_right_ne_nil _ (List.cons_ne_nil _ _)
      obtain ⟨next, later, hnext⟩ := List.exists_cons_of_ne_nil hticks
      cases input with
      | check now =>
          have hread : next ∈ (rest ++ [LineInput.byte tick byte]).map LineInput.clock :=
            clock_of_tick (hnext ▸ List.mem_cons_self)
          have hnow : now ≤ next := (List.pairwise_cons.mp hunpaused.sorted).1 next hread
          have hcalm : rx.resync now = rx :=
            resync_calm hnow fun hpartial => hfirst hpartial next (by
              show next ∈ (lineTicks (rest ++ [.byte tick byte])).head?
              rw [hnext]
              rfl)
          rw [react_cons, lineStep, hcalm]
          exact ih hrest rx hgather hfirst
      | byte earlier received =>
          obtain ⟨hgather', hreceived, -⟩ := receiveByte_refines rx earlier received hgather
          have hlater := ih hrest (rx.receiveByte earlier received).1 hgather' (by
            intro _ following hfollowing
            rw [hnext] at hfollowing
            cases hfollowing
            rw [receiveByte_lastRxTick]
            have hclose : (earlier :: lineTicks (rest ++ [.byte tick byte])).IsChain
                fun earlier later => later ≤ earlier + 50 := hunpaused.close
            rw [hnext] at hclose
            exact (List.isChain_cons_cons.mp hclose).1)
          rw [← hreceived] at hlater
          exact hlater

/-- Bytes that are read at one time. -/
def roundOf (now : Nat) (bytes : Bytes) : Mcu.UartRound := ⟨now, bytes.map fun byte => (now, byte)⟩

theorem lineBytes_roundOf (now : Nat) (bytes : Bytes) : lineBytes [roundOf now bytes] = bytes := by
  simp [lineBytes, roundOf]

theorem lineUnpaused_roundOf (now : Nat) (bytes : Bytes) : LineUnpaused [roundOf now bytes] := by
  have hinputs : lineInputs [roundOf now bytes] =
      .check now :: bytes.map fun byte => .byte now byte := by
    simp [lineInputs, roundOf, byteInputs]
  rw [LineUnpaused, hinputs]
  constructor
  · refine List.pairwise_of_forall_mem_list fun first hfirst second hsecond => ?_
    have hnow : ∀ clock ∈ (LineInput.check now :: bytes.map fun byte => .byte now byte).map
        LineInput.clock, clock = now := by
      simp [LineInput.clock]
    rw [hnow first hfirst, hnow second hsecond]
  · have hticks : lineTicks (.check now :: bytes.map fun byte => .byte now byte) =
        bytes.map fun _ => now := by
      rw [lineTicks, List.filterMap_cons_none rfl, List.filterMap_map, ← List.filterMap_eq_map]
      rfl
    rw [hticks, List.map_const']
    exact List.isChain_replicate_of_rel _ (Nat.le_add_right _ _)

/-! ### Frames in the buffer -/

/-- What has been received is undecided, and as long as nothing of the input has been dropped, the
buffer begins with the whole of it and has not changed behind it. -/
structure Gathered (old : Vector UInt8 64) (inputs : List LineInput) (rx : Mcu.UartRx)
    (events : List Mcu.UartEvent) : Prop where
  waits : frameVerdict (received rx) = .wait
  fits : rx.rxLen ≤ 64
  le : rx.rxLen ≤ (inputBytes inputs).length
  whole : rx.rxLen = (inputBytes inputs).length → events = [] ∧
    rx.rxBuf.toList = inputBytes inputs ++ old.toList.drop (inputBytes inputs).length

theorem Gathered.gathering {old : Vector UInt8 64} {inputs : List LineInput} {rx : Mcu.UartRx}
    {events : List Mcu.UartEvent} (h : Gathered old inputs rx events) : rx.rxLen < 40 := by
  have hlength := received_length rx h.fits
  have hshort := frameVerdict_wait_length h.waits
  omega

/-- An empty buffer has dropped something, unless nothing has been read. -/
theorem gathered_empty {old : Vector UInt8 64} {inputs : List LineInput} {rx : Mcu.UartRx}
    {events : List Mcu.UartEvent} (hempty : rx.rxLen = 0) (hread : inputBytes inputs ≠ []) :
    Gathered old inputs rx events where
  waits := by
    rw [received, hempty, List.take_zero]
    rfl
  fits := by omega
  le := by omega
  whole := by
    intro h
    rw [hempty] at h
    exact absurd (List.eq_nil_of_length_eq_zero h.symm) hread

/-- The buffer with one more byte. -/
theorem store_toList {rx : Mcu.UartRx} {front rest : Bytes} (h : ¬64 ≤ rx.rxLen)
    (hlen : rx.rxLen = front.length) (hbuf : rx.rxBuf.toList = front ++ rest.drop front.length)
    (byte : UInt8) :
    (rx.store byte h).rxBuf.toList = (front ++ [byte]) ++ rest.drop (front ++ [byte]).length := by
  have hsize := congrArg List.length hbuf
  rw [Vector.length_toList, List.length_append, List.length_drop] at hsize
  have hrest : rest.drop front.length = rest[front.length] :: rest.drop (front.length + 1) :=
    List.drop_eq_getElem_cons (by omega)
  rw [Mcu.UartRx.store, Vector.toList_set, hbuf, hlen, List.set_append_right _ _ (Nat.le_refl _),
    Nat.sub_self, hrest, List.set_cons_zero, List.append_assoc, List.length_append]
  rfl

theorem gathered_step (old : Vector UInt8 64) (inputs : List LineInput) (rx : Mcu.UartRx)
    (events : List Mcu.UartEvent) (input : LineInput) (h : Gathered old inputs rx events) :
    Gathered old (inputs ++ [input]) (lineStep rx input).1
      (events ++ (lineStep rx input).2.toList) := by
  cases input with
  | check now =>
      have hbytes : inputBytes (inputs ++ [.check now]) = inputBytes inputs := by
        rw [inputBytes, List.filterMap_append]
        exact List.append_nil _
      rw [lineStep, Option.toList_none, List.append_nil, Mcu.UartRx.resync]
      split
      next hpause =>
        refine gathered_empty rfl ?_
        rw [hbytes]
        exact List.ne_nil_of_length_pos (lt_of_lt_of_le hpause.1 h.le)
      next => exact ⟨h.waits, h.fits, hbytes ▸ h.le, hbytes ▸ h.whole⟩
  | byte tick byte =>
      have hbytes : inputBytes (inputs ++ [.byte tick byte]) = inputBytes inputs ++ [byte] := by
        rw [inputBytes, List.filterMap_append]
        rfl
      have hshort := h.gathering
      have hread : inputBytes (inputs ++ [.byte tick byte]) ≠ [] := by
        rw [hbytes]
        exact List.append_ne_nil_of_right_ne_nil _ (List.cons_ne_nil _ _)
      have hroom : ¬64 ≤ ({ rx with lastRxTick := tick } : Mcu.UartRx).rxLen := by
        show ¬64 ≤ rx.rxLen
        omega
      have hle := h.le
      rw [lineStep, Mcu.UartRx.receiveByte, dif_neg hroom,
        examine_eq _ (show rx.rxLen + 1 ≤ 64 by omega)]
      cases hverdict : frameVerdict (received (Mcu.UartRx.store { rx with lastRxTick := tick } byte
        hroom)) with
      | wait =>
          refine ⟨hverdict, show rx.rxLen + 1 ≤ 64 by omega, ?_, ?_⟩
          · rw [hbytes, List.length_append, List.length_singleton]
            exact Nat.succ_le_succ hle
          · rw [hbytes]
            intro hlen
            rw [List.length_append, List.length_singleton] at hlen
            have hwhole : rx.rxLen = (inputBytes inputs).length := Nat.succ.inj hlen
            obtain ⟨hevents, hbuf⟩ := h.whole hwhole
            rw [hevents]
            exact ⟨rfl, store_toList hroom hwhole hbuf byte⟩
      | drop => exact gathered_empty rfl hread
      | emit frame => exact gathered_empty rfl hread

/-- From an empty buffer on. -/
theorem gathered_run {rx : Mcu.UartRx} (hempty : rx.rxLen = 0) (inputs : List LineInput) :
    Gathered rx.rxBuf inputs (react lineStep rx inputs).1 (react lineStep rx inputs).2 := by
  refine react_induction lineStep rx (Gathered rx.rxBuf) ⟨?_, by omega, by omega, ?_⟩
    (gathered_step rx.rxBuf) inputs
  · rw [received, hempty, List.take_zero]
    rfl
  · intro _
    exact ⟨rfl, rfl⟩

/-! ### One frame -/

/-- A frame that is reported, with its last byte. -/
def EventFrame (frame : Bytes) : Prop :=
  Complete frame ∧ frame.length = 16 + (beNat (slice frame 4 8) - 8)

/-- What is handed to the caller for a frame: the byte behind the header is the frame's, or else one
that has been in the buffer before. -/
def eventOf (old : Vector UInt8 64) (frame : Bytes) : Mcu.UartEvent :=
  (beNat (slice frame 2 4), getU8 (frame ++ old.toList.drop frame.length) 16)

theorem eventOf_payload (old : Vector UInt8 64) {frame : Bytes} (h : 16 < frame.length) :
    eventOf old frame = (beNat (slice frame 2 4), getU8 frame 16) := by
  rw [eventOf, getU8_append_left _ h]

theorem eventOf_header (old : Vector UInt8 64) {frame : Bytes} (h : frame.length = 16) :
    eventOf old frame = (beNat (slice frame 2 4), getU8 old.toList 16) := by
  rw [eventOf, getU8, List.getD_eq_getElem?_getD, List.getElem?_append_right h.le, h, Nat.sub_self,
    List.getElem?_drop, getU8, List.getD_eq_getElem?_getD]

/-- The line is accepted with its last byte, before which nothing of it has been dropped. -/
def AcceptsLine (rx : Mcu.UartRx) (line : List Mcu.UartRound) (event : Mcu.UartEvent) : Prop :=
  ∃ front now bytes tick byte, line = front ++ [⟨now, bytes ++ [(tick, byte)]⟩] ∧
    (Mcu.someipUartCalls rx (front ++ [⟨now, bytes⟩])).1.rxLen + 1 = (lineBytes line).length ∧
    (Mcu.someipUartCalls rx line).2 = [event]

/-- A frame is complete no sooner than its length field says. -/
theorem complete_exact {front : Bytes} {byte : UInt8} (hwaits : frameVerdict front = .wait)
    (hcomplete : Complete (front ++ [byte])) : EventFrame (front ++ [byte]) := by
  refine ⟨hcomplete, Nat.le_antisymm ?_ hcomplete.size⟩
  by_contra hlonger
  rw [List.length_append, List.length_singleton] at hlonger
  have hfield : slice (front ++ [byte]) 4 8 = slice front 4 8 :=
    slice_append_left _ _ (by omega)
  have hlength := hcomplete.length
  rw [hfield] at hlonger hlength
  rw [frameVerdict_complete (by omega) (by omega)] at hwaits
  split at hwaits <;> cases hwaits

/-- The last byte of a line of which nothing has been dropped. -/
theorem receiveByte_last {rx : Mcu.UartRx} (hempty : rx.rxLen = 0) (body : List LineInput)
    (hwhole : (react lineStep rx body).1.rxLen = (inputBytes body).length) (tick : Nat) (byte : UInt8)
    (event : Mcu.UartEvent) :
    ((react lineStep rx body).1.receiveByte tick byte).2 = some event ↔
      EventFrame (inputBytes body ++ [byte]) ∧
        event = eventOf rx.rxBuf (inputBytes body ++ [byte]) := by
  have hgathered := gathered_run hempty body
  have hshort := hgathered.gathering
  obtain ⟨-, hbuf⟩ := hgathered.whole hwhole
  have hwaits := hgathered.waits
  generalize (react lineStep rx body).1 = last at *
  generalize inputBytes body = front at *
  have hroom : ¬64 ≤ last.rxLen := by omega
  have hfront : received last = front := by rw [received, hbuf, List.take_left' hwhole.symm]
  have hstore := store_toList hroom hwhole hbuf byte
  rw [Mcu.UartRx.store, Vector.toList_set] at hstore
  rw [hfront] at hwaits
  rw [receiveByte_event_iff, hfront, eventOf, ← hstore]
  constructor
  · rintro ⟨-, hcomplete, hevent⟩
    exact ⟨complete_exact hwaits hcomplete, hevent⟩
  · rintro ⟨hframe, hevent⟩
    exact ⟨not_le.mp hroom, hframe.1, hevent⟩

/-- What is accepted as one frame is one. -/
theorem eventFrame_of_acceptsLine {rx : Mcu.UartRx} (hempty : rx.rxLen = 0)
    {line : List Mcu.UartRound} {event : Mcu.UartEvent} (h : AcceptsLine rx line event) :
    EventFrame (lineBytes line) ∧ event = eventOf rx.rxBuf (lineBytes line) := by
  obtain ⟨front, now, bytes, tick, byte, rfl, hlen, hevents⟩ := h
  have hbytes := lineBytes_snoc front now bytes tick byte
  rw [hbytes, List.length_append, List.length_singleton] at hlen
  rw [someipUartCalls_eq] at hlen hevents
  rw [lineInputs_snoc, react_snoc] at hevents
  have hwhole := Nat.succ.inj hlen
  obtain ⟨hbefore, -⟩ := (gathered_run hempty _).whole hwhole
  rw [hbefore, List.nil_append] at hevents
  rw [hbytes]
  exact (receiveByte_last hempty _ hwhole tick byte event).mp (toList_inj hevents)

/-- Without pauses all but the last byte of a frame is in the buffer when that one comes. -/
theorem react_eventFrame {rx : Mcu.UartRx} (hempty : rx.rxLen = 0) (body : List LineInput)
    (tick : Nat) (byte : UInt8) (hunpaused : Unpaused (body ++ [.byte tick byte]))
    (hframe : EventFrame (inputBytes body ++ [byte])) :
    (react lineStep rx body).1.rxLen = (inputBytes body).length := by
  obtain ⟨hgather, hreceived⟩ := react_calm body tick byte hunpaused rx
    (by rw [Gathering, hempty]; decide) (fun hpartial => absurd hpartial (by omega))
  have hstart : received rx = [] := by rw [received, hempty, List.take_zero]
  have hlength := hframe.1.length
  have hscan := scanFrames_undecided [] (inputBytes body) (fun k _ hk => by
    rw [List.length_nil, Nat.zero_add] at hk
    rw [List.nil_append, ← List.take_append_of_le_length hk]
    refine frameVerdict_take (by omega) hframe.2 ?_
    rw [List.length_append, List.length_singleton]
    exact Nat.lt_succ_of_le hk)
  rw [hstart, hscan] at hreceived
  have hlen := congrArg List.length hreceived
  rw [received_length _ (by rw [Gathering] at hgather; omega)] at hlen
  exact hlen

/-- A frame that arrives without pauses is accepted as one. -/
theorem acceptsLine_of_eventFrame {rx : Mcu.UartRx} (hempty : rx.rxLen = 0)
    (front : List Mcu.UartRound) (now : Nat) (bytes : List (Nat × UInt8)) (tick : Nat) (byte : UInt8)
    (hunpaused : LineUnpaused (front ++ [⟨now, bytes ++ [(tick, byte)]⟩]))
    (hframe : EventFrame (lineBytes (front ++ [⟨now, bytes ++ [(tick, byte)]⟩]))) :
    AcceptsLine rx (front ++ [⟨now, bytes ++ [(tick, byte)]⟩])
      (eventOf rx.rxBuf (lineBytes (front ++ [⟨now, bytes ++ [(tick, byte)]⟩]))) := by
  rw [lineBytes_snoc] at hframe
  rw [LineUnpaused, lineInputs_snoc] at hunpaused
  have hwhole := react_eventFrame hempty _ tick byte hunpaused hframe
  have hlast := (receiveByte_last hempty _ hwhole tick byte _).mpr ⟨hframe, rfl⟩
  refine ⟨front, now, bytes, tick, byte, rfl, ?_, ?_⟩
  · rw [someipUartCalls_eq, hwhole, lineBytes_snoc, List.length_append, List.length_singleton]
  · rw [someipUartCalls_eq, lineInputs_snoc, react_snoc, ((gathered_run hempty _).whole hwhole).1,
      List.nil_append, lineBytes_snoc, lineStep, hlast, Option.toList_some]

end SdvZone.Uart
