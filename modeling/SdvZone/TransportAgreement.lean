import SdvZone.UartLines
import SdvZone.UdpReceiver

/-! The two halves of `someip_receive` on the same bytes. Both check the header alike. Over UDP the
length field is not compared with the size of the datagram, and the byte behind the header is the
payload even when the length field says that there is none. -/

namespace SdvZone.Uart

open Wire Machine Mpu

/-! ### Cutting a line -/

/-- A line can be cut behind any of its bytes. -/
theorem cut_line (rounds : List Mcu.UartRound) (n : Nat) (h : n < (lineBytes rounds).length) :
    ∃ front now bytes tick byte,
      lineInputs (front ++ [⟨now, bytes ++ [(tick, byte)]⟩]) <+: lineInputs rounds ∧
      lineBytes (front ++ [⟨now, bytes ++ [(tick, byte)]⟩]) = (lineBytes rounds).take (n + 1) := by
  induction rounds generalizing n with
  | nil => exact absurd h (Nat.not_lt_zero n)
  | cons round rest ih =>
      have hbytes : lineBytes (round :: rest) = round.bytes.map Prod.snd ++ lineBytes rest := rfl
      rw [hbytes, List.length_append, List.length_map] at h
      by_cases hfirst : n < round.bytes.length
      · have htaken : round.bytes.take n ++ [round.bytes[n]] = round.bytes.take (n + 1) := by
          rw [List.take_add_one, List.getElem?_eq_getElem hfirst, Option.toList_some]
        refine ⟨[], round.now, round.bytes.take n, round.bytes[n].1, round.bytes[n].2, ?_, ?_⟩
        · rw [List.nil_append, htaken, lineInputs_cons, lineInputs_cons, byteInputs, byteInputs,
            List.map_take]
          rw [List.prefix_cons_inj, show lineInputs [] = [] from rfl, List.append_nil]
          exact (List.take_prefix _ _).trans (List.prefix_append _ _)
        · rw [List.nil_append, htaken, hbytes,
            List.take_append_of_le_length (by rw [List.length_map]; exact hfirst)]
          simp [lineBytes, List.map_take]
      · obtain ⟨front, now, bytes, tick, byte, hcut, htake⟩ :=
          ih (n - round.bytes.length) (by omega)
        refine ⟨round :: front, now, bytes, tick, byte, ?_, ?_⟩
        · rw [List.cons_append, lineInputs_cons, lineInputs_cons, List.prefix_cons_inj,
            List.prefix_append_right_inj]
          exact hcut
        · have hshift : n + 1 - round.bytes.length = n - round.bytes.length + 1 := by omega
          rw [List.cons_append, hbytes, List.take_append, List.length_map, hshift, ← htake,
            List.take_of_length_le (by rw [List.length_map]; omega)]
          rfl

theorem unpaused_cut {line inputs : List LineInput} (hcut : line <+: inputs)
    (h : Unpaused inputs) : Unpaused line := by
  obtain ⟨rest, rfl⟩ := hcut
  refine ⟨?_, ?_⟩
  · exact h.sorted.sublist ((List.sublist_append_left line rest).map _)
  · have hclose := h.close
    rw [lineTicks, List.filterMap_append] at hclose
    exact hclose.left_of_append

theorem lineBytes_cut {line rounds : List Mcu.UartRound}
    (h : lineInputs line <+: lineInputs rounds) : lineBytes line <+: lineBytes rounds := by
  rw [← inputBytes_lineInputs, ← inputBytes_lineInputs]
  exact h.filterMap _

/-! ### The first frame of a line -/

/-- The receiver reports an event for the frame that starts with the line. -/
def ReportsFirst (rx : Mcu.UartRx) (rounds : List Mcu.UartRound) (event : Mcu.UartEvent) : Prop :=
  ∃ line, lineInputs line <+: lineInputs rounds ∧ AcceptsLine rx line event

/-- Where the frame ends that starts with the bytes. -/
def frameEnd (bytes : Bytes) : Nat := 16 + (beNat (slice bytes 4 8) - 8)

theorem eventFrame_take_iff {bytes : Bytes} {n : Nat} (hn : n ≤ bytes.length) :
    EventFrame (bytes.take n) ↔ Complete bytes ∧ n = frameEnd bytes := by
  have hlen : (bytes.take n).length = n := by rw [List.length_take, Nat.min_eq_left hn]
  have hfield : ∀ {start stop : Nat}, 16 ≤ n → stop ≤ 16 →
      slice (bytes.take n) start stop = slice bytes start stop :=
    fun hlong hstop => slice_take _ (by omega)
  constructor
  · rintro ⟨⟨⟨hlength, hservice, htype⟩, -⟩, hsize⟩
    rw [hlen] at hsize
    have hlong : 16 ≤ n := by omega
    rw [hfield hlong (by decide)] at hlength hservice htype hsize
    exact ⟨⟨⟨hlength, hservice, htype⟩, by omega⟩, hsize⟩
  · rintro ⟨⟨⟨hlength, hservice, htype⟩, hsize⟩, hend⟩
    have hlong : 16 ≤ n := by rw [hend, frameEnd]; omega
    rw [EventFrame, hlen, hfield hlong (by decide)]
    refine ⟨⟨⟨?_, ?_, ?_⟩, ?_⟩, hend⟩
    all_goals rw [hfield hlong (by decide)]
    · exact hlength
    · exact hservice
    · exact htype
    · rw [hlen, hend, frameEnd]

/-- It does when the line brings a complete frame. -/
theorem reportsFirst_iff {rx : Mcu.UartRx} (hempty : rx.rxLen = 0) {rounds : List Mcu.UartRound}
    (hunpaused : LineUnpaused rounds) (event : Mcu.UartEvent) :
    ReportsFirst rx rounds event ↔ Complete (lineBytes rounds) ∧
      event = eventOf rx.rxBuf ((lineBytes rounds).take (frameEnd (lineBytes rounds))) := by
  constructor
  · rintro ⟨line, hcut, haccepts⟩
    have hbytes := List.prefix_iff_eq_take.mp (lineBytes_cut hcut)
    have hle := (lineBytes_cut hcut).length_le
    obtain ⟨hframe, rfl⟩ := eventFrame_of_acceptsLine hempty haccepts
    rw [hbytes, eventFrame_take_iff hle] at hframe
    obtain ⟨hcomplete, hend⟩ := hframe
    rw [← hend, ← hbytes]
    exact ⟨hcomplete, rfl⟩
  · rintro ⟨hcomplete, rfl⟩
    have hsize : frameEnd (lineBytes rounds) ≤ (lineBytes rounds).length := hcomplete.size
    have hpos : frameEnd (lineBytes rounds) - 1 + 1 = frameEnd (lineBytes rounds) := by
      unfold frameEnd
      omega
    obtain ⟨front, now, bytes, tick, byte, hcut, htake⟩ :=
      cut_line rounds (frameEnd (lineBytes rounds) - 1) (by omega)
    rw [hpos] at htake
    have hframe := (eventFrame_take_iff hsize).mpr ⟨hcomplete, rfl⟩
    rw [← htake] at hframe ⊢
    exact ⟨_, hcut, acceptsLine_of_eventFrame hempty front now bytes tick byte
      (unpaused_cut hcut hunpaused) hframe⟩

/-! ### Both transports -/

/-- The payload byte of the frame at the start, against the byte behind the header. -/
theorem eventOf_take_iff (old : Vector UInt8 64) {bytes : Bytes}
    (hlength : 8 ≤ beNat (slice bytes 4 8)) (hfits : frameEnd bytes ≤ bytes.length) :
    eventOf old (bytes.take (frameEnd bytes)) = (beNat (slice bytes 2 4), getU8 bytes 16) ↔
      (beNat (slice bytes 4 8) = 8 → getU8 old.toList 16 = getU8 bytes 16) := by
  have hlen : (bytes.take (frameEnd bytes)).length = frameEnd bytes := by
    rw [List.length_take, Nat.min_eq_left hfits]
  have hmethod : slice (bytes.take (frameEnd bytes)) 2 4 = slice bytes 2 4 :=
    slice_take _ (by unfold frameEnd; omega)
  by_cases hbare : beNat (slice bytes 4 8) = 8
  · have hend : frameEnd bytes = 16 := by rw [frameEnd, hbare]
    rw [eventOf_header _ (hlen.trans hend), hmethod, Prod.mk.injEq]
    exact ⟨fun h _ => h.2, fun h => ⟨rfl, h hbare⟩⟩
  · have hlong : 16 < frameEnd bytes := by
      unfold frameEnd
      omega
    rw [eventOf_payload _ (hlen.symm ▸ hlong), hmethod, getU8_take _ hlong]
    exact iff_of_true rfl fun h => absurd h hbare

/-- For the bytes of a datagram of at least 17 bytes the two receivers report the same, exactly when
a notification is no longer by its length field than the datagram, and brings a payload byte or finds
the byte behind its header in the buffer already. -/
theorem transports_agree_iff (memory : Vector UInt8 64) (sendto : Mcu.Outgoing → Int)
    (udp : Mcu.SomeipUdp) (rx : Mcu.UartRx) (datagram : Bytes) (rounds : List Mcu.UartRound)
    (hempty : rx.rxLen = 0) (hbytes : lineBytes rounds = datagram) (hunpaused : LineUnpaused rounds)
    (hsize : 17 ≤ datagram.length) :
    (∀ event, (udp.someipUdpReceive memory sendto (some datagram)).2 = some event ↔
      ReportsFirst rx rounds event) ↔
    (Notification datagram → beNat (slice datagram 4 8) + 8 ≤ datagram.length ∧
      (beNat (slice datagram 4 8) = 8 → getU8 rx.rxBuf.toList 16 = getU8 datagram 16)) := by
  subst hbytes
  have hudp := Udp.someipUdpReceive_event_iff memory sendto udp hsize
  have huart := reportsFirst_iff hempty hunpaused
  generalize lineBytes rounds = datagram at *
  simp only [huart, hudp]
  by_cases hvalid : Notification datagram
  · have hlength := hvalid.length
    have hend : frameEnd datagram = beNat (slice datagram 4 8) + 8 := by
      unfold frameEnd
      omega
    have hpayload := @eventOf_take_iff rx.rxBuf datagram hlength.1
    constructor
    · intro h _
      obtain ⟨hcomplete, hevent⟩ := (h _).mp ⟨hvalid, rfl⟩
      have hfits : frameEnd datagram ≤ datagram.length := hcomplete.size
      exact ⟨hend ▸ hfits, (hpayload hfits).mp hevent.symm⟩
    · intro h event
      obtain ⟨hfits, hsame⟩ := h hvalid
      rw [(hpayload (hend ▸ hfits)).mpr hsame]
      refine and_congr_left fun _ => iff_of_true hvalid ⟨hvalid, ?_⟩
      exact (show frameEnd datagram ≤ datagram.length from hend ▸ hfits)
  · refine iff_of_true (fun event => ?_) fun h => absurd h hvalid
    exact iff_of_false (fun h => hvalid h.1) fun h => hvalid h.1.toNotification

/-- A notification of level 85, and what came of it. -/
def notifyDatagram (length : UInt8) : Bytes :=
  [0x12, 0x34, 0x80, 0x01, 0, 0, 0, length, 0, 1, 0, 1, 1, 1, 2, 0, 85]

theorem transports_agree_notify :
    (∀ event, (Mcu.SomeipUdp.static.someipUdpReceive (Vector.replicate 64 0) (fun _ => 0)
        (some (notifyDatagram 9))).2 = some event ↔
      ReportsFirst .init [roundOf 0 (notifyDatagram 9)] event) ↔
    (Notification (notifyDatagram 9) →
      beNat (slice (notifyDatagram 9) 4 8) + 8 ≤ (notifyDatagram 9).length ∧
      (beNat (slice (notifyDatagram 9) 4 8) = 8 →
        getU8 Mcu.UartRx.init.rxBuf.toList 16 = getU8 (notifyDatagram 9) 16)) :=
  transports_agree_iff _ _ _ .init (notifyDatagram 9) [roundOf 0 (notifyDatagram 9)] rfl
    (lineBytes_roundOf 0 _) (lineUnpaused_roundOf 0 _) (by decide)

/-- With a length of 32 or 8 in the same 17 bytes UDP reports level 85, and a fresh receiver on the
UART waits for more or reports level 0. -/
theorem transports_differ :
    ((Mcu.SomeipUdp.static.someipUdpReceive (Vector.replicate 64 0) (fun _ => 0)
        (some (notifyDatagram 32))).2 = some (0x8001, 85) ∧
      ∀ event, ¬ReportsFirst .init [roundOf 0 (notifyDatagram 32)] event) ∧
    ((Mcu.SomeipUdp.static.someipUdpReceive (Vector.replicate 64 0) (fun _ => 0)
        (some (notifyDatagram 8))).2 = some (0x8001, 85) ∧
      ReportsFirst .init [roundOf 0 (notifyDatagram 8)] (0x8001, 0) ∧
      ¬ReportsFirst .init [roundOf 0 (notifyDatagram 8)] (0x8001, 85)) := by
  have huart := fun length =>
    @reportsFirst_iff .init rfl _ (lineUnpaused_roundOf 0 (notifyDatagram length))
  refine ⟨⟨by decide +kernel, fun event h => ?_⟩, by decide +kernel, ?_, fun h => ?_⟩
  · have hsize := ((huart 32 event).mp h).1.size
    rw [lineBytes_roundOf] at hsize
    exact absurd hsize (by decide)
  · rw [huart, lineBytes_roundOf]
    exact ⟨⟨⟨by decide, by decide, by decide⟩, by decide⟩, by decide +kernel⟩
  · have hevent := ((huart 8 _).mp h).2
    rw [lineBytes_roundOf] at hevent
    exact absurd hevent (by decide +kernel)

end SdvZone.Uart
