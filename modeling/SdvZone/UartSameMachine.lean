import SdvZone.UartLines

/-! The stream parser of the MPU and the receiver of the MCU as one machine: fed the same bytes
without pauses, both hold the same partial frame after every byte and report the same event. -/

namespace SdvZone.Uart

open Wire Machine Mpu

/-- Without pauses the last call of `feed` is one step of the framer. -/
theorem feed_unpaused (parser : StreamParser) (hempty : parser.buf = [])
    (arrivals : List StreamParser.Arrival) (arrival : StreamParser.Arrival)
    (hunpaused : StreamParser.Unpaused parser.timeoutMs (arrivals ++ [arrival])) :
    ((parser.feedBytes (arrivals ++ [arrival])).1.buf,
      ((parser.feedBytes arrivals).1.feed arrival.now arrival.tick arrival.byte.toNat).2) =
        Framer.step frameVerdict
          (scanFrames [] ((arrivals.map StreamParser.Arrival.byte).map some)).1 (some arrival.byte) := by
  have hfresh : ∀ now, parser.stale now = false := by
    intro now
    rw [StreamParser.stale, hempty]
    cases parser.lastTick <;> rfl
  have hbefore := feedBytes_unpaused parser arrivals (fun next _ => hfresh next.now)
    hunpaused.left_of_append
  have hafter := feedBytes_unpaused parser (arrivals ++ [arrival]) (fun next _ => hfresh next.now)
    hunpaused
  rw [hempty] at hbefore hafter
  rw [List.map_append, List.map_append, List.map_singleton, List.map_singleton, scanFrames,
    Framer.scan, react_snoc] at hafter
  obtain ⟨hbuf, hevents⟩ := Prod.mk.inj hafter
  have hread : (parser.feedBytes (arrivals ++ [arrival])).2 = (parser.feedBytes arrivals).2 ++
      ((parser.feedBytes arrivals).1.feed arrival.now arrival.tick arrival.byte.toNat).2.toList := by
    rw [StreamParser.feedBytes, react_snoc]
    rfl
  rw [hread, ← (Prod.mk.inj hbefore).2] at hevents
  exact Prod.ext hbuf.symm (toList_inj (List.append_cancel_left hevents)).symm

theorem rel_of_forall₂ {first : Option Mcu.UartEvent} {second : Option (Nat × Bytes)}
    (h : List.Forall₂ SameEvent first.toList second.toList) : Option.Rel SameEvent first second := by
  cases first with
  | none =>
      cases second with
      | none => exact .none
      | some frame => cases h
  | some event =>
      cases second with
      | none => cases h
      | some frame =>
          cases h with
          | cons hsame _ => exact .some hsame

/-- One byte after another, as long as no pause is over 50 ms. The line of the MCU ends with the byte
in question, and without it is what has been read before. -/
theorem same_machine (parser : StreamParser) (rx : Mcu.UartRx)
    (hparser : parser.buf = [] ∧ parser.timeoutMs = 50) (hrx : rx.rxLen = 0)
    (arrivals : List StreamParser.Arrival) (arrival : StreamParser.Arrival)
    (front : List Mcu.UartRound) (now : Nat) (bytes : List (Nat × UInt8)) (tick : Nat)
    (hbytes : lineBytes (front ++ [⟨now, bytes⟩]) = arrivals.map StreamParser.Arrival.byte)
    (harrivals : StreamParser.Unpaused 50 (arrivals ++ [arrival]))
    (hline : LineUnpaused (front ++ [⟨now, bytes ++ [(tick, arrival.byte)]⟩])) :
    ∃ returned,
      (Mcu.someipUartCalls rx (front ++ [⟨now, bytes ++ [(tick, arrival.byte)]⟩])).2 =
        (Mcu.someipUartCalls rx (front ++ [⟨now, bytes⟩])).2 ++ returned.toList ∧
      Option.Rel SameEvent returned
        ((parser.feedBytes arrivals).1.feed arrival.now arrival.tick arrival.byte.toNat).2 ∧
      (parser.feedBytes (arrivals ++ [arrival])).1.buf =
        received (Mcu.someipUartCalls rx
          (front ++ [⟨now, bytes ++ [(tick, arrival.byte)]⟩])).1 := by
  obtain ⟨hempty, htimeout⟩ := hparser
  have hfeed := feed_unpaused parser hempty arrivals arrival (htimeout ▸ harrivals)
  have hstart : received rx = [] := by rw [received, hrx, List.take_zero]
  rw [LineUnpaused, lineInputs_snoc] at hline
  obtain ⟨hgather, hreceived⟩ := react_calm (lineInputs (front ++ [⟨now, bytes⟩])) tick arrival.byte
    hline rx (by rw [Gathering, hrx]; decide) (fun hpartial => absurd hpartial (by omega))
  rw [inputBytes_lineInputs, hbytes, hstart] at hreceived
  obtain ⟨-, hbuf, hevent⟩ := receiveByte_refines _ tick arrival.byte hgather
  rw [hreceived, ← hfeed] at hbuf hevent
  rw [someipUartCalls_eq, someipUartCalls_eq, lineInputs_snoc, react_snoc]
  exact ⟨_, rfl, rel_of_forall₂ hevent, hbuf⟩

/-- A heartbeat without its payload byte, which comes next. -/
def heartbeatHead : Bytes := [0x12, 0x34, 0x80, 0x02, 0, 0, 0, 9, 0, 1, 0, 1, 1, 1, 2, 0]

theorem same_machine_heartbeat :
    ∃ returned,
      (Mcu.someipUartCalls .init
          [⟨10, heartbeatHead.map (fun byte => (10, byte)) ++ [(10, 7)]⟩]).2 =
        (Mcu.someipUartCalls .init [⟨10, heartbeatHead.map fun byte => (10, byte)⟩]).2 ++
          returned.toList ∧
      Option.Rel SameEvent returned
        ((StreamParser.init.feedBytes (heartbeatHead.map (.mk 3 3))).1.feed 3 3 7).2 ∧
      (StreamParser.init.feedBytes (heartbeatHead.map (.mk 3 3) ++ [⟨3, 3, 7⟩])).1.buf =
        received (Mcu.someipUartCalls .init
          [⟨10, heartbeatHead.map (fun byte => (10, byte)) ++ [(10, 7)]⟩]).1 :=
  same_machine .init .init ⟨rfl, rfl⟩ rfl (heartbeatHead.map (.mk 3 3)) ⟨3, 3, 7⟩ [] 10
    (heartbeatHead.map fun byte => (10, byte)) 10 rfl
    (by unfold StreamParser.Unpaused; decide +kernel) ⟨by decide +kernel, by decide +kernel⟩

end SdvZone.Uart
