import SdvZone.UartFraming

/-! The MCU receiver as a run of the tunnel's framer. The framer's buffer is the first `rx_len`
bytes of `rx_buf`; between bytes fewer than 40 of the 64 bytes are in use, so the overflow branch is
never taken. An event carries `rx_buf[16]`, which is the first payload byte when there is one. -/

namespace SdvZone.Uart

open Wire Machine Mpu

/-- The part of the receive buffer that has been received. -/
def received (rx : Mcu.UartRx) : Bytes := rx.rxBuf.toList.take rx.rxLen

/-- Fewer bytes are waiting than the longest frame has. -/
def Gathering (rx : Mcu.UartRx) : Prop := rx.rxLen < 40

/-- The event of the framer and the pair handed to the caller of `someip_uart_receive`. -/
def SameEvent (event : Mcu.UartEvent) (frame : Nat × Bytes) : Prop :=
  event.1 = frame.1 ∧ ∀ byte ∈ frame.2.head?, event.2 = byte

theorem received_length (rx : Mcu.UartRx) (h : rx.rxLen ≤ 64) : (received rx).length = rx.rxLen := by
  rw [received, List.length_take, Vector.length_toList, Nat.min_eq_left h]

theorem field_eq (rx : Mcu.UartRx) {start stop : Nat} (h : stop ≤ rx.rxLen) :
    rx.field start stop = beNat (slice (received rx) start stop) := by
  rw [Mcu.UartRx.field, received, slice_take _ h]

/-- Storing a byte at `rx_len` appends it to the received part. -/
theorem take_set_succ (bytes : Bytes) {n : Nat} (h : n < bytes.length) (byte : UInt8) :
    (bytes.set n byte).take (n + 1) = bytes.take n ++ [byte] := by
  rw [List.take_add_one, List.getElem?_set_self h, List.take_set_of_le (Nat.le_refl n)]
  rfl

/-- `rx_buf[16]` is the first byte of a payload that starts inside the received part. -/
theorem payload_head (rx : Mcu.UartRx) (hlen : rx.rxLen ≤ 64) {stop : Nat} (hstop : stop ≤ rx.rxLen)
    (byte : UInt8) (hbyte : byte ∈ (slice (received rx) 16 stop).head?) :
    getU8 rx.rxBuf.toList 16 = byte := by
  have hlong : 16 < stop := by
    by_contra hshort
    have hnil : slice (received rx) 16 stop = [] :=
      List.eq_nil_of_length_eq_zero (by rw [slice_length, received_length rx hlen]; omega)
    rw [hnil] at hbyte
    cases hbyte
  rw [slice, List.head?_drop, List.getElem?_take_of_lt hlong, received,
    List.getElem?_take_of_lt (by omega)] at hbyte
  rw [getU8, List.getD_eq_getElem?_getD, hbyte, Option.getD_some]

/-- The check at the top of the outer loop clears the buffer or does nothing. -/
theorem resync_refines (rx : Mcu.UartRx) (now : Nat) (h : Gathering rx) :
    Gathering (rx.resync now) ∧
      received (rx.resync now) =
        if 0 < rx.rxLen ∧ 50 < now - rx.lastRxTick then [] else received rx := by
  rw [Mcu.UartRx.resync]
  split
  · exact ⟨(by decide : 0 < 40), rfl⟩
  · exact ⟨h, rfl⟩

theorem received_store (rx : Mcu.UartRx) (byte : UInt8) (h : ¬64 ≤ rx.rxLen) :
    received (rx.store byte h) = received rx ++ [byte] := by
  rw [received, received, Mcu.UartRx.store, Vector.toList_set,
    take_set_succ _ (by rw [Vector.length_toList]; omega)]

/-- The checks after a stored byte act on the framer's verdict on the received part. -/
theorem examine_eq (rx : Mcu.UartRx) (h : rx.rxLen ≤ 64) :
    rx.examine =
      match frameVerdict (received rx) with
      | .wait => (rx, none)
      | .drop => ({ rx with rxLen := 0 }, none)
      | .emit frame => ({ rx with rxLen := 0 }, some (frame.1, getU8 rx.rxBuf.toList 16)) := by
  have hlength := received_length rx h
  by_cases hshort : rx.rxLen < 16
  · rw [Mcu.UartRx.examine, if_neg (by rw [Mcu.headerSize]; omega), frameVerdict_short (by omega)]
  rw [Mcu.UartRx.examine, if_pos (by rw [Mcu.headerSize]; omega), field_eq rx (by omega : 8 ≤ rx.rxLen),
    field_eq rx (by omega : 2 ≤ rx.rxLen), field_eq rx (by omega : 15 ≤ rx.rxLen),
    field_eq rx (by omega : 4 ≤ rx.rxLen), Mcu.headerSize, show Mcu.serviceId = serviceId from rfl]
  by_cases hbad : beNat (slice (received rx) 4 8) < 8 ∨ 32 < beNat (slice (received rx) 4 8)
  · rw [if_pos hbad, frameVerdict_badLength (by omega) hbad]
  rw [if_neg hbad]
  by_cases htotal : 16 + (beNat (slice (received rx) 4 8) - 8) ≤ rx.rxLen
  · rw [if_pos htotal, frameVerdict_complete hbad (by omega)]
    by_cases hvalid : beNat (slice (received rx) 0 2) = serviceId ∧
        beNat (slice (received rx) 14 15) = 0x02
    · rw [if_pos hvalid, if_pos hvalid, getU8, List.getD_eq_getElem?_getD,
        List.getElem?_eq_getElem (by rw [Vector.length_toList]; decide), Option.getD_some,
        Vector.getElem_toList]
    · rw [if_neg hvalid, if_neg hvalid]
  · rw [if_neg htotal, frameVerdict_incomplete (by omega) hbad (by omega)]

theorem examine_refines (rx : Mcu.UartRx) (h : rx.rxLen ≤ 40) :
    Gathering rx.examine.1 ∧
      (Framer.settle (received rx) (frameVerdict (received rx))).1 = received rx.examine.1 ∧
      List.Forall₂ SameEvent rx.examine.2.toList
        (Framer.settle (received rx) (frameVerdict (received rx))).2.toList := by
  have hlength := received_length rx (by omega)
  rw [examine_eq rx (by omega)]
  cases hverdict : frameVerdict (received rx) with
  | wait =>
      have hshort := frameVerdict_wait_length hverdict
      exact ⟨show rx.rxLen < 40 by omega, rfl, .nil⟩
  | drop => exact ⟨show 0 < 40 by decide, rfl, .nil⟩
  | emit frame =>
      obtain ⟨hcomplete, rfl⟩ := frameVerdict_emit_iff.mp hverdict
      refine ⟨show 0 < 40 by decide, rfl, .cons ⟨rfl, ?_⟩ .nil⟩
      exact payload_head rx (by omega) (hlength ▸ hcomplete.size)

/-- A byte is answered with an event when it completes a frame. -/
theorem receiveByte_event_iff (rx : Mcu.UartRx) (now : Nat) (byte : UInt8) (event : Mcu.UartEvent) :
    (rx.receiveByte now byte).2 = some event ↔
      rx.rxLen < 64 ∧ Complete (received rx ++ [byte]) ∧
        event = (beNat (slice (received rx ++ [byte]) 2 4),
          getU8 (rx.rxBuf.toList.set rx.rxLen byte) 16) := by
  rw [Mcu.UartRx.receiveByte]
  split
  next hfull => exact iff_of_false (by simp) fun h => absurd h.1 (not_lt.mpr hfull)
  next hroom =>
    have hlen : ¬64 ≤ rx.rxLen := hroom
    have hstore := received_store { rx with lastRxTick := now } byte hroom
    rw [show received { rx with lastRxTick := now } = received rx from rfl] at hstore
    rw [examine_eq _ (show rx.rxLen + 1 ≤ 64 by omega), hstore, Mcu.UartRx.store, Vector.toList_set]
    cases hverdict : frameVerdict (received rx ++ [byte]) with
    | wait | drop =>
        refine iff_of_false (by simp) fun h => ?_
        have hemit := frameVerdict_emit_iff.mpr ⟨h.2.1, rfl⟩
        rw [hverdict] at hemit
        cases hemit
    | emit frame =>
        obtain ⟨hcomplete, rfl⟩ := frameVerdict_emit_iff.mp hverdict
        rw [Option.some.injEq, eq_comm]
        exact ⟨fun h => ⟨not_le.mp hlen, hcomplete, h⟩, fun h => h.2.2⟩

/-- One byte is one step of the framer. -/
theorem receiveByte_refines (rx : Mcu.UartRx) (now : Nat) (byte : UInt8) (h : Gathering rx) :
    Gathering (rx.receiveByte now byte).1 ∧
      (Framer.step frameVerdict (received rx) (some byte)).1 =
        received (rx.receiveByte now byte).1 ∧
      List.Forall₂ SameEvent (rx.receiveByte now byte).2.toList
        (Framer.step frameVerdict (received rx) (some byte)).2.toList := by
  have hlen : rx.rxLen < 40 := h
  have hroom : ¬64 ≤ ({ rx with lastRxTick := now } : Mcu.UartRx).rxLen := by
    show ¬64 ≤ rx.rxLen
    omega
  have hstore := received_store { rx with lastRxTick := now } byte hroom
  rw [Mcu.UartRx.receiveByte, dif_neg hroom, Framer.step,
    show received rx = received { rx with lastRxTick := now } from rfl, ← hstore]
  exact examine_refines _ (show rx.rxLen + 1 ≤ 40 by omega)

theorem examine_lastRxTick (rx : Mcu.UartRx) : rx.examine.1.lastRxTick = rx.lastRxTick := by
  simp only [Mcu.UartRx.examine]
  split_ifs <;> rfl

theorem receiveByte_lastRxTick (rx : Mcu.UartRx) (now : Nat) (byte : UInt8) :
    (rx.receiveByte now byte).1.lastRxTick = now := by
  simp only [Mcu.UartRx.receiveByte]
  split
  · rfl
  · exact examine_lastRxTick _

/-! ### Calls and rounds -/

/-- What the line does to the receiver: a look at the clock, or a byte. -/
inductive LineInput where
  | check (now : Nat)
  | byte (tick : Nat) (byte : UInt8)

def lineStep (rx : Mcu.UartRx) : LineInput → Mcu.UartRx × Option Mcu.UartEvent
  | .check now => (rx.resync now, none)
  | .byte tick byte => rx.receiveByte tick byte

def byteInputs (bytes : List (Nat × UInt8)) : List LineInput :=
  bytes.map fun read => .byte read.1 read.2

def lineInputs (rounds : List Mcu.UartRound) : List LineInput :=
  rounds.flatMap fun round => .check round.now :: byteInputs round.bytes

/-- The bytes of a line, in order. -/
def lineBytes (rounds : List Mcu.UartRound) : Bytes :=
  rounds.flatMap fun round => round.bytes.map Prod.snd

theorem lineInputs_cons (round : Mcu.UartRound) (rest : List Mcu.UartRound) :
    lineInputs (round :: rest) =
      .check round.now :: (byteInputs round.bytes ++ lineInputs rest) := rfl

theorem resync_of_empty {rx : Mcu.UartRx} (h : rx.rxLen = 0) (now : Nat) : rx.resync now = rx := by
  rw [Mcu.UartRx.resync, if_neg (by omega)]

/-- An accepted frame leaves the buffer empty. -/
theorem receiveByte_accepts {rx after : Mcu.UartRx} {now : Nat} {byte : UInt8}
    {event : Mcu.UartEvent} (h : rx.receiveByte now byte = (after, some event)) : after.rxLen = 0 := by
  rw [Mcu.UartRx.receiveByte] at h
  split at h
  · cases h
  · simp only [Mcu.UartRx.examine] at h
    split_ifs at h <;> cases h
    rfl

theorem poll_none {rx after : Mcu.UartRx} {bytes : List (Nat × UInt8)}
    (h : Mcu.someipUartPoll rx bytes = (after, none)) :
    react lineStep rx (byteInputs bytes) = (after, []) := by
  induction bytes generalizing rx with
  | nil =>
      cases h
      rfl
  | cons read rest ih =>
      simp only [Mcu.someipUartPoll] at h
      split at h
      next => cases h
      next next hbyte =>
        rw [byteInputs, List.map_cons, react_cons, lineStep, hbyte]
        exact ih h

theorem poll_some {rx after : Mcu.UartRx} {bytes unread : List (Nat × UInt8)}
    {event : Mcu.UartEvent} (h : Mcu.someipUartPoll rx bytes = (after, some (event, unread))) :
    after.rxLen = 0 ∧ react lineStep rx (byteInputs bytes) =
      ((react lineStep after (byteInputs unread)).1,
        event :: (react lineStep after (byteInputs unread)).2) := by
  induction bytes generalizing rx with
  | nil => cases h
  | cons read rest ih =>
      simp only [Mcu.someipUartPoll] at h
      rw [byteInputs, List.map_cons, react_cons, lineStep]
      split at h
      next hbyte =>
        cases h
        rw [hbyte]
        exact ⟨receiveByte_accepts hbyte, rfl⟩
      next hbyte =>
        rw [hbyte]
        exact ih h

theorem receive_none {rx after : Mcu.UartRx} {rounds : List Mcu.UartRound}
    (h : Mcu.someipUartReceive rx rounds = (after, none)) :
    react lineStep rx (lineInputs rounds) = (after, []) := by
  induction rounds generalizing rx with
  | nil =>
      cases h
      rfl
  | cons round rest ih =>
      simp only [Mcu.someipUartReceive] at h
      split at h
      next => cases h
      next hpoll =>
        rw [lineInputs_cons, react_cons, lineStep, react_append, poll_none hpoll, ih h]
        rfl

theorem receive_some {rx after : Mcu.UartRx} {rounds unread : List Mcu.UartRound}
    {event : Mcu.UartEvent} (h : Mcu.someipUartReceive rx rounds = (after, some (event, unread))) :
    react lineStep rx (lineInputs rounds) =
      ((react lineStep after (lineInputs unread)).1,
        event :: (react lineStep after (lineInputs unread)).2) := by
  induction rounds generalizing rx with
  | nil => cases h
  | cons round rest ih =>
      simp only [Mcu.someipUartReceive] at h
      rw [lineInputs_cons, react_cons, lineStep, react_append]
      split at h
      next hpoll =>
        cases h
        obtain ⟨hempty, hrun⟩ := poll_some hpoll
        rw [hrun, lineInputs_cons, react_cons, lineStep, resync_of_empty hempty, react_append]
        rfl
      next hpoll =>
        rw [poll_none hpoll, ih h]
        rfl

/-- Successive calls amount to reading the line from end to end. -/
theorem someipUartCalls_eq (rx : Mcu.UartRx) (rounds : List Mcu.UartRound) :
    Mcu.someipUartCalls rx rounds = react lineStep rx (lineInputs rounds) := by
  induction rx, rounds using Mcu.someipUartCalls.induct with
  | case1 rx rounds after hcall =>
      rw [Mcu.someipUartCalls, receive_none hcall]
      split
      next h =>
        rw [hcall] at h
        cases h
        rfl
      next h =>
        rw [hcall] at h
        cases h
  | case2 rx rounds after event unread hcall ih =>
      rw [Mcu.someipUartCalls, receive_some hcall]
      split
      next h =>
        rw [hcall] at h
        cases h
      next h =>
        rw [hcall] at h
        cases h
        rw [ih]

/-- Successive calls are a run of the framer over the bytes of the line. -/
theorem someipUartCalls_refines (rx : Mcu.UartRx) (rounds : List Mcu.UartRound) (h : Gathering rx) :
    ∃ inputs, inputs.reduceOption = lineBytes rounds ∧
      (scanFrames (received rx) inputs).1 = received (Mcu.someipUartCalls rx rounds).1 ∧
      List.Forall₂ SameEvent (Mcu.someipUartCalls rx rounds).2
        (scanFrames (received rx) inputs).2 := by
  let resyncs (rx : Mcu.UartRx) : LineInput → List (Option UInt8)
    | .check now => if 0 < rx.rxLen ∧ 50 < now - rx.lastRxTick then [none] else []
    | .byte _ byte => [some byte]
  let carried : LineInput → List UInt8
    | .check _ => []
    | .byte _ byte => [byte]
  have hrun := react_refines lineStep (Framer.step frameVerdict) Gathering received SameEvent resyncs
    (fun rx input hrx => by
      cases input with
      | check now =>
          obtain ⟨hgather, hreceived⟩ := resync_refines rx now hrx
          refine ⟨hgather, ?_, ?_⟩ <;> simp only [resyncs, lineStep, hreceived]
          · split <;> rfl
          · split <;> exact .nil
      | byte tick byte =>
          obtain ⟨hgather, hreceived, hevents⟩ := receiveByte_refines rx tick byte hrx
          refine ⟨hgather, hreceived, ?_⟩
          simpa only [resyncs, lineStep, react_cons, react_nil, List.append_nil] using hevents)
    rx (lineInputs rounds) h
  rw [someipUartCalls_eq]
  refine ⟨_, ?_, hrun⟩
  rw [translate_reduceOption _ resyncs carried]
  · simp only [lineInputs, lineBytes, byteInputs, List.flatMap_assoc, List.flatMap_cons,
      List.flatMap_map, carried, List.nil_append]
    exact List.flatMap_congr fun round _ => List.flatMap_pure_eq_map Prod.snd round.bytes
  · intro rx input
    cases input with
    | check now =>
        simp only [resyncs]
        split <;> rfl
    | byte tick byte => rfl

end SdvZone.Uart
