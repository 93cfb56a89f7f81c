import SdvZone.CheckedMemory
import SdvZone.UartLines

/-! The receive buffer of the MCU. What is gathered when the next byte is read is less than a header,
or less than the frame whose length the header gives; so the index never leaves `rx_buf`. -/

namespace SdvZone.Mcu.Checked

open Wire

/-- `rx_buf[index] = byte`. -/
def storeRx (rx : UartRx) (index : Nat) (byte : UInt8) : Run UartRx :=
  if h : index < 64 then .ok { rx with rxBuf := rx.rxBuf.set index byte h } else .error (.write index)

/-- The checks made after each stored byte. -/
def examine (rx : UartRx) : Run (UartRx × Option UartEvent) :=
  if headerSize ≤ rx.rxLen then do
    let length := (← loadU32 rx.rxBuf.toList 4).toNat
    if length < 8 ∨ 32 < length then return ({ rx with rxLen := 0 }, none)
    else
      let total ← add headerSize (← sub length 8)
      if total ≤ rx.rxLen then
        let service ← loadU16 rx.rxBuf.toList 0
        let messageType ← load rx.rxBuf.toList 14
        if service.toNat = serviceId ∧ messageType.toNat = 0x02 then
          let eventId ← loadU16 rx.rxBuf.toList 2
          let payload ← load rx.rxBuf.toList 16
          return ({ rx with rxLen := 0 }, some (eventId.toNat, payload))
        else return ({ rx with rxLen := 0 }, none)
      else return (rx, none)
  else .ok (rx, none)

/-- The body of the inner loop of `someip_uart_receive`, as the machine executes it. -/
def receiveByte (rx : UartRx) (now : Nat) (byte : UInt8) : Run (UartRx × Option UartEvent) :=
  let rx := { rx with lastRxTick := now }
  if 64 ≤ rx.rxLen then .ok ({ rx with rxLen := 0 }, none)
  else do
    let rx ← storeRx rx rx.rxLen byte
    let rxLen ← add rx.rxLen 1
    examine { rx with rxLen := rxLen }

end SdvZone.Mcu.Checked

namespace SdvZone.Uart

open Wire Machine
open Mcu.Checked (add_ok sub_ok load_ok loadU16_ok loadU32_ok ok_bind)

/-- What `rx_buf` holds when the next byte is about to be read. -/
def Waiting (rx : Mcu.UartRx) : Prop :=
  rx.rxLen < 16 ∨ 16 ≤ rx.rxLen ∧ rx.rxLen < 16 + (rx.field 4 8 - 8) ∧
    8 ≤ rx.field 4 8 ∧ rx.field 4 8 ≤ 32

theorem Waiting.rxLen_le {rx : Mcu.UartRx} (h : Waiting rx) : rx.rxLen ≤ 39 := by
  rcases h with hshort | ⟨-, hpart, -, hlength⟩
  · omega
  · omega

theorem waiting_of_empty {rx : Mcu.UartRx} (h : rx.rxLen = 0) : Waiting rx := by
  left
  omega

theorem resync_waiting {rx : Mcu.UartRx} (h : Waiting rx) (now : Nat) : Waiting (rx.resync now) := by
  rw [Mcu.UartRx.resync]
  split
  · exact waiting_of_empty rfl
  · exact h

/-- Each reset leaves the buffer empty, and without one the header has just been found to ask for
more. -/
theorem examine_waiting (rx : Mcu.UartRx) : Waiting rx.examine.1 := by
  unfold Mcu.UartRx.examine Mcu.headerSize
  by_cases hheader : 16 ≤ rx.rxLen
  · rw [if_pos hheader]
    dsimp only
    by_cases hlength : rx.field 4 8 < 8 ∨ 32 < rx.field 4 8
    · rw [if_pos hlength]
      exact waiting_of_empty rfl
    rw [if_neg hlength]
    by_cases htotal : 16 + (rx.field 4 8 - 8) ≤ rx.rxLen
    · rw [if_pos htotal]
      split
      · exact waiting_of_empty rfl
      · exact waiting_of_empty rfl
    · rw [if_neg htotal]
      have hrange : 8 ≤ rx.field 4 8 ∧ rx.field 4 8 ≤ 32 := by omega
      exact Or.inr ⟨hheader, not_le.mp htotal, hrange⟩
  · rw [if_neg hheader]
    left
    exact not_le.mp hheader

theorem receiveByte_waiting (rx : Mcu.UartRx) (now : Nat) (byte : UInt8) :
    Waiting (rx.receiveByte now byte).1 := by
  simp only [Mcu.UartRx.receiveByte]
  split
  · exact waiting_of_empty rfl
  · exact examine_waiting _

/-- The invariant after any part of any line. -/
theorem line_waiting (inputs : List LineInput) : Waiting (react lineStep .init inputs).1 := by
  refine react_induction lineStep .init (fun _ rx _ => Waiting rx) (waiting_of_empty rfl) ?_ inputs
  intro _ mid _ input hmid
  cases input with
  | check now => exact resync_waiting hmid now
  | byte tick byte => exact receiveByte_waiting mid tick byte

/-! ### Accesses -/

/-- The checks read the header and the byte behind it. -/
theorem examine_ok (rx : Mcu.UartRx) : Mcu.Checked.examine rx = .ok rx.examine := by
  have hlen : rx.rxBuf.toList.length = 64 := rx.rxBuf.length_toList
  have hsize : rx.rxBuf.toList.length < 2 ^ 32 := by omega
  have hlength : (getU32 rx.rxBuf.toList 4).toNat = rx.field 4 8 := getU32_toNat _ (by omega)
  have hservice : (getU16 rx.rxBuf.toList 0).toNat = rx.field 0 2 := getU16_toNat _ (by omega)
  have hmethod : (getU16 rx.rxBuf.toList 2).toNat = rx.field 2 4 := getU16_toNat _ (by omega)
  have htype : (getU8 rx.rxBuf.toList 14).toNat = rx.field 14 15 := getU8_toNat _ (by omega)
  have hpayload : getU8 rx.rxBuf.toList 16 = rx.rxBuf[16] := by
    rw [getU8, List.getD_eq_getElem?_getD, List.getElem?_eq_getElem (by omega), Vector.getElem_toList]
    rfl
  rw [Mcu.Checked.examine, Mcu.UartRx.examine]
  by_cases hheader : Mcu.headerSize ≤ rx.rxLen
  · rw [if_pos hheader, if_pos hheader, loadU32_ok hsize (by omega), ok_bind, hlength]
    dsimp only
    by_cases hbad : rx.field 4 8 < 8 ∨ 32 < rx.field 4 8
    · rw [if_pos hbad, if_pos hbad]
      rfl
    rw [if_neg hbad, if_neg hbad, sub_ok (by omega), ok_bind, add_ok (by unfold Mcu.headerSize; omega),
      ok_bind]
    by_cases htotal : Mcu.headerSize + (rx.field 4 8 - 8) ≤ rx.rxLen
    · rw [if_pos htotal, if_pos htotal, loadU16_ok hsize (by omega), ok_bind, load_ok (by omega), ok_bind,
        hservice, htype]
      by_cases hvalid : rx.field 0 2 = Mcu.serviceId ∧ rx.field 14 15 = 0x02
      · rw [if_pos hvalid, if_pos hvalid, loadU16_ok hsize (by omega), ok_bind, load_ok (by omega), ok_bind,
          hmethod, hpayload]
        rfl
      · rw [if_neg hvalid, if_neg hvalid]
        rfl
    · rw [if_neg htotal, if_neg htotal]
      rfl
  · rw [if_neg hheader, if_neg hheader]

/-- The body of the loop meets no fault, and does what it does without the checks. -/
theorem receiveByte_ok (rx : Mcu.UartRx) (now : Nat) (byte : UInt8) :
    Mcu.Checked.receiveByte rx now byte = .ok (rx.receiveByte now byte) := by
  rw [Mcu.Checked.receiveByte, Mcu.UartRx.receiveByte]
  dsimp only
  by_cases hfull : 64 ≤ rx.rxLen
  · rw [if_pos hfull, dif_pos hfull]
  · have hstore : Mcu.Checked.storeRx { rx with lastRxTick := now } rx.rxLen byte =
        .ok { rx with lastRxTick := now, rxBuf := rx.rxBuf.set rx.rxLen byte (not_le.mp hfull) } :=
      dif_pos (not_le.mp hfull)
    rw [if_neg hfull, dif_neg hfull, hstore, ok_bind, add_ok (by dsimp only; omega), ok_bind, examine_ok]
    rfl

/-- Whatever line has been read by successive calls, and whatever its next byte is: what is gathered is
short of a frame, and the byte is handled without a fault. -/
theorem buffer_in_bounds (front : List Mcu.UartRound) (now : Nat) (bytes : List (Nat × UInt8))
    (tick : Nat) (byte : UInt8) :
    Waiting (Mcu.someipUartCalls .init (front ++ [⟨now, bytes⟩])).1 ∧
      (Mcu.someipUartCalls .init (front ++ [⟨now, bytes⟩])).1.rxLen ≤ 39 ∧
      ∃ after event,
        Mcu.Checked.receiveByte (Mcu.someipUartCalls .init (front ++ [⟨now, bytes⟩])).1 tick byte =
          .ok (after, event) ∧
        (Mcu.someipUartCalls .init (front ++ [⟨now, bytes ++ [(tick, byte)]⟩])).1 = after := by
  have hwaiting := line_waiting (lineInputs (front ++ [⟨now, bytes⟩]))
  rw [someipUartCalls_eq, someipUartCalls_eq, lineInputs_snoc, react_snoc]
  exact ⟨hwaiting, hwaiting.rxLen_le, _, _, receiveByte_ok _ tick byte, rfl⟩

end SdvZone.Uart
