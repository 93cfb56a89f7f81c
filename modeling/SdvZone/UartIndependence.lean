import SdvZone.UartLines

/-! What earlier frames leave behind in `rx_buf`. The buffer is never cleared, and the payload byte
is read at a fixed place: a frame without a payload takes the byte that was there before. -/

namespace SdvZone.Uart

open Wire Machine Mpu

/-- The bytes arrive in some line, at the end of which they are accepted as one frame. -/
def Accepts (rx : Mcu.UartRx) (frame : Bytes) (event : Mcu.UartEvent) : Prop :=
  ∃ line, lineBytes line = frame ∧ AcceptsLine rx line event

/-- The frame brings the same event after all histories that end with an empty buffer. -/
def Independent (frame : Bytes) : Prop :=
  ∀ first second : List Mcu.UartRound,
    (Mcu.someipUartCalls .init first).1.rxLen = 0 →
    (Mcu.someipUartCalls .init second).1.rxLen = 0 →
    ∀ event other, Accepts (Mcu.someipUartCalls .init first).1 frame event →
      Accepts (Mcu.someipUartCalls .init second).1 frame other → event = other

theorem accepts_roundOf {rx : Mcu.UartRx} (hempty : rx.rxLen = 0) {frame : Bytes}
    (h : EventFrame frame) : AcceptsLine rx [roundOf 0 frame] (eventOf rx.rxBuf frame) := by
  have hne : frame ≠ [] := List.ne_nil_of_length_pos (by rw [h.2]; omega)
  have hsplit := List.dropLast_append_getLast hne
  have hline : [roundOf 0 frame] =
      [] ++ [⟨0, (frame.dropLast.map fun byte => (0, byte)) ++ [(0, frame.getLast hne)]⟩] := by
    conv_lhs => rw [roundOf, ← hsplit, List.map_append]
    rfl
  have hunpaused := lineUnpaused_roundOf 0 frame
  have hbytes := lineBytes_roundOf 0 frame
  rw [hline] at hunpaused hbytes ⊢
  have haccepts := acceptsLine_of_eventFrame hempty [] 0 _ 0 _ hunpaused (hbytes.symm ▸ h)
  rwa [hbytes] at haccepts

/-- A notification of level 85. -/
def notifyHistory : List Mcu.UartRound :=
  [roundOf 0 [0x12, 0x34, 0x80, 0x01, 0, 0, 0, 9, 0, 1, 0, 1, 1, 1, 2, 0, 85]]

theorem notifyHistory_leaves :
    (Mcu.someipUartCalls .init notifyHistory).1.rxLen = 0 ∧
      getU8 (Mcu.someipUartCalls .init notifyHistory).1.rxBuf.toList 16 = 85 := by
  rw [someipUartCalls_eq]
  decide +kernel

/-- The level is still there when a frame without payload comes. -/
theorem not_independent {frame : Bytes} (hframe : EventFrame frame)
    (hlength : beNat (slice frame 4 8) = 8) : ¬Independent frame := by
  intro hindependent
  have hsize : frame.length = 16 := by rw [hframe.2, hlength]
  have hstart : (Mcu.someipUartCalls .init []).1 = .init := by rw [someipUartCalls_eq]; rfl
  obtain ⟨hempty, hleft⟩ := notifyHistory_leaves
  have hfresh : (Mcu.someipUartCalls .init []).1.rxLen = 0 := by rw [hstart]; rfl
  have hsame := hindependent [] notifyHistory hfresh hempty _ _
    ⟨_, lineBytes_roundOf 0 frame, accepts_roundOf hfresh hframe⟩
    ⟨_, lineBytes_roundOf 0 frame, accepts_roundOf hempty hframe⟩
  rw [eventOf_header _ hsize, eventOf_header _ hsize, hleft, hstart] at hsame
  exact absurd (Prod.mk.inj hsame).2 (by decide +kernel)

/-- The frames that depend on what came before them are those without a payload. -/
theorem independent_iff (frame : Bytes) :
    Independent frame ↔ ¬(EventFrame frame ∧ beNat (slice frame 4 8) = 8) := by
  constructor
  · rintro hindependent ⟨hframe, hlength⟩
    exact not_independent hframe hlength hindependent
  · intro hpayload first second hfirst hsecond event other hevent hother
    obtain ⟨line, rfl, haccepts⟩ := hevent
    obtain ⟨line', hbytes, haccepts'⟩ := hother
    obtain ⟨hframe, rfl⟩ := eventFrame_of_acceptsLine hfirst haccepts
    obtain ⟨-, rfl⟩ := eventFrame_of_acceptsLine hsecond haccepts'
    have hlong : 16 < (lineBytes line).length := by
      have hlength := hframe.1.length
      have hmore : beNat (slice (lineBytes line) 4 8) ≠ 8 := fun h => hpayload ⟨hframe, h⟩
      rw [hframe.2]
      omega
    rw [hbytes, eventOf_payload _ hlong, eventOf_payload _ hlong]

/-- A notification that consists of the header alone. -/
def bareNotify : Bytes := [0x12, 0x34, 0x80, 0x01, 0, 0, 0, 8, 0, 1, 0, 2, 1, 1, 2, 0]

/-- It brings level 0 to a fresh receiver and level 85 to one that has received that level before. -/
theorem bareNotify_depends :
    (Mcu.someipUartCalls .init [roundOf 0 bareNotify]).2 = [(0x8001, 0)] ∧
    (Mcu.someipUartCalls (Mcu.someipUartCalls .init notifyHistory).1
      [roundOf 0 bareNotify]).2 = [(0x8001, 85)] ∧ ¬Independent bareNotify := by
  refine ⟨?_, ?_, not_independent ⟨⟨⟨by decide, by decide, by decide⟩, by decide⟩, by decide⟩
    (by decide)⟩
  · rw [someipUartCalls_eq]
    decide +kernel
  · rw [someipUartCalls_eq, someipUartCalls_eq]
    decide +kernel

end SdvZone.Uart
