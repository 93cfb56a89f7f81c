import SdvZone.WireBytes

/-! Memory and arithmetic as the machine has them: memory is accessed by index, and `uint32_t` and
`size_t` have 32 bits. Whatever C++ leaves undefined, and every unsigned operation that leaves its
range, is a `Fault`. -/

namespace SdvZone.Mcu.Checked

open Wire

inductive Fault where
  | read (index : Nat)
  | write (index : Nat)
  | addition
  | subtraction
  deriving DecidableEq, Repr

abbrev Run (α : Type) := Except Fault α

/-- `a + b` of two unsigned numbers. -/
def add (a b : Nat) : Run Nat := if a + b < 2 ^ 32 then .ok (a + b) else .error .addition

/-- `a - b` of two unsigned numbers. -/
def sub (a b : Nat) : Run Nat := if b ≤ a then .ok (a - b) else .error .subtraction

def load (buf : Bytes) (index : Nat) : Run UInt8 :=
  match buf[index]? with
  | some byte => .ok byte
  | none => .error (.read index)

/-- `get_u16`. -/
def loadU16 (buf : Bytes) (p : Nat) : Run UInt16 := do
  let high ← load buf p
  let low ← load buf (← add p 1)
  return (high.toUInt16 <<< 8) ||| low.toUInt16

/-- `get_u32`. -/
def loadU32 (buf : Bytes) (p : Nat) : Run UInt32 := do
  let first ← load buf p
  let second ← load buf (← add p 1)
  let third ← load buf (← add p 2)
  let fourth ← load buf (← add p 3)
  return (first.toUInt32 <<< 24) ||| (second.toUInt32 <<< 16) ||| (third.toUInt32 <<< 8) |||
    fourth.toUInt32

/-! ### Without faults -/

theorem ok_bind {α β : Type} (value : α) (next : α → Run β) : (Except.ok value >>= next) = next value := rfl

theorem add_ok {a b : Nat} (h : a + b < 2 ^ 32) : add a b = .ok (a + b) := if_pos h

theorem sub_ok {a b : Nat} (h : b ≤ a) : sub a b = .ok (a - b) := if_pos h

theorem load_ok {buf : Bytes} {index : Nat} (h : index < buf.length) :
    load buf index = .ok (getU8 buf index) := by
  rw [load, getU8, List.getD_eq_getElem?_getD, List.getElem?_eq_getElem h]
  rfl

section Loads

variable {buf : Bytes} {p : Nat} (hsize : buf.length < 2 ^ 32)

include hsize

theorem loadU16_ok (h : p + 2 ≤ buf.length) : loadU16 buf p = .ok (getU16 buf p) := by
  rw [loadU16, load_ok (by omega), add_ok (by omega), ok_bind, ok_bind, load_ok (by omega), ok_bind]
  rfl

theorem loadU32_ok (h : p + 4 ≤ buf.length) : loadU32 buf p = .ok (getU32 buf p) := by
  rw [loadU32, load_ok (by omega), add_ok (by omega), add_ok (by omega), add_ok (by omega)]
  simp only [ok_bind]
  rw [load_ok (by omega), load_ok (by omega), load_ok (by omega)]
  rfl

end Loads

end SdvZone.Mcu.Checked
