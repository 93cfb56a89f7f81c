import SdvZone.MachineRun

/-! The camera loop of `main` in `ai/drowsiness.py`. The faces of a frame and the eyes found in each are
what OpenCV makes of the picture, and inputs here. -/

namespace SdvZone.Mpu

open Machine

/-- `EAR_CONSEC_FRAMES`. -/
def earConsecFrames : Nat := 15

/-- A frame that `cap.read` has brought: `len(eyes)` for each of its faces, in the order of
`detectMultiScale`, and whether the key behind it is `q`. -/
structure Frame where
  faces : List Nat
  quit : Bool
  deriving DecidableEq, Repr

/-- With fewer than two eyes found, they are taken to be closed. -/
def eyesClosed (eyes : Nat) : Bool := decide (eyes < 2)

/-- What is done for one face: the counter afterwards, and the level that is sent. The difference is
`max(0, counter - 2)`. -/
def cameraFace (counter eyes : Nat) : Nat × Option Nat :=
  if eyesClosed eyes then
    let counter := counter + 1
    (counter, if earConsecFrames ≤ counter then some (min (50 + counter * 2) 100) else none)
  else (counter - 2, none)

/-- The levels sent for each frame, until a read fails or `q` is pressed. An exception of the transport
ends the loop as well, with some of these sent. -/
def cameraLoop : Nat → List (Option Frame) → List (List Nat)
  | _, [] => []
  | _, none :: _ => []
  | counter, some frame :: rest =>
      let (counter, levels) := react cameraFace counter frame.faces
      levels :: if frame.quit then [] else cameraLoop counter rest

end SdvZone.Mpu
