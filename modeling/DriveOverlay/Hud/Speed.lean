import DriveOverlay.Scene.Snapshot
import DriveOverlay.Single.Rounding

/-! # Speed readout and limit check

Speeds are in display units.  They are shown as whole numbers, a half going to the even one, and
as a dash when they are no numbers.  The limit check adds the driver's offset to a posted limit,
as it is or as a percentage rounded half away from zero, and a margin. -/

namespace DriveOverlay

/-! ### Readout -/

/-- What is shown where there is no value. -/
def placeholder : String := "-"

/-- The text of a speed. -/
def speedText (v : Float32) : String :=
  if v.isFinite then toString (Single.toInt64 (Single.roundTiesEven v)) else placeholder

/-- The cruise maximum that means that none is set. -/
def unsetCruise : Int := 255

/-- A cruise maximum is set. -/
def isCruiseSet (maxSpeed : Float32) : Bool :=
  maxSpeed.isFinite && 0 < maxSpeed && Single.toInt32 maxSpeed ≠ unsetCruise

/-- Held speeds below this leave the top line of the cruise box to a dash. -/
def leastShownSpeed : Float32 := 20

/-- The texts of the speed readout and the cruise box. -/
structure SpeedReadout where
  speed : String
  unit : String
  maxSpeed : String
  heldSpeed : String
  isCruiseSet : Bool
  showsMaxSpeed : Bool
deriving Repr, DecidableEq

/-- The speed readout of a frame. -/
def Snapshot.speedReadout (s : Snapshot) : SpeedReadout :=
  let isSet := isCruiseSet s.cruise.maxSpeed
  { speed := speedText s.displaySpeed
    unit := s.units.speedLabel
    maxSpeed := if isSet then speedText s.cruise.maxSpeed else placeholder
    heldSpeed := if isSet then speedText s.cruise.heldSpeed else placeholder
    isCruiseSet := isSet
    showsMaxSpeed := isSet && leastShownSpeed ≤ s.cruise.heldSpeed && s.controls.enabled }

/-! ### Limits -/

namespace SpeedLimit

/-- Limits up to this count as unknown. -/
def leastKnown : Float32 := 19

/-- How far above limit and offset a speed must be. -/
def margin : Float32 := 1

/-- The limit is known. -/
def isValid (l : SpeedLimit) : Bool :=
  l.value.isFinite && leastKnown < l.value

/-- What the driver's offset adds to the limit. -/
def allowance (l : SpeedLimit) : Float32 :=
  match l.policy with
  | .fixed => l.offset
  | .percent => Single.round (l.value * 0.01 * l.offset)

/-- A speed is above the limit, offset and margin. -/
def isExceededBy (l : SpeedLimit) (speed : Float32) : Bool :=
  l.isValid && speed.isFinite && l.value + l.allowance + margin < speed

end SpeedLimit

end DriveOverlay
