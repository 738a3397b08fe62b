import DriveOverlay.Single.Rounding

/-! # Lead vehicles

A vehicle ahead as the perception reports it.  A record is usable when it is marked valid, its
distance and relative speed are finite, and the distance is not negative. -/

namespace DriveOverlay

/-- A tracked vehicle ahead: distance and lateral offset in meters, relative speed in meters per
second, negative while the gap closes. -/
structure Lead where
  distance : Float32 := 0
  relativeSpeed : Float32 := 0
  lateral : Float32 := 0
  valid : Bool := false
deriving Inhabited

/-- The record describes a vehicle that can be shown. -/
def Lead.isUsable (l : Lead) : Bool :=
  l.valid && l.distance.isFinite && l.relativeSpeed.isFinite && 0 ≤ l.distance

end DriveOverlay
