import DriveOverlay.Single.Rounding

/-! # Diagnostics

Live tuning values, map data, and the telemetry of the device and the tires. -/

namespace DriveOverlay

/-- The lateral controller in use. -/
inductive LateralControl where
  | pid
  | indi
  | lqr
deriving Repr, DecidableEq, Inhabited

namespace LateralControl

/-- All controllers. -/
def all : List LateralControl := [.pid, .indi, .lqr]

/-- The word for a controller in a record. -/
def name : LateralControl → String
  | .pid => "pid"
  | .indi => "indi"
  | .lqr => "lqr"

/-- The controller as the tuning readout shows it. -/
def label : LateralControl → String
  | .pid => "PID"
  | .indi => "INDI"
  | .lqr => "LQR"

end LateralControl

/-- Parameters that the system learns or applies while driving. -/
structure LiveParameters where
  steerRatio : Float32 := 0
  angleOffset : Float32 := 0
  stiffness : Float32 := 0
  actuatorDelay : Float32 := 0
  rateCost : Float32 := 0
  leftProbability : Float32 := 0
  rightProbability : Float32 := 0
  lateralControl : LateralControl := .pid
deriving Inhabited

/-- Limits from the map, here, ahead and in turns. -/
structure MapData where
  speedLimit : Float32 := 0
  speedLimitAhead : Float32 := 0
  speedLimitAheadDistance : Float32 := 0
  turnSpeedLimit : Float32 := 0
  turnSpeedLimitEndDistance : Float32 := 0
  turnSpeedLimitSign : Float32 := 0
deriving Inhabited

/-- One value for each wheel. -/
structure Wheels (α : Type) where
  frontLeft : α
  frontRight : α
  rearLeft : α
  rearRight : α
deriving Inhabited

namespace Wheels

/-- Front left, front right, rear left, rear right. -/
def toList {α : Type} (w : Wheels α) : List α :=
  [w.frontLeft, w.frontRight, w.rearLeft, w.rearRight]

/-- A function on every wheel. -/
def map {α β : Type} (f : α → β) (w : Wheels α) : Wheels β :=
  ⟨f w.frontLeft, f w.frontRight, f w.rearLeft, f w.rearRight⟩

end Wheels

/-- Temperatures, power, positioning and tires.  A device without a battery shows the ambient
temperature instead; an accuracy of `0` means that there is no position. -/
structure Device where
  cpuTemperature : Float32 := 0
  cpuUsage : Float32 := 0
  batteryTemperature : Float32 := 0
  ambientTemperature : Float32 := 0
  batteryPercent : Float32 := 0
  charging : Bool := false
  batteryLess : Bool := false
  fanSpeed : Float32 := 0
  gpsAccuracy : Float32 := 0
  satellites : UInt32 := 0
  altitude : Float32 := 0
  tirePressures : Wheels Float32 := ⟨0, 0, 0, 0⟩
deriving Inhabited

end DriveOverlay
