import DriveOverlay.Single.Rounding

/-! # State of the vehicle and its controls

The parts of a scene that come from the vehicle bus and the driving system: units, cruise control,
steering, the posted limit, the freshness of the control stream, standstill, driver monitoring
and longitudinal control.  Every part has a resting value, which a record may leave out. -/

namespace DriveOverlay

/-! ### Units -/

/-- The units that speeds are shown in. -/
inductive UnitSystem where
  | metric
  | imperial
deriving Repr, DecidableEq, Inhabited

namespace UnitSystem

/-- Both systems. -/
def all : List UnitSystem := [.metric, .imperial]

/-- The word for a system in a record. -/
def name : UnitSystem → String
  | .metric => "metric"
  | .imperial => "imperial"

/-- What a speed in meters per second is multiplied by. -/
def speedFactor : UnitSystem → Float32
  | .metric => 3.6
  | .imperial => 2.2369363

/-- The unit under the speed readout. -/
def speedLabel : UnitSystem → String
  | .metric => "km/h"
  | .imperial => "mph"

/-- The unit beside a relative speed. -/
def relativeSpeedLabel : UnitSystem → String
  | .metric => "km/h"
  | .imperial => "mi/h"

end UnitSystem

/-! ### Cruise control and limits -/

/-- Cruise control.  A maximum of 255 means that none is set. -/
structure Cruise where
  maxSpeed : Float32 := 0
  heldSpeed : Float32 := 0
  adaptive : Bool := false
deriving Inhabited

/-- How the driver's offset is added to a posted limit. -/
inductive OffsetPolicy where
  | fixed
  | percent
deriving Repr, DecidableEq, Inhabited

namespace OffsetPolicy

/-- Both policies. -/
def all : List OffsetPolicy := [.fixed, .percent]

/-- The word for a policy in a record. -/
def name : OffsetPolicy → String
  | .fixed => "fixed"
  | .percent => "percent"

end OffsetPolicy

/-- A posted limit in display units, `0` when unknown, and the driver's offset. -/
structure SpeedLimit where
  value : Float32 := 0
  offset : Float32 := 0
  policy : OffsetPolicy := .fixed
deriving Inhabited

/-! ### Steering and controls -/

/-- The steering wheel and the controller's output. -/
structure Steering where
  angle : Float32 := 0
  overridden : Bool := false
  output : Float32 := 0
  limit : Float32 := 0
deriving Inhabited

/-- The control stream: whether a message came with this frame, how long the system has been
running, whether any message ever came, and how long ago the last one was. -/
structure Controls where
  enabled : Bool := false
  engageable : Bool := false
  updated : Bool := true
  framesSinceStart : UInt64 := 0
  seenSinceStart : Bool := true
  secondsSinceUpdate : Float32 := 0
deriving Inhabited

/-- Overall state of the system. -/
inductive Status where
  | disengaged
  | engaged
  | warning
  | alert
deriving Repr, DecidableEq, Inhabited

namespace Status

/-- All states. -/
def all : List Status := [.disengaged, .engaged, .warning, .alert]

/-- The word for a state in a record. -/
def name : Status → String
  | .disengaged => "disengaged"
  | .engaged => "engaged"
  | .warning => "warning"
  | .alert => "alert"

end Status

/-! ### Standstill, driver and longitudinal control -/

/-- The vehicle stands, and for how many seconds. -/
structure Standstill where
  active : Bool := false
  elapsed : Float32 := 0
deriving Inhabited

/-- Monitoring of the driver. -/
structure DriverMonitoring where
  active : Bool := false
  monitoringMode : Bool := false
deriving Repr, DecidableEq, Inhabited

/-- Longitudinal control: the gap setting, the setting that means "dynamic", and its value. -/
structure Longitudinal where
  enabled : Bool := false
  gap : UInt8 := 0
  dynamicGap : UInt8 := 0
  dynamicValue : Float32 := 0
deriving Inhabited

end DriveOverlay
