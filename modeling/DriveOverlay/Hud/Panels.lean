import DriveOverlay.Scene.Snapshot
import DriveOverlay.Signed
import DriveOverlay.Single.Decimal

/-! # Side panels

Rows of diagnostics on both sides of the surface: a value, a caption under it, a note beside it,
and how serious the value is.  Left are the lead, the steering and the cruise gap, right the
device. -/

namespace DriveOverlay

/-- How serious a value is. -/
inductive Severity where
  | normal
  | good
  | caution
  | critical
deriving Repr, DecidableEq, Inhabited

namespace Severity

/-- Above the higher threshold critical, above the lower one a caution. -/
def ofThresholds (critical caution value : Float32) : Severity :=
  if critical < value then .critical else if caution < value then .caution else .normal

/-- Of the distance to the lead, in meters. -/
def ofLeadDistance (d : Float32) : Severity :=
  if d < 5 then .critical else if Single.toInt32 d < 15 then .caution else .normal

/-- Of the speed relative to the lead, in whole display units toward zero. -/
def ofRelativeSpeed (v : Float32) : Severity :=
  let v := Single.toInt32 v
  if v < -5 then .critical else if v < 0 then .caution else .normal

/-- Of the steering angle, in whole degrees toward zero.  The lowest number of 32 bits has no
opposite and stays as it is. -/
def ofSteeringAngle (angle : Float32) : Severity :=
  let a := signed32 (Single.toInt32 angle).natAbs
  if 50 < a then .critical else if 30 < a then .caution else .good

/-- Of the temperature of the processor. -/
def ofCpuTemperature : Float32 → Severity := ofThresholds 85 75

/-- Of the temperature of the battery. -/
def ofBatteryTemperature : Float32 → Severity := ofThresholds 50 40

/-- Of the temperature around the device. -/
def ofAmbientTemperature : Float32 → Severity := ofThresholds 50 45

/-- Of the accuracy of the position, in meters. -/
def ofGpsAccuracy : Float32 → Severity := ofThresholds 1.3 0.85

end Severity

/-- One row of a panel. -/
structure PanelRow where
  value : String
  caption : String
  side : String
  severity : Severity
deriving Repr, DecidableEq, Inhabited

/-- The text of a distance, with one place below ten meters. -/
def leadDistanceText (d : Float32) : String :=
  Single.fixed (if d < 10 then 1 else 0) d

/-- The text of an accuracy; what is zero, huge or no number is no position. -/
def gpsAccuracyText (accuracy : Float32) : String :=
  if !accuracy.isFinite || 99 < accuracy || accuracy == 0 then "None"
  else Single.fixed (if 9.99 < accuracy then 1 else 2) accuracy

namespace Snapshot

/-! ### Left panel -/

/-- Distance of the first lead. -/
def leadDistanceRow (s : Snapshot) : PanelRow :=
  match s.firstLead? with
  | some l => ⟨leadDistanceText l.distance, "REL DIST", "m", .ofLeadDistance l.distance⟩
  | none => ⟨"", "REL DIST", "m", .normal⟩

/-- Relative speed of the first lead, in display units. -/
def relativeSpeedRow (s : Snapshot) : PanelRow :=
  let unit := s.units.relativeSpeedLabel
  match s.firstLead? with
  | some l =>
    let v := l.relativeSpeed * s.units.speedFactor
    ⟨Single.fixed 0 v, "REL SPED", unit, .ofRelativeSpeed v⟩
  | none => ⟨"-", "REL SPED", unit, .normal⟩

/-- The angle of the steering wheel. -/
def steeringRow (s : Snapshot) : PanelRow :=
  ⟨Single.fixed 0 s.steering.angle, "STER ANG", "°", .ofSteeringAngle s.steering.angle⟩

/-- The learned steering ratio. -/
def steerRatioRow (s : Snapshot) : PanelRow :=
  ⟨Single.fixed 2 s.liveParameters.steerRatio, "SteerRatio", "", .normal⟩

/-- The gap that cruise control keeps. -/
def cruiseGapRow (s : Snapshot) : PanelRow :=
  let long := s.longitudinal
  let dynamic := long.gap = long.dynamicGap
  let value :=
    if !s.controls.enabled then "-" else if dynamic then "AUT" else toString long.gap.toNat
  ⟨value, "CruiseGap", if dynamic then Single.fixed 0 long.dynamicValue else "", .normal⟩

/-- The rows of the left panel; the gap only with longitudinal control. -/
def leftPanel (s : Snapshot) : List PanelRow :=
  [s.leadDistanceRow, s.relativeSpeedRow, s.steeringRow, s.steerRatioRow] ++
    if s.longitudinal.enabled then [s.cruiseGapRow] else []

/-! ### Right panel -/

/-- A temperature in whole degrees. -/
def degreesText (t : Float32) : String :=
  Single.fixed 0 t ++ "°C"

/-- A share in whole percent. -/
def percentText (p : Float32) : String :=
  Single.fixed 0 p ++ "%"

/-- The processor. -/
def cpuRow (s : Snapshot) : PanelRow :=
  let d := s.device
  ⟨degreesText d.cpuTemperature, "CPU TEMP", percentText d.cpuUsage,
    .ofCpuTemperature d.cpuTemperature⟩

/-- The temperature of the battery and its charge, or that around a device without one. -/
def powerRows (s : Snapshot) : List PanelRow :=
  let d := s.device
  let fan := Single.fixed 0 (d.fanSpeed / 1000)
  if d.batteryLess then
    [⟨degreesText d.ambientTemperature, "SYS TEMP", fan,
        .ofAmbientTemperature d.ambientTemperature⟩]
  else
    [⟨degreesText d.batteryTemperature, "BAT TEMP", fan,
        .ofBatteryTemperature d.batteryTemperature⟩,
      ⟨percentText d.batteryPercent, "BAT LVL", if d.charging then "++" else "--", .normal⟩]

/-- Accuracy of the position and altitude, if there is a position. -/
def positionRows (s : Snapshot) : List PanelRow :=
  let d := s.device
  if d.gpsAccuracy == 0 then [] else
    [⟨gpsAccuracyText d.gpsAccuracy, "GPS PREC", toString d.satellites.toNat,
        .ofGpsAccuracy d.gpsAccuracy⟩,
      ⟨Single.fixed 0 d.altitude, "ALTITUDE", "m", .normal⟩]

/-- The rows of the right panel. -/
def rightPanel (s : Snapshot) : List PanelRow :=
  s.cpuRow :: (s.powerRows ++ s.positionRows)

end Snapshot

end DriveOverlay
