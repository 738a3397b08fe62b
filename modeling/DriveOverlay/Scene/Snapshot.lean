import DriveOverlay.Geometry.Point
import DriveOverlay.Scene.Alert
import DriveOverlay.Scene.Display
import DriveOverlay.Scene.Lead
import DriveOverlay.Scene.Telemetry
import DriveOverlay.Scene.Vehicle

/-! # Snapshots

Everything that is known about one frame: vehicle, perception, controls, display modes and
diagnostics.  Lists that belong together (lane lines and their probabilities, road edges and their
deviations) may differ in length. -/

namespace DriveOverlay

/-- One frame's scene.  Speeds are in meters per second, leads nearest first; the radar distance
is missing while the radar has no track. -/
structure Snapshot where
  frame : UInt64 := 0
  speed : Float32 := 0
  cruise : Cruise := {}
  units : UnitSystem := .metric
  leads : List Lead := []
  radarDistance : Option Float32 := none
  laneProbabilities : List Float32 := []
  laneLines : List Polygon := []
  roadEdges : List Polygon := []
  roadEdgeDeviations : List Float32 := []
  path : Polygon := []
  steering : Steering := {}
  speedLimit : SpeedLimit := {}
  status : Status := .disengaged
  controls : Controls := {}
  alert : Alert := {}
  standstill : Standstill := {}
  display : Display := {}
  driverMonitoring : DriverMonitoring := {}
  liveParameters : LiveParameters := {}
  mapData : MapData := {}
  longitudinal : Longitudinal := {}
  device : Device := {}
  debugText : String × String := ("", "")
deriving Inhabited

namespace Snapshot

/-- The first lead, if it is usable. -/
def firstLead? (s : Snapshot) : Option Lead :=
  s.leads[0]?.filter Lead.isUsable

/-- The second lead, if it is usable. -/
def secondLead? (s : Snapshot) : Option Lead :=
  s.leads[1]?.filter Lead.isUsable

/-- The display shows no diagnostics. -/
def isStock (s : Snapshot) : Bool :=
  s.display.settings.stock

/-- The speed in display units, never negative. -/
def displaySpeed (s : Snapshot) : Float32 :=
  Single.upper (s.speed * s.units.speedFactor) 0

end Snapshot

end DriveOverlay
