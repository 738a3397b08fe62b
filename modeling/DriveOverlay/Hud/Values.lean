import DriveOverlay.Alerts.Machine
import DriveOverlay.Hud.Diagnostics
import DriveOverlay.Hud.Leads
import DriveOverlay.Hud.Panels
import DriveOverlay.Hud.Road
import DriveOverlay.Hud.Speed

/-! # Display values

Everything that is drawn in a frame, as texts, colors and flags.  All of it depends on the frame
alone, except two flags that are looked at only every so many frames and held in between: whether
the system can be engaged, and whether the driver is monitored. -/

namespace DriveOverlay

/-- The values to draw in a frame. -/
structure HudValues where
  speed : SpeedReadout
  overLimit : Bool
  limitKnown : Bool
  cruiseBoxFill : Color
  hidesCruiseBox : Bool
  statusTint : Color
  leads : List LeadMarker
  laneColors : List Color
  edgeColors : List Color
  path : PathStyle
  standstill : Option StandstillTimer
  engageable : Bool
  driverMonitored : Bool
  leftPanel : List PanelRow
  rightPanel : List PanelRow
  tires : Option TirePanel
  tuning : Option TuningReadout

/-- The fill of the cruise box: the limit first, then what the vehicle does. -/
def Snapshot.cruiseBoxFill (s : Snapshot) (overLimit limitKnown : Bool) : Color :=
  if overLimit then Palette.overLimitFill
  else if limitKnown then Palette.withinLimitFill
  else if s.cruise.adaptive then Palette.adaptiveCruiseFill
  else if s.controls.enabled then Palette.enabledFill
  else Palette.idleFill

/-- The two flags that are held between looks. -/
structure HeldFlags where
  engageable : Bool := false
  driverMonitored : Bool := false
deriving Repr, DecidableEq, Inhabited

/-- The held flags as a frame has them. -/
def Snapshot.heldFlags (s : Snapshot) : HeldFlags :=
  ⟨s.controls.engageable || s.controls.enabled, s.driverMonitoring.active⟩

/-- The values of a frame, given the size of the alert on screen and the held flags. -/
def Snapshot.hudValues (s : Snapshot) (onScreen : AlertSize) (held : HeldFlags) : HudValues :=
  let overLimit := s.speedLimit.isExceededBy s.displaySpeed
  let limitKnown := s.speedLimit.isValid
  let stock := s.isStock
  { speed := s.speedReadout
    overLimit
    limitKnown
    cruiseBoxFill := s.cruiseBoxFill overLimit limitKnown
    hidesCruiseBox := onScreen ≠ .none
    statusTint := s.status.tint
    leads := s.leadMarkers
    laneColors := s.laneColors
    edgeColors := s.edgeColors
    path := s.pathStyle
    standstill :=
      if s.standstill.active then some (.ofElapsed s.standstill.elapsed) else none
    engageable := held.engageable
    driverMonitored := held.driverMonitored
    leftPanel := if stock then [] else s.leftPanel
    rightPanel := if stock then [] else s.rightPanel
    tires :=
      if stock then none
      else some (.ofPressures s.device.tirePressures s.display.settings.pressureUnit)
    tuning :=
      if !stock && 2 ≤ s.display.settings.debugLevel then some s.tuningReadout else none }

/-- Derives the values of frame after frame: how many frames a look holds, at least one, how many
frames there were, and what was seen last. -/
structure HudDeriver where
  throttle : UInt64
  frame : UInt64 := 0
  held : HeldFlags := {}
deriving Repr, DecidableEq

namespace HudDeriver

/-- A deriver that looks every so many frames. -/
def every (frames : UInt64) : HudDeriver :=
  { throttle := max frames 1 }

/-- The flags that hold in this frame. -/
def look (d : HudDeriver) (s : Snapshot) : HeldFlags :=
  if d.frame % d.throttle = 0 then s.heldFlags else d.held

/-- Goes on by one frame; `onScreen` is the alert that is shown in it. -/
def derive (d : HudDeriver) (s : Snapshot) (onScreen : Alert) : HudDeriver × HudValues :=
  let held := d.look s
  ({ d with frame := d.frame + 1, held }, s.hudValues onScreen.size held)

end HudDeriver

end DriveOverlay
