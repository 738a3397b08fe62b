import DriveOverlay.Scene.Display
import DriveOverlay.Scene.Vehicle

/-! # Settings

Everything that can be configured: units, display, camera, surface, pacing, the recording to
replay and logging.  `Settings.check` refuses values that leave nothing to draw or to pace by, and
`Settings.accept` takes what is left of a text that a reader understands. -/

namespace DriveOverlay

/-- The road camera: focal length and principal point in pixels, and whether it is the wide one. -/
structure CameraSettings where
  focalLength : Float32 := 2648
  principalPoint : Float32 × Float32 := (964, 604)
  wide : Bool := false
deriving Inhabited

/-- The size of the surface in pixels. -/
structure SurfaceSettings where
  width : UInt32 := 2160
  height : UInt32 := 1080
deriving Repr, DecidableEq, Inhabited

/-- Frames per second, and the paint interval in milliseconds above which a frame is slow. -/
structure PacingSettings where
  frequency : UInt32 := 20
  slowFrame : Float := 66
deriving Inhabited

/-- How many frames a throttled value is held: half a second's worth, and at least one. -/
def PacingSettings.throttle (p : PacingSettings) : UInt64 :=
  (max (p.frequency / 2) 1).toUInt64

/-- The recording to replay, and its records per second. -/
structure ReplaySettings where
  input : String := "telemetry.jsonl"
  frequency : UInt32 := 20
deriving Repr, DecidableEq, Inhabited

/-- What is logged. -/
structure LoggingSettings where
  level : String := "info"
deriving Repr, DecidableEq, Inhabited

/-- The configuration. -/
structure Settings where
  units : UnitSystem := .metric
  display : DisplaySettings := {}
  camera : CameraSettings := {}
  surface : SurfaceSettings := {}
  pacing : PacingSettings := {}
  replay : ReplaySettings := {}
  logging : LoggingSettings := {}
deriving Inhabited

/-- Why a configuration is not used. -/
inductive SettingsError where
  /-- The file cannot be read. -/
  | unreadable (path : String)
  /-- The text is no configuration. -/
  | malformed
  | debugLevel
  | surfaceSize
  | frequency
  | focalLength
deriving Repr, DecidableEq

namespace SettingsError

/-- The wording of an error. -/
def message : SettingsError → String
  | .unreadable path => "reading config " ++ path
  | .malformed => "the configuration does not parse"
  | .debugLevel => "display.debug_level must be 0, 1 or 2"
  | .surfaceSize => "surface size must be non-zero"
  | .frequency => "pacing.ui_freq must be non-zero"
  | .focalLength => "camera.focal_length must be positive"

end SettingsError

/-- The settings, unless one of them is out of range; the first such one counts. -/
def Settings.check (s : Settings) : Except SettingsError Settings :=
  if 2 < s.display.debugLevel then .error .debugLevel
  else if s.surface.width = 0 || s.surface.height = 0 then .error .surfaceSize
  else if s.pacing.frequency = 0 then .error .frequency
  else if s.camera.focalLength.isFinite && 0 < s.camera.focalLength then .ok s
  else .error .focalLength

/-- Settings as a reader understands a text; they are checked. -/
def Settings.accept (read : String → Option Settings) (text : String) :
    Except SettingsError Settings :=
  match read text with
  | some settings => settings.check
  | none => .error .malformed

end DriveOverlay
