import DriveOverlay.Settings.Basic
import DriveOverlay.Yaml.Reader

/-! # Reading settings

Settings are a YAML mapping of sections.  What is missing keeps its default, so the empty mapping
gives the default settings.

Sections are read as mappings only, not as sequences of their values in order, and texts in the part
of YAML that `Yaml.ofText?` leaves out are malformed here. -/

namespace DriveOverlay

open Yaml (field?)

def DisplaySettings.ofYaml? (y : Yaml) : Option DisplaySettings := do
  let ms ← y.fields?
  let d : DisplaySettings := {}
  return {
    debugLevel := ← field? ms "debug_level" d.debugLevel Yaml.byte?
    stock := ← field? ms "stock_ui" d.stock Yaml.flag?
    laneMode := ← field? ms "lane_mode" d.laneMode (Yaml.named? LaneMode.all LaneMode.name)
    pressureUnit := ← field? ms "tpms_unit" d.pressureUnit
      (Yaml.named? PressureUnit.all PressureUnit.name) }

def CameraSettings.ofYaml? (y : Yaml) : Option CameraSettings := do
  let ms ← y.fields?
  let d : CameraSettings := {}
  return {
    focalLength := ← field? ms "focal_length" d.focalLength Yaml.single?
    principalPoint := ← field? ms "principal_point" d.principalPoint (Yaml.pair? Yaml.single?)
    wide := ← field? ms "wide" d.wide Yaml.flag? }

def SurfaceSettings.ofYaml? (y : Yaml) : Option SurfaceSettings := do
  let ms ← y.fields?
  let d : SurfaceSettings := {}
  return {
    width := ← field? ms "width" d.width Yaml.natural32?
    height := ← field? ms "height" d.height Yaml.natural32? }

def PacingSettings.ofYaml? (y : Yaml) : Option PacingSettings := do
  let ms ← y.fields?
  let d : PacingSettings := {}
  return {
    frequency := ← field? ms "ui_freq" d.frequency Yaml.natural32?
    slowFrame := ← field? ms "slow_frame_ms" d.slowFrame Yaml.double? }

def ReplaySettings.ofYaml? (y : Yaml) : Option ReplaySettings := do
  let ms ← y.fields?
  let d : ReplaySettings := {}
  return {
    input := ← field? ms "input" d.input Yaml.text?
    frequency := ← field? ms "telemetry_hz" d.frequency Yaml.natural32? }

def LoggingSettings.ofYaml? (y : Yaml) : Option LoggingSettings := do
  let ms ← y.fields?
  let d : LoggingSettings := {}
  return { level := ← field? ms "level" d.level Yaml.text? }

namespace Settings

/-- Settings from a mapping of sections. -/
def ofYaml? (y : Yaml) : Option Settings := do
  let ms ← y.fields?
  let d : Settings := {}
  return {
    units := ← field? ms "units" d.units (Yaml.named? UnitSystem.all UnitSystem.name)
    display := ← field? ms "display" d.display DisplaySettings.ofYaml?
    camera := ← field? ms "camera" d.camera CameraSettings.ofYaml?
    surface := ← field? ms "surface" d.surface SurfaceSettings.ofYaml?
    pacing := ← field? ms "pacing" d.pacing PacingSettings.ofYaml?
    replay := ← field? ms "replay" d.replay ReplaySettings.ofYaml?
    logging := ← field? ms "logging" d.logging LoggingSettings.ofYaml? }

/-- Settings from the text of a configuration; they are checked. -/
def ofText : String → Except SettingsError Settings :=
  accept fun s => (Yaml.ofText? s).bind ofYaml?

/-- Settings from the file of a name, given its text, or nothing when it cannot be read. -/
def load (path : String) (contents : Option String) : Except SettingsError Settings :=
  match contents with
  | some s => ofText s
  | none => .error (.unreadable path)

end Settings

end DriveOverlay
