import DriveOverlay.Json.Codec
import DriveOverlay.Json.Reader
import DriveOverlay.Scene.Snapshot

/-! # Scene records

The fields of every part of a snapshot under the names they have in a recording, in the order in
which a list gives them.  All parts may be partial, except points, which need both coordinates. -/

namespace DriveOverlay

/-- A record whose fields may be left out. -/
def Codec.partialRecord {α : Type} (resting : α) (fields : List (Field α)) : Codec α :=
  .record .partialRecord resting fields

/-! ### Perception -/

def Point.fields : List (Codec.Field Point) := [
  ⟨"x", _, .single, Point.x, fun v p => { p with x := v }⟩,
  ⟨"y", _, .single, Point.y, fun v p => { p with y := v }⟩]

def Point.codec : Codec Point :=
  .record .fullRecord ⟨0, 0⟩ Point.fields

def Polygon.codec : Codec Polygon :=
  .list Point.codec

def Lead.fields : List (Codec.Field Lead) := [
  ⟨"d_rel", _, .single, Lead.distance, fun v l => { l with distance := v }⟩,
  ⟨"v_rel", _, .single, Lead.relativeSpeed, fun v l => { l with relativeSpeed := v }⟩,
  ⟨"y_rel", _, .single, Lead.lateral, fun v l => { l with lateral := v }⟩,
  ⟨"valid", _, .flag, Lead.valid, fun v l => { l with valid := v }⟩]

def Lead.codec : Codec Lead :=
  .partialRecord {} Lead.fields

/-! ### Vehicle and controls -/

def UnitSystem.codec : Codec UnitSystem := .named UnitSystem.all UnitSystem.name
def OffsetPolicy.codec : Codec OffsetPolicy := .named OffsetPolicy.all OffsetPolicy.name
def Status.codec : Codec Status := .named Status.all Status.name

def Cruise.fields : List (Codec.Field Cruise) := [
  ⟨"v_cruise", _, .single, Cruise.maxSpeed, fun v c => { c with maxSpeed := v }⟩,
  ⟨"set_speed", _, .single, Cruise.heldSpeed, fun v c => { c with heldSpeed := v }⟩,
  ⟨"acc_active", _, .flag, Cruise.adaptive, fun v c => { c with adaptive := v }⟩]

def Cruise.codec : Codec Cruise :=
  .partialRecord {} Cruise.fields

def SpeedLimit.fields : List (Codec.Field SpeedLimit) := [
  ⟨"value", _, .single, SpeedLimit.value, fun v l => { l with value := v }⟩,
  ⟨"offset", _, .single, SpeedLimit.offset, fun v l => { l with offset := v }⟩,
  ⟨"policy", _, OffsetPolicy.codec, SpeedLimit.policy, fun v l => { l with policy := v }⟩]

def SpeedLimit.codec : Codec SpeedLimit :=
  .partialRecord {} SpeedLimit.fields

def Steering.fields : List (Codec.Field Steering) := [
  ⟨"angle_deg", _, .single, Steering.angle, fun v s => { s with angle := v }⟩,
  ⟨"override_pressed", _, .flag, Steering.overridden, fun v s => { s with overridden := v }⟩,
  ⟨"output_scale", _, .single, Steering.output, fun v s => { s with output := v }⟩,
  ⟨"steer_max", _, .single, Steering.limit, fun v s => { s with limit := v }⟩]

def Steering.codec : Codec Steering :=
  .partialRecord {} Steering.fields

def Controls.fields : List (Codec.Field Controls) := [
  ⟨"enabled", _, .flag, Controls.enabled, fun v c => { c with enabled := v }⟩,
  ⟨"engageable", _, .flag, Controls.engageable, fun v c => { c with engageable := v }⟩,
  ⟨"updated", _, .flag, Controls.updated, fun v c => { c with updated := v }⟩,
  ⟨"frames_since_start", _, .natural64, Controls.framesSinceStart,
    fun v c => { c with framesSinceStart := v }⟩,
  ⟨"seen_since_start", _, .flag, Controls.seenSinceStart,
    fun v c => { c with seenSinceStart := v }⟩,
  ⟨"seconds_since_update", _, .single, Controls.secondsSinceUpdate,
    fun v c => { c with secondsSinceUpdate := v }⟩]

def Controls.codec : Codec Controls :=
  .partialRecord {} Controls.fields

def Standstill.fields : List (Codec.Field Standstill) := [
  ⟨"active", _, .flag, Standstill.active, fun v s => { s with active := v }⟩,
  ⟨"elapsed_s", _, .single, Standstill.elapsed, fun v s => { s with elapsed := v }⟩]

def Standstill.codec : Codec Standstill :=
  .partialRecord {} Standstill.fields

def DriverMonitoring.fields : List (Codec.Field DriverMonitoring) := [
  ⟨"active", _, .flag, DriverMonitoring.active, fun v m => { m with active := v }⟩,
  ⟨"monitoring_mode", _, .flag, DriverMonitoring.monitoringMode,
    fun v m => { m with monitoringMode := v }⟩]

def DriverMonitoring.codec : Codec DriverMonitoring :=
  .partialRecord {} DriverMonitoring.fields

def Longitudinal.fields : List (Codec.Field Longitudinal) := [
  ⟨"enabled", _, .flag, Longitudinal.enabled, fun v l => { l with enabled := v }⟩,
  ⟨"cruise_gap", _, .byte, Longitudinal.gap, fun v l => { l with gap := v }⟩,
  ⟨"dynamic_gap_mode", _, .byte, Longitudinal.dynamicGap, fun v l => { l with dynamicGap := v }⟩,
  ⟨"dynamic_gap_value", _, .single, Longitudinal.dynamicValue,
    fun v l => { l with dynamicValue := v }⟩]

def Longitudinal.codec : Codec Longitudinal :=
  .partialRecord {} Longitudinal.fields

/-! ### Alerts and display -/

def AlertSize.codec : Codec AlertSize := .named AlertSize.all AlertSize.name
def LaneMode.codec : Codec LaneMode := .named LaneMode.all LaneMode.name
def PressureUnit.codec : Codec PressureUnit := .named PressureUnit.all PressureUnit.name

def Alert.fields : List (Codec.Field Alert) := [
  ⟨"text1", _, .text, Alert.title, fun v a => { a with title := v }⟩,
  ⟨"text2", _, .text, Alert.subtitle, fun v a => { a with subtitle := v }⟩,
  ⟨"alert_type", _, .text, Alert.kind, fun v a => { a with kind := v }⟩,
  ⟨"size", _, AlertSize.codec, Alert.size, fun v a => { a with size := v }⟩]

def Alert.codec : Codec Alert :=
  .partialRecord {} Alert.fields

def DisplaySettings.fields : List (Codec.Field DisplaySettings) := [
  ⟨"debug_level", _, .byte, DisplaySettings.debugLevel, fun v s => { s with debugLevel := v }⟩,
  ⟨"stock_ui", _, .flag, DisplaySettings.stock, fun v s => { s with stock := v }⟩,
  ⟨"lane_mode", _, LaneMode.codec, DisplaySettings.laneMode,
    fun v s => { s with laneMode := v }⟩,
  ⟨"tpms_unit", _, PressureUnit.codec, DisplaySettings.pressureUnit,
    fun v s => { s with pressureUnit := v }⟩]

def DisplaySettings.codec : Codec DisplaySettings :=
  .partialRecord {} DisplaySettings.fields

def Display.fields : List (Codec.Field Display) := [
  ⟨"settings", _, DisplaySettings.codec, Display.settings, fun v d => { d with settings := v }⟩,
  ⟨"recording", _, .flag, Display.recording, fun v d => { d with recording := v }⟩,
  ⟨"map_running", _, .flag, Display.mapRunning, fun v d => { d with mapRunning := v }⟩,
  ⟨"mapbox_running", _, .flag, Display.mapSearch, fun v d => { d with mapSearch := v }⟩,
  ⟨"laneless_active", _, .flag, Display.laneless, fun v d => { d with laneless := v }⟩,
  ⟨"preview_mode", _, .flag, Display.preview, fun v d => { d with preview := v }⟩]

def Display.codec : Codec Display :=
  .partialRecord {} Display.fields

/-! ### Diagnostics -/

def LateralControl.codec : Codec LateralControl := .named LateralControl.all LateralControl.name

def LiveParameters.fields : List (Codec.Field LiveParameters) := [
  ⟨"steer_ratio", _, .single, LiveParameters.steerRatio, fun v p => { p with steerRatio := v }⟩,
  ⟨"angle_offset_average", _, .single, LiveParameters.angleOffset,
    fun v p => { p with angleOffset := v }⟩,
  ⟨"stiffness_factor", _, .single, LiveParameters.stiffness,
    fun v p => { p with stiffness := v }⟩,
  ⟨"steer_actuator_delay", _, .single, LiveParameters.actuatorDelay,
    fun v p => { p with actuatorDelay := v }⟩,
  ⟨"steer_rate_cost", _, .single, LiveParameters.rateCost, fun v p => { p with rateCost := v }⟩,
  ⟨"l_prob", _, .single, LiveParameters.leftProbability,
    fun v p => { p with leftProbability := v }⟩,
  ⟨"r_prob", _, .single, LiveParameters.rightProbability,
    fun v p => { p with rightProbability := v }⟩,
  ⟨"lateral_control", _, LateralControl.codec, LiveParameters.lateralControl,
    fun v p => { p with lateralControl := v }⟩]

def LiveParameters.codec : Codec LiveParameters :=
  .partialRecord {} LiveParameters.fields

def MapData.fields : List (Codec.Field MapData) := [
  ⟨"speed_limit", _, .single, MapData.speedLimit, fun v m => { m with speedLimit := v }⟩,
  ⟨"speed_limit_ahead", _, .single, MapData.speedLimitAhead,
    fun v m => { m with speedLimitAhead := v }⟩,
  ⟨"speed_limit_ahead_distance", _, .single, MapData.speedLimitAheadDistance,
    fun v m => { m with speedLimitAheadDistance := v }⟩,
  ⟨"turn_speed_limit", _, .single, MapData.turnSpeedLimit,
    fun v m => { m with turnSpeedLimit := v }⟩,
  ⟨"turn_speed_limit_end_distance", _, .single, MapData.turnSpeedLimitEndDistance,
    fun v m => { m with turnSpeedLimitEndDistance := v }⟩,
  ⟨"turn_speed_limit_sign", _, .single, MapData.turnSpeedLimitSign,
    fun v m => { m with turnSpeedLimitSign := v }⟩]

def MapData.codec : Codec MapData :=
  .partialRecord {} MapData.fields

def Wheels.fields : List (Codec.Field (Wheels Float32)) := [
  ⟨"fl", _, .single, Wheels.frontLeft, fun v w => { w with frontLeft := v }⟩,
  ⟨"fr", _, .single, Wheels.frontRight, fun v w => { w with frontRight := v }⟩,
  ⟨"rl", _, .single, Wheels.rearLeft, fun v w => { w with rearLeft := v }⟩,
  ⟨"rr", _, .single, Wheels.rearRight, fun v w => { w with rearRight := v }⟩]

def Wheels.codec : Codec (Wheels Float32) :=
  .partialRecord ⟨0, 0, 0, 0⟩ Wheels.fields

def Device.fields : List (Codec.Field Device) := [
  ⟨"cpu_temp", _, .single, Device.cpuTemperature, fun v d => { d with cpuTemperature := v }⟩,
  ⟨"cpu_usage", _, .single, Device.cpuUsage, fun v d => { d with cpuUsage := v }⟩,
  ⟨"battery_temp", _, .single, Device.batteryTemperature,
    fun v d => { d with batteryTemperature := v }⟩,
  ⟨"ambient_temp", _, .single, Device.ambientTemperature,
    fun v d => { d with ambientTemperature := v }⟩,
  ⟨"battery_percent", _, .single, Device.batteryPercent,
    fun v d => { d with batteryPercent := v }⟩,
  ⟨"charging", _, .flag, Device.charging, fun v d => { d with charging := v }⟩,
  ⟨"battery_less", _, .flag, Device.batteryLess, fun v d => { d with batteryLess := v }⟩,
  ⟨"fan_speed", _, .single, Device.fanSpeed, fun v d => { d with fanSpeed := v }⟩,
  ⟨"gps_accuracy", _, .single, Device.gpsAccuracy, fun v d => { d with gpsAccuracy := v }⟩,
  ⟨"satellites", _, .natural32, Device.satellites, fun v d => { d with satellites := v }⟩,
  ⟨"altitude", _, .single, Device.altitude, fun v d => { d with altitude := v }⟩,
  ⟨"tire_pressures", _, Wheels.codec, Device.tirePressures,
    fun v d => { d with tirePressures := v }⟩]

def Device.codec : Codec Device :=
  .partialRecord {} Device.fields

/-! ### Snapshots -/

def Snapshot.fields : List (Codec.Field Snapshot) := [
  ⟨"frame", _, .natural64, Snapshot.frame, fun v s => { s with frame := v }⟩,
  ⟨"v_ego", _, .single, Snapshot.speed, fun v s => { s with speed := v }⟩,
  ⟨"cruise", _, Cruise.codec, Snapshot.cruise, fun v s => { s with cruise := v }⟩,
  ⟨"units", _, UnitSystem.codec, Snapshot.units, fun v s => { s with units := v }⟩,
  ⟨"leads", _, .list Lead.codec, Snapshot.leads, fun v s => { s with leads := v }⟩,
  ⟨"radar_distance", _, .optionalSingle, Snapshot.radarDistance,
    fun v s => { s with radarDistance := v }⟩,
  ⟨"lane_line_probs", _, .list .single, Snapshot.laneProbabilities,
    fun v s => { s with laneProbabilities := v }⟩,
  ⟨"lane_lines", _, .list Polygon.codec, Snapshot.laneLines,
    fun v s => { s with laneLines := v }⟩,
  ⟨"road_edges", _, .list Polygon.codec, Snapshot.roadEdges,
    fun v s => { s with roadEdges := v }⟩,
  ⟨"road_edge_stds", _, .list .single, Snapshot.roadEdgeDeviations,
    fun v s => { s with roadEdgeDeviations := v }⟩,
  ⟨"path", _, Polygon.codec, Snapshot.path, fun v s => { s with path := v }⟩,
  ⟨"steering", _, Steering.codec, Snapshot.steering, fun v s => { s with steering := v }⟩,
  ⟨"speed_limit", _, SpeedLimit.codec, Snapshot.speedLimit,
    fun v s => { s with speedLimit := v }⟩,
  ⟨"status", _, Status.codec, Snapshot.status, fun v s => { s with status := v }⟩,
  ⟨"controls", _, Controls.codec, Snapshot.controls, fun v s => { s with controls := v }⟩,
  ⟨"alert", _, Alert.codec, Snapshot.alert, fun v s => { s with alert := v }⟩,
  ⟨"standstill", _, Standstill.codec, Snapshot.standstill,
    fun v s => { s with standstill := v }⟩,
  ⟨"display", _, Display.codec, Snapshot.display, fun v s => { s with display := v }⟩,
  ⟨"driver_monitoring", _, DriverMonitoring.codec, Snapshot.driverMonitoring,
    fun v s => { s with driverMonitoring := v }⟩,
  ⟨"live_params", _, LiveParameters.codec, Snapshot.liveParameters,
    fun v s => { s with liveParameters := v }⟩,
  ⟨"map_data", _, MapData.codec, Snapshot.mapData, fun v s => { s with mapData := v }⟩,
  ⟨"longitudinal", _, Longitudinal.codec, Snapshot.longitudinal,
    fun v s => { s with longitudinal := v }⟩,
  ⟨"device", _, Device.codec, Snapshot.device, fun v s => { s with device := v }⟩,
  ⟨"debug_text", _, .pair .text, Snapshot.debugText, fun v s => { s with debugText := v }⟩]

def Snapshot.codec : Codec Snapshot :=
  .partialRecord {} Snapshot.fields

/-- Reads a snapshot from JSON text. -/
def Snapshot.ofText? (s : String) : Option Snapshot :=
  (Json.ofText? s).bind Snapshot.codec.decode?

end DriveOverlay
