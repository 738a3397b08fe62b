import DriveOverlay.Scene.Snapshot
import DriveOverlay.Single.Decimal

/-! # Tires, standstill and tuning

The tire panel classifies each pressure in pounds per square inch and tells when the wheels
differ by too much; the standstill timer counts minutes and seconds; the tuning readout lists the
live parameters and the map data. -/

namespace DriveOverlay

/-! ### Tires -/

/-- How a tire pressure is rated. -/
inductive TireLevel where
  | low
  | normal
  | high
  | unavailable
deriving Repr, DecidableEq, Inhabited

namespace TireLevel

/-- The level of a pressure; what is no number or implausibly high is unavailable. -/
def ofPressure (psi : Float32) : TireLevel :=
  if !psi.isFinite then .unavailable
  else if psi < 32 then .low
  else if 50 < psi then .unavailable
  else if 45 < psi then .high
  else .normal

end TireLevel

/-- A pressure in pounds per square inch. -/
def PressureUnit.toPsi (unit : PressureUnit) (pressure : Float32) : Float32 :=
  match unit with
  | .psi => pressure
  | .bar => pressure * 14.5038

/-- A difference between wheels above this is out of balance. -/
def imbalance : Float32 := 3

/-- The largest pressure exceeds the smallest by too much; only finite ones count. -/
def areOutOfBalance (pressures : List Float32) : Bool :=
  let finite := pressures.filter Float32.isFinite
  let least := finite.foldl Single.lower Single.infinity
  let most := finite.foldl Single.upper (-Single.infinity)
  least < most && imbalance < most - least

/-- One tire: its level and the text of its pressure. -/
structure TireReading where
  level : TireLevel
  text : String
deriving Repr, DecidableEq, Inhabited

/-- The reading of a pressure in a unit, with one place in bar and none in psi. -/
def TireReading.ofPressure (unit : PressureUnit) (pressure : Float32) : TireReading :=
  let level := TireLevel.ofPressure (unit.toPsi pressure)
  let text := match level, unit with
    | .unavailable, _ => "N/A"
    | _, .psi => Single.fixed 0 pressure
    | _, .bar => Single.fixed 1 pressure
  ⟨level, text⟩

/-- The tire panel. -/
structure TirePanel where
  readings : Wheels TireReading
  outOfBalance : Bool

/-- The panel for the pressures of all wheels. -/
def TirePanel.ofPressures (pressures : Wheels Float32) (unit : PressureUnit) : TirePanel :=
  ⟨pressures.map (.ofPressure unit), areOutOfBalance (pressures.map unit.toPsi).toList⟩

/-! ### Standstill -/

/-- Time at standstill. -/
structure StandstillTimer where
  minutes : Nat
  seconds : Nat
deriving Repr, DecidableEq, Inhabited

namespace StandstillTimer

/-- The timer after so many seconds; nothing has passed when that is no positive number. -/
def ofElapsed (elapsed : Float32) : StandstillTimer :=
  if !elapsed.isFinite || elapsed ≤ 0 then ⟨0, 0⟩ else
  let total := elapsed.toUInt32.toNat
  ⟨total / 60, total % 60⟩

/-- Minutes and seconds, two digits each or more. -/
def label (t : StandstillTimer) : String :=
  Single.padded 2 t.minutes ++ ":" ++ Single.padded 2 t.seconds

end StandstillTimer

/-! ### Tuning -/

/-- Two columns of text and the name of the lateral controller. -/
structure TuningReadout where
  parameters : List String
  map : List String
  lateralControl : String
deriving Repr, DecidableEq, Inhabited

/-- The tuning readout of a frame. -/
def Snapshot.tuningReadout (s : Snapshot) : TuningReadout :=
  let p := s.liveParameters
  let m := s.mapData
  let two := Single.fixed 2
  let whole := Single.fixed 0
  { parameters := [
      "SR:" ++ two p.steerRatio,
      "AA:" ++ two p.angleOffset,
      "SF:" ++ two p.stiffness,
      "AD:" ++ two p.actuatorDelay,
      "SC:" ++ two p.rateCost,
      "OS:" ++ two s.steering.output,
      two p.leftProbability ++ "|" ++ two p.rightProbability]
    map := [
      "SL:" ++ whole m.speedLimit,
      "SLA:" ++ whole m.speedLimitAhead,
      "SLAD:" ++ whole m.speedLimitAheadDistance,
      "TSL:" ++ whole m.turnSpeedLimit,
      "TSLED:" ++ whole m.turnSpeedLimitEndDistance,
      "TSLS:" ++ whole m.turnSpeedLimitSign]
    lateralControl := p.lateralControl.label }

end DriveOverlay
