import DriveOverlay.Color
import DriveOverlay.Scene.Snapshot

/-! # Colors of the road

Lane lines go from red over yellow to green with the confidence of the model, road edges fade with
their deviation, and the path goes from green to red with the torque on the steering wheel. -/

namespace DriveOverlay

/-! ### Lane lines and edges -/

/-- The confidence at which a lane line is yellow. -/
def lanePivot : Float32 := 0.4

/-- The slope of both ramps beside the pivot. -/
def laneGain : Float32 := 2.5

/-- The color of a lane line; on the stock display it is white, as opaque as it is likely. -/
def laneColor (probability : Float32) (stock : Bool) : Color :=
  let p := Single.share probability
  if stock then .ofShares 1 1 1 p else
  let (red, green) :=
    if lanePivot < p then (Single.lower (1 - (p - lanePivot) * laneGain) 1, 1)
    else (1, Single.lower (1 - (lanePivot - p) * laneGain) 1)
  .ofShares (Single.upper red 0) (Single.upper green 0) 0 1

/-- The color of a road edge. -/
def edgeColor (deviation : Float32) : Color :=
  .ofShares 1 0 0 (if deviation.isFinite then Single.clamp (1 - deviation) 0 1 else 0)

/-- One color for each lane line; a missing probability is zero. -/
def Snapshot.laneColors (s : Snapshot) : List Color :=
  s.laneLines.mapIdx fun i _ => laneColor (s.laneProbabilities[i]?.getD 0) s.isStock

/-- One color for each road edge; a missing deviation is one. -/
def Snapshot.edgeColors (s : Snapshot) : List Color :=
  s.roadEdges.mapIdx fun i _ => edgeColor (s.roadEdgeDeviations[i]?.getD 1)

/-! ### Path -/

/-- The torque on a scale on which 255 is full; it may be more. -/
def Steering.torque (s : Steering) : Int :=
  let limit := s.limit - 1.5 * (s.limit - 0.9)
  let level := (255 * s.output * limit).abs
  if level.isFinite then Single.toInt32 (Single.lower level 2147483648) else 0

/-- The fill of the path, from the bottom of the surface to a quarter of its height. -/
structure PathStyle where
  bottom : Color
  top : Color
deriving Repr, DecidableEq, Inhabited

/-- A channel of the far end of the path: seven tenths of the near end, cut to a whole number. -/
def farChannel (level : Int) : UInt8 :=
  (0.7 * Single.ofInt level).toUInt8

/-- The path of a frame: white when the system does not drive or the display is stock, black while
the driver steers, and colored by the torque otherwise. -/
def Snapshot.pathStyle (s : Snapshot) : PathStyle :=
  if s.controls.enabled && !s.isStock then
    if s.steering.overridden then ⟨Palette.black 80, Palette.black 20⟩ else
    let red := min s.steering.torque 255
    let green := max 0 (min 255 (255 - s.steering.torque))
    { bottom := ⟨.ofNat red.toNat, .ofNat green.toNat, 0, 150⟩
      top := ⟨farChannel red, farChannel green, 0, 20⟩ }
  else ⟨Palette.white 150, Palette.white 20⟩

end DriveOverlay
