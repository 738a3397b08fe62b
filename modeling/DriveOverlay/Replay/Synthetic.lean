import DriveOverlay.Scene.Snapshot
import DriveOverlay.Single.Trigonometry
import DriveOverlay.Surface.VideoFrame

/-! # A synthetic drive

Where there is no recording: the system engages, follows a slowing lead to a stop, and stands.
Everything follows from the share of the drive that has passed.  The camera shows a flat sky over
a gray road. -/

namespace DriveOverlay.Synthetic

/-! ### The road -/

/-- A stripe of the road in the camera image, from the bottom edge to the horizon, where it is a
fifth as wide. -/
def stripe (bottomX topX halfWidth : Float32) : Polygon :=
  [⟨bottomX - halfWidth, 1208⟩, ⟨bottomX + halfWidth, 1208⟩,
    ⟨topX + halfWidth * 0.2, 640⟩, ⟨topX - halfWidth * 0.2, 640⟩]

/-- The lane lines. -/
def laneLines : List Polygon :=
  [stripe 300 880 12, stripe 620 930 12, stripe 1310 1000 12, stripe 1630 1050 12]

/-- The road edges. -/
def roadEdges : List Polygon :=
  [stripe 100 860 20, stripe 1830 1070 20]

/-! ### The drive -/

/-- The share of the drive after which the system engages. -/
def engageAt : Float32 := 0.1

/-- The share of the drive that has passed at a frame. -/
def progress (frames index : Nat) : Float32 :=
  Single.ofNat index / Single.ofNat (max frames 1)

/-- The scene at a share of a drive of so many frames. -/
def scene (frames : Nat) (t : Float32) : Snapshot :=
  let speed := Single.upper (25 * (1 - t * 1.25)) 0
  let engaged : Bool := engageAt ≤ t
  { speed
    status := if t < engageAt then .disengaged else .engaged
    laneProbabilities := [0.3, 0.9, 0.9, 0.3]
    laneLines
    roadEdges
    roadEdgeDeviations := [0.4, 0.6]
    path := stripe 964 964 180
    leads := [{
      distance := 35 - 25 * t
      relativeSpeed := -3 * (1 - t)
      lateral := 0.2
      valid := true }]
    radarDistance := some (35 - 25 * t)
    controls := { enabled := engaged, engageable := true }
    cruise := { maxSpeed := 100, heldSpeed := 100, adaptive := engaged }
    steering := { angle := 8 * Single.sin (t * 12), output := 0.3, limit := 1 }
    standstill := {
      active := speed == 0
      elapsed := Single.upper (t - 0.8) 0 * Single.ofNat frames / 20 }
    driverMonitoring := { active := true }
    device := { cpuTemperature := 62, tirePressures := ⟨35, 35.5, 34, 34.5⟩ } }

/-- A drive of so many frames. -/
def drive (frames : Nat) : List Snapshot :=
  (List.range frames).map fun i => scene frames (progress frames i)

/-! ### The camera -/

/-- So many copies of a color behind other bytes. -/
def pushPixels (red green blue : UInt8) (count : Nat) (bytes : ByteArray) : ByteArray :=
  count.fold (fun _ _ b => ((b.push red).push green).push blue) bytes

/-- Sky over road, of the given size. -/
def videoFrame (width height : UInt32) : VideoFrame :=
  let sky := width.toNat * (height.toNat / 2)
  let road := width.toNat * (height.toNat - height.toNat / 2)
  { width
    height
    channels := 3
    bytes := pushPixels 70 70 72 road (pushPixels 110 140 170 sky .empty) }

end DriveOverlay.Synthetic
