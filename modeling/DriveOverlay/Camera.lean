import DriveOverlay.Scene.Lead
import DriveOverlay.Geometry.Point
import DriveOverlay.Settings.Basic

/-! # Camera and surface

The transform between the image of the road camera and the surface: the principal point goes to
the middle of the surface, a little further down, and the image is zoomed with the focal length.
Points of the road are seen through a pinhole; the device frame has `x` forward, `y` to the right
and `z` down, in meters.

Lead markers stand on the road under the lead, at least half a meter ahead, and are moved onto
the surface when they would be off it. -/

namespace DriveOverlay

/-- A camera over a surface. -/
structure CarTransform where
  focalLength : Float32
  principalPoint : Point
  zoom : Float32
  width : Float32
  height : Float32

namespace CarTransform

/-- The focal length at which nothing is zoomed. -/
def unitFocalLength : Float32 := 2912.8

/-- How far below the middle of the surface the principal point is. -/
def drop : Float32 := 150

/-- The height of the camera above the road. -/
def cameraHeight : Float32 := 1.22

/-- Points further off the surface than this are not seen. -/
def visibleMargin : Float32 := 500

/-- Leads count as no nearer than this. -/
def leastLeadDistance : Float32 := 0.5

/-- The transform of a camera over a surface of the given size; a wide camera is zoomed by half. -/
def ofSettings (camera : CameraSettings) (width height : UInt32) : CarTransform :=
  let zoom := unitFocalLength / camera.focalLength
  { focalLength := camera.focalLength
    principalPoint := ⟨camera.principalPoint.1, camera.principalPoint.2⟩
    zoom := if camera.wide then zoom * 0.5 else zoom
    width := width.toFloat32
    height := height.toFloat32 }

/-- From a pixel of the camera image to the surface. -/
def map (t : CarTransform) (p : Point) : Point :=
  { x := (p.x - t.principalPoint.x) * t.zoom + t.width / 2
    y := (p.y - t.principalPoint.y) * t.zoom + t.height / 2 + drop }

/-- A polygon of the camera image on the surface, if all its vertices are finite. -/
def mapPolygon? (t : CarTransform) (polygon : Polygon) : Option Polygon :=
  if polygon.all Point.isFinite then some (polygon.map t.map) else none

/-- Where a point of the device frame shows, whether or not that is on the surface. -/
def projectAnywhere? (t : CarTransform) (x y z : Float32) : Option Point :=
  if !(x.isFinite && y.isFinite && z.isFinite) || x ≤ 0 then none else
  let f := t.focalLength
  some (t.map ⟨f * y / x + t.principalPoint.x, f * z / x + t.principalPoint.y⟩)

/-- Where a point of the device frame shows on the surface or near it. -/
def project? (t : CarTransform) (x y z : Float32) : Option Point :=
  (t.projectAnywhere? x y z).filter fun p =>
    -visibleMargin ≤ p.x && p.x ≤ t.width + visibleMargin &&
      -visibleMargin ≤ p.y && p.y ≤ t.height + visibleMargin

/-- Where the marker of a lead stands. -/
def leadAnchor? (t : CarTransform) (lead : Lead) : Option Point :=
  if !lead.distance.isFinite then none else
  let d := Single.upper lead.distance leastLeadDistance
  (t.projectAnywhere? d (-lead.lateral) cameraHeight).map fun p =>
    ⟨Single.clamp p.x 0 t.width, Single.clamp p.y 0 t.height⟩

/-- The corners, top left and bottom right, of a camera image of the given size. -/
def frameCorners (t : CarTransform) (width height : UInt32) : Point × Point :=
  (t.map ⟨0, 0⟩, t.map ⟨width.toFloat32, height.toFloat32⟩)

end CarTransform

end DriveOverlay
