import DriveOverlay.Single.Rounding

/-! # Points and polygons

A point of the surface, of the camera image, or of the plane of the road, in singles.  A polygon
is its vertices in order; the last is joined to the first. -/

namespace DriveOverlay

/-- A point in the plane. -/
structure Point where
  x : Float32
  y : Float32
deriving Inhabited

/-- Both coordinates are numbers, and finite. -/
def Point.isFinite (p : Point) : Bool :=
  p.x.isFinite && p.y.isFinite

/-- The vertices of a closed polygon. -/
abbrev Polygon := List Point

namespace Polygon

/-- Each vertex with the one after it; the last with the first. -/
def edges : Polygon → List (Point × Point)
  | [] => []
  | first :: rest => (first :: rest).zip (rest ++ [first])

/-- The area that the vertices go around, without a sign. -/
def area (polygon : Polygon) : Float32 :=
  let twice := polygon.edges.foldl (fun sum (a, b) => sum + (a.x * b.y - b.x * a.y)) 0
  (twice / 2).abs

/-- Polygons of no more area than this count as degenerate. -/
def leastArea : Float32 := 1e-3

/-- Three finite vertices or more, around an area. -/
def isDrawable (polygon : Polygon) : Bool :=
  3 ≤ polygon.length && polygon.all Point.isFinite && leastArea < polygon.area

end Polygon

end DriveOverlay
