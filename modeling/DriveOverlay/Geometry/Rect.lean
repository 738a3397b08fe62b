import DriveOverlay.Geometry.Point
import DriveOverlay.Signed

/-! # Pixel rectangles

Rectangles with integer edges, the right and the bottom edge outside.  A rectangle of no or
negative width or height is empty.  Halves are cut toward zero, so that the center of a
rectangle of odd or negative size is the same on every surface. -/

namespace DriveOverlay

/-- A rectangle of pixels: left edge, top edge, width and height. -/
structure Rect where
  x : Int
  y : Int
  w : Int
  h : Int
deriving Repr, DecidableEq, Inhabited

namespace Rect

/-- The square of a given side around a center. -/
def centered (cx cy side : Int) : Rect :=
  ⟨cx - side.tdiv 2, cy - side.tdiv 2, side, side⟩

def right (r : Rect) : Int := r.x + r.w
def bottom (r : Rect) : Int := r.y + r.h
def centerX (r : Rect) : Int := r.x + r.w.tdiv 2
def centerY (r : Rect) : Int := r.y + r.h.tdiv 2

/-- No pixel lies inside. -/
def isEmpty (r : Rect) : Bool :=
  r.w ≤ 0 || r.h ≤ 0

/-- The number of pixels inside. -/
def area (r : Rect) : Int :=
  if r.isEmpty then 0 else r.w * r.h

/-- The rectangle of the pixels that lie in both; where there are none, one of its sides is zero. -/
def overlap (r s : Rect) : Rect :=
  let x := max r.x s.x
  let y := max r.y s.y
  ⟨x, y, max (min r.right s.right - x) 0, max (min r.bottom s.bottom - y) 0⟩

/-- The overlap computed in 32 bits.  Of rectangles that are more than half of their range apart it
is not empty. -/
def intersect (r s : Rect) : Rect :=
  let x := max r.x s.x
  let y := max r.y s.y
  let right := min (signed32 r.right) (signed32 s.right)
  let bottom := min (signed32 r.bottom) (signed32 s.bottom)
  ⟨x, y, max (signed32 (right - x)) 0, max (signed32 (bottom - y)) 0⟩

/-- Every edge moved inward by `d`, or outward for a negative `d`. -/
def inset (r : Rect) (d : Int) : Rect :=
  ⟨r.x + d, r.y + d, r.w - 2 * d, r.h - 2 * d⟩

/-- The point lies inside, the edges being rounded to singles. -/
def contains (r : Rect) (p : Point) : Bool :=
  Single.ofInt r.x ≤ p.x && p.x < Single.ofInt r.right &&
    Single.ofInt r.y ≤ p.y && p.y < Single.ofInt r.bottom

end Rect

end DriveOverlay
