import DriveOverlay.Surface.Canvas
import DriveOverlay.Surface.Paint
import DriveOverlay.Surface.Scanline

/-! # Filled shapes

Shapes are painted pixel by pixel, without smoothing: a pixel is painted when its middle is inside.
A rectangle has whole pixels.  Round corners and ellipses are tested in singles; an outline is what
lies inside the shape grown by half the pen and not inside the shape shrunk by it.

Between the edges of a rectangle with round corners a point is compared with the middles of the
corners.  The middles are rounded, and when rounding takes them past each other, or one of them is no
number, the comparison is not possible. -/

namespace DriveOverlay

/-! ### Inside tests -/

/-- A rectangle with edges between pixels: left, top, right and bottom. -/
structure Edges where
  left : Float32
  top : Float32
  right : Float32
  bottom : Float32

namespace Edges

/-- The edges of a pixel rectangle. -/
def ofRect (r : Rect) : Edges :=
  ⟨Single.ofInt r.x, Single.ofInt r.y, Single.ofInt r.right, Single.ofInt r.bottom⟩

/-- Every edge moved outward by `d`. -/
def grow (e : Edges) (d : Float32) : Edges :=
  ⟨e.left - d, e.top - d, e.right + d, e.bottom + d⟩

/-- Every edge moved inward by `d`. -/
def shrink (e : Edges) (d : Float32) : Edges :=
  ⟨e.left + d, e.top + d, e.right - d, e.bottom - d⟩

/-- The radius of the corners: at most half of each side, and not negative. -/
def cornerRadius (e : Edges) (radius : Float32) : Float32 :=
  Single.upper
    (Single.lower (Single.lower radius ((e.right - e.left) / 2)) ((e.bottom - e.top) / 2)) 0

/-- The point is between the edges, so that the corners decide. -/
def encloses (e : Edges) (x y : Float32) : Bool :=
  !(x < e.left || e.right ≤ x || y < e.top || e.bottom ≤ y)

/-- The middles of the corners are in order, from left to right and from top to bottom. -/
def cornersInOrder (e : Edges) (radius : Float32) : Bool :=
  let r := e.cornerRadius radius
  e.left + r ≤ e.right - r && e.top + r ≤ e.bottom - r

/-- Whether the point is inside the rectangle with corners of the given radius.  Between corners that
have passed each other there is no answer. -/
def test? (e : Edges) (radius x y : Float32) : Option Bool :=
  if !e.encloses x y then some false
  else if !e.cornersInOrder radius then none
  else
    let r := e.cornerRadius radius
    let dx := x - Single.clamp x (e.left + r) (e.right - r)
    let dy := y - Single.clamp y (e.top + r) (e.bottom - r)
    some (dx * dx + dy * dy ≤ r * r)

/-- The point is inside, by the test. -/
def holds (e : Edges) (radius x y : Float32) : Bool :=
  (e.test? radius x y).getD false

/-- The point cannot be tested. -/
def breaksDown (e : Edges) (radius x y : Float32) : Bool :=
  (e.test? radius x y).isNone

end Edges

/-- An ellipse: its center and half its width and height. -/
structure Ellipse where
  cx : Float32
  cy : Float32
  rx : Float32
  ry : Float32

namespace Ellipse

/-- The ellipse in a rectangle. -/
def ofRect (r : Rect) : Ellipse :=
  let rx := Single.ofInt r.w / 2
  let ry := Single.ofInt r.h / 2
  ⟨Single.ofInt r.x + rx, Single.ofInt r.y + ry, rx, ry⟩

/-- The ellipse grown by `d` on every side. -/
def grow (e : Ellipse) (d : Float32) : Ellipse :=
  { e with rx := e.rx + d, ry := e.ry + d }

/-- The ellipse shrunk by `d` on every side. -/
def shrink (e : Ellipse) (d : Float32) : Ellipse :=
  { e with rx := e.rx - d, ry := e.ry - d }

/-- The point is inside the ellipse. -/
def holds (e : Ellipse) (x y : Float32) : Bool :=
  if e.rx ≤ 0 || e.ry ≤ 0 then false else
  let dx := (x - e.cx) / e.rx
  let dy := (y - e.cy) / e.ry
  dx * dx + dy * dy ≤ 1

end Ellipse

namespace Canvas

/-! ### Rectangles and polygons -/

/-- Fills a rectangle. -/
def fillRect (c : Canvas) (rect : Rect) (paint : Paint) : Canvas :=
  if rect.isEmpty || paint.isInvisible then c else
  c.forRows rect.y rect.bottom fun y c =>
    c.blendSpan y rect.x rect.right (paint.colorAt (Scanline.middle y))

/-- Fills the spans of a row. -/
def fillSpans (c : Canvas) (y : Nat) (color : Color) (spans : List (Int × Int)) : Canvas :=
  spans.foldl (fun c (x0, x1) => c.blendSpan y x0 x1 color) c

/-- Fills a polygon by the even-odd rule. -/
def fillPolygon (c : Canvas) (polygon : Polygon) (paint : Paint) : Canvas :=
  if paint.isInvisible then c else
  let edges := polygon.edges
  let (first, last) := Scanline.rows polygon
  c.forRows first last fun y c =>
    let middle := Scanline.middle y
    c.fillSpans y (paint.colorAt middle) (Scanline.spans (Scanline.crossings edges middle))

/-! ### Shapes with an inside test -/

/-- Puts a color over the pixels of a rectangle whose middles pass a test. -/
@[inline] def fillWhere (c : Canvas) (rect : Rect) (color : Color)
    (inside : Float32 → Float32 → Bool) : Canvas :=
  if color.alpha = 0 then c else
  c.forRows rect.y rect.bottom fun y c =>
    let middle := Scanline.middle y
    c.modifySpan y rect.x rect.right fun x below =>
      if inside (Scanline.middle x) middle then color.over below else below

/-- How many pixels half a pen reaches beyond an edge. -/
def penReach (pen : Float32) : Int :=
  Single.toInt32 (Single.ceil (pen / 2))

/-- Fills a rectangle with round corners. -/
def fillRoundedRect (c : Canvas) (rect : Rect) (radius : Float32) (color : Color) : Canvas :=
  if rect.isEmpty then c else
  let edges := Edges.ofRect rect
  c.fillWhere rect color (edges.holds radius)

/-- Draws the outline of a rectangle with round corners. -/
def strokeRoundedRect (c : Canvas) (rect : Rect) (radius pen : Float32) (color : Color) : Canvas :=
  if rect.isEmpty || pen ≤ 0 then c else
  let half := pen / 2
  let outer := (Edges.ofRect rect).grow half
  let inner := (Edges.ofRect rect).shrink half
  let innerRadius := Single.upper (radius - half) 0
  c.fillWhere (rect.inset (-penReach pen)) color fun x y =>
    outer.holds (radius + half) x y && !inner.holds innerRadius x y

/-- Fills the ellipse in a rectangle. -/
def fillEllipse (c : Canvas) (rect : Rect) (color : Color) : Canvas :=
  if rect.isEmpty then c else
  let ellipse := Ellipse.ofRect rect
  c.fillWhere rect color ellipse.holds

/-- Draws the outline of the ellipse in a rectangle. -/
def strokeEllipse (c : Canvas) (rect : Rect) (pen : Float32) (color : Color) : Canvas :=
  if rect.isEmpty || pen ≤ 0 then c else
  let half := pen / 2
  let outer := (Ellipse.ofRect rect).grow half
  let inner := (Ellipse.ofRect rect).shrink half
  c.fillWhere (rect.inset (-penReach pen)) color fun x y => outer.holds x y && !inner.holds x y

end Canvas

end DriveOverlay
