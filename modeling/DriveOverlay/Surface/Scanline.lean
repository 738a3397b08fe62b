import DriveOverlay.Geometry.Point

/-! # Polygons row by row

A row of pixels is looked at along the line through the middles of its pixels.  An edge of a
polygon crosses it when exactly one of its ends is on the line or above it, so that a vertex on
the line counts once.  The crossings in order, taken two at a time, bound the spans of the row
that lie inside, by the even-odd rule; a span has the pixels whose middles are not left of its
first crossing and left of its second. -/

namespace DriveOverlay.Scanline

/-! ### Rows -/

/-- The middle of a pixel in column or row `i`. -/
def middle (i : Nat) : Float32 :=
  Single.ofNat i + 0.5

/-- The first row that a polygon reaches, and the one behind the last. -/
def rows (polygon : Polygon) : Int × Int :=
  let least := polygon.foldl (fun least p => Single.lower least p.y) Single.infinity
  let most := polygon.foldl (fun most p => Single.upper most p.y) (-Single.infinity)
  (Single.toInt32 (Single.floor least), Single.toInt32 (Single.ceil most))

/-! ### Crossings -/

/-- Where an edge crosses a line, if it does. -/
def crossing? (y : Float32) (edge : Point × Point) : Option Float32 :=
  let (a, b) := edge
  if (a.y ≤ y && y < b.y) || (b.y ≤ y && y < a.y) then
    some (a.x + (y - a.y) * (b.x - a.x) / (b.y - a.y))
  else none

/-- The rank of a single: that of its value, with `-0` before `0`, and NaN before everything. -/
def rank (x : Float32) : Int :=
  let bits : Int := x.toBits.toNat
  if x.isNaN then -4294967296 else if bits < 2147483648 then bits else 2147483647 - bits

/-- The crossings of a line, from left to right. -/
def crossings (edges : List (Point × Point)) (y : Float32) : List Float32 :=
  (edges.filterMap (crossing? y)).mergeSort fun a b => rank a ≤ rank b

/-! ### Spans -/

/-- The first column whose middle is not left of a crossing. -/
def column (crossing : Float32) : Int :=
  Single.toInt32 (Single.ceil (crossing - 0.5))

/-- The columns between the first and the second crossing, the third and the fourth, and so on. -/
def spans : List Float32 → List (Int × Int)
  | a :: b :: rest => (column a, column b) :: spans rest
  | _ => []

end DriveOverlay.Scanline
