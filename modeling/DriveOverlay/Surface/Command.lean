import DriveOverlay.Geometry.Rect
import DriveOverlay.Surface.Paint
import DriveOverlay.Surface.VideoFrame
import DriveOverlay.Text.Style

/-! # Drawing commands

Everything the overlay asks of a surface is one of nine commands.  A surface has a size and carries
out commands, or refuses them.  A `Painter` is a program that gives commands; the first refusal
ends it, and what it drew before stays.

`Command.check` tells the commands that make no sense on any surface: polygons of fewer than three
or of unbounded vertices, visible text without a place, and camera images with a fault. -/

namespace DriveOverlay

/-- A request to draw.  Coordinates are pixels from the top left corner. -/
inductive Command where
  /-- Every pixel becomes `color`. -/
  | clear (color : Color)
  /-- Fills a rectangle. -/
  | fillRect (rect : Rect) (paint : Paint)
  /-- Fills a polygon by the even-odd rule. -/
  | fillPolygon (polygon : Polygon) (paint : Paint)
  /-- Fills a rectangle with round corners. -/
  | fillRoundedRect (rect : Rect) (radius : Float32) (color : Color)
  /-- Draws the outline of a rectangle with round corners. -/
  | strokeRoundedRect (rect : Rect) (radius width : Float32) (color : Color)
  /-- Fills the ellipse in a rectangle. -/
  | fillEllipse (rect : Rect) (color : Color)
  /-- Draws the outline of the ellipse in a rectangle. -/
  | strokeEllipse (rect : Rect) (width : Float32) (color : Color)
  /-- Writes text; the anchor is on the baseline, at the left end or in the middle. -/
  | drawText (text : String) (anchor : Point) (style : TextStyle)
  /-- Copies a camera image, scaled to `dest`, where it lies inside `clip`. -/
  | blit (frame : VideoFrame) (dest clip : Rect)

/-- Why a command is not carried out. -/
inductive DrawError where
  | tooFewVertices (count : Nat)
  | unboundedVertices
  | unboundedAnchor
  | badFrame (error : FrameError)
  /-- The surface does not take the command, for a reason of its own. -/
  | refused (reason : String)
deriving Repr, DecidableEq

/-- The wording of an error. -/
def DrawError.message : DrawError → String
  | .tooFewVertices n => "polygon needs at least 3 vertices, got " ++ toString n
  | .unboundedVertices => "polygon has non-finite vertices"
  | .unboundedAnchor => "text anchor is not finite"
  | .badFrame e => e.message
  | .refused reason => reason

/-- Whether a command makes sense, whatever the surface. -/
def Command.check : Command → Except DrawError Unit
  | .fillPolygon polygon _ =>
    if polygon.length < 3 then .error (.tooFewVertices polygon.length)
    else if !polygon.all Point.isFinite then .error .unboundedVertices
    else .ok ()
  | .drawText text anchor style =>
    if text ≠ "" && style.color.alpha ≠ 0 && !anchor.isFinite then .error .unboundedAnchor
    else .ok ()
  | .blit frame _ _ => frame.check.mapError .badFrame
  | _ => .ok ()

/-! ### Surfaces and painters -/

/-- What commands can be given to. -/
class Surface (σ : Type) where
  /-- The width in pixels. -/
  width : σ → Nat
  /-- The height in pixels. -/
  height : σ → Nat
  /-- Carries out a command, or says why not. -/
  draw : Command → σ → Except DrawError Unit × σ

/-- A program that gives commands to a surface and stops at the first refusal. -/
abbrev Painter (σ : Type) := ExceptT DrawError (StateM σ)

namespace Painter

variable {σ : Type} [Surface σ]

/-- Gives one command. -/
def draw (command : Command) : Painter σ Unit :=
  fun s => Surface.draw command s

/-- The width of the surface. -/
def width : Painter σ Nat :=
  fun s => (.ok (Surface.width s), s)

/-- The height of the surface. -/
def height : Painter σ Nat :=
  fun s => (.ok (Surface.height s), s)

/-- The rectangle of the surface. -/
def bounds : Painter σ Rect := do
  return ⟨0, 0, ← width, ← height⟩

/-- Carries on after a refusal. -/
def ignoringRefusal (p : Painter σ Unit) : Painter σ Unit :=
  fun s => (.ok (), (p s).2)

end Painter

end DriveOverlay
