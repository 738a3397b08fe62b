import DriveOverlay.Surface.Command
import DriveOverlay.Surface.Shapes
import DriveOverlay.Text.Cells

/-! # Commands on a canvas

A canvas carries out every command that makes sense; one that does not leaves it as it was.  Text
lights a square block of pixels for each lit cell.  A camera image is scaled by taking, for each
pixel of its destination, the pixel of the image in the same proportion, cut to whole numbers. -/

namespace DriveOverlay.Canvas

/-! ### Text -/

/-- Puts a color over a square block of pixels. -/
def blendBlock (c : Canvas) (x y side : Int) (color : Color) : Canvas :=
  c.forRows y (y + side) fun row c => c.blendSpan row x (x + side) color

/-- Writes text.  Where a block begins is computed in 32 bits. -/
def drawText (c : Canvas) (text : String) (anchor : Point) (style : TextStyle) : Canvas :=
  if text = "" || style.color.alpha = 0 then c else
  let ox := Single.toInt32 (Single.round anchor.x)
  let oy := Single.toInt32 (Single.round anchor.y)
  let k := Text.glyphScale style.size
  (Text.cells text style.align).foldl (fun c cell =>
    let (x, y) := if style.vertical then Text.turn cell else cell
    c.blendBlock (signed32 (ox + x * k)) (signed32 (oy + y * k)) k style.color) c

/-! ### Camera images -/

/-- The column or row of an image with `count` of them that shows `offset` pixels into a
destination of `size`. -/
def sampleIndex (offset : Int) (count : Nat) (size : Int) : Nat :=
  min (offset.toNat * count / size.toNat) (count - 1)

/-- Copies a camera image, scaled to `dest`, where it lies inside `clip`.  A pixel of which the image
has no bytes stays as it is. -/
def blit (c : Canvas) (frame : VideoFrame) (dest clip : Rect) : Canvas :=
  if dest.isEmpty then c else
  let area := (dest.overlap clip).overlap c.bounds
  c.forRows area.y area.bottom fun y c =>
    let row := sampleIndex (y - dest.y) frame.height.toNat dest.h
    c.modifySpan y area.x area.right fun x below =>
      (frame.colorAt? (sampleIndex (x - dest.x) frame.width.toNat dest.w) row).getD below

/-! ### All commands -/

/-- What a command does to a canvas. -/
def paint (c : Canvas) : Command → Canvas
  | .clear color => c.clear color
  | .fillRect rect paint => c.fillRect rect paint
  | .fillPolygon polygon paint => c.fillPolygon polygon paint
  | .fillRoundedRect rect radius color => c.fillRoundedRect rect radius color
  | .strokeRoundedRect rect radius pen color => c.strokeRoundedRect rect radius pen color
  | .fillEllipse rect color => c.fillEllipse rect color
  | .strokeEllipse rect pen color => c.strokeEllipse rect pen color
  | .drawText text anchor style => c.drawText text anchor style
  | .blit frame dest clip => c.blit frame dest clip

/-- Carries out a command that makes sense. -/
def draw (command : Command) (c : Canvas) : Except DrawError Unit × Canvas :=
  match command.check with
  | .ok () => (.ok (), c.paint command)
  | .error e => (.error e, c)

instance : Surface Canvas where
  width := Canvas.width
  height := Canvas.height
  draw := Canvas.draw

end DriveOverlay.Canvas
