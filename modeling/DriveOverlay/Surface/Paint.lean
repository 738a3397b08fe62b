import DriveOverlay.Color

/-! # Paints

A paint gives each row of the surface a color: the same one, or a step of a vertical gradient.
Outside a gradient its end colors go on; a gradient of no height has its second color only. -/

namespace DriveOverlay

/-- What an area is filled with. -/
inductive Paint where
  | solid (color : Color)
  | vertical (y0 : Float32) (start : Color) (y1 : Float32) (stop : Color)

namespace Paint

/-- Gradients lower than this have no steps: the gap between `1` and the next single. -/
def leastSpan : Float32 := .ofBits 0x34000000

/-- The color at a height. -/
def colorAt (p : Paint) (y : Float32) : Color :=
  match p with
  | .solid c => c
  | .vertical y0 start y1 stop =>
    let span := y1 - y0
    if span.abs < leastSpan then stop else start.mix stop ((y - y0) / span)

/-- Nothing would show. -/
def isInvisible : Paint → Bool
  | .solid c => c.alpha = 0
  | .vertical _ start _ stop => start.alpha = 0 && stop.alpha = 0

end Paint

end DriveOverlay
