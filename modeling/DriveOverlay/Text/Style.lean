import DriveOverlay.Color
import DriveOverlay.Signed
import DriveOverlay.Text.Blank
import DriveOverlay.Text.Font

/-! # Text sizes and wrapping

Text is drawn by magnifying the cells of the font by a whole number, the nearest to the nominal
line height over the height of a glyph and at least one.  Wrapping is greedy: a word goes on the
current line as long as the line stays within the width; a word that is too wide by itself gets a
line of its own. -/

namespace DriveOverlay

/-- Where a line of text stands relative to its anchor. -/
inductive TextAlign where
  | left
  | center
deriving Repr, DecidableEq, Inhabited

/-- How a text looks: nominal line height in pixels, color, alignment, and whether it is turned to
read from bottom to top. -/
structure TextStyle where
  size : Float32
  color : Color
  align : TextAlign := .center
  vertical : Bool := false

namespace TextStyle

/-- The same style, turned. -/
def rotated (s : TextStyle) : TextStyle :=
  { s with vertical := true }

end TextStyle

namespace Text

/-- By how much the font is magnified for a nominal size. -/
def glyphScale (size : Float32) : Int :=
  if size.isFinite then max (Single.toInt32 (Single.round (size / Single.ofNat Font.height))) 1
  else 1

theorem glyphScale_pos (size : Float32) : 0 < glyphScale size := by
  unfold glyphScale
  split <;> omega

/-- The width of a text on one line, in 32 bits. -/
def width (s : String) (size : Float32) : Int :=
  signed32 (s.length * Font.width * glyphScale size)

/-- The height of a line. -/
def lineHeight (size : Float32) : Float32 :=
  Single.ofInt (glyphScale size * Font.height)

/-- The lines of words behind the beginning of a line. -/
def linesFrom (fits : String → Bool) (line : String) : List String → List String
  | [] => [line]
  | word :: words =>
    let longer := line ++ " " ++ word
    if fits longer then linesFrom fits longer words else line :: linesFrom fits word words

/-- The lines of a text within a width. -/
def wrap (s : String) (size : Float32) (maxWidth : Int) : List String :=
  match words s with
  | [] => []
  | word :: words => linesFrom (fun line => width line size ≤ maxWidth) word words

end Text

end DriveOverlay
