import DriveOverlay.Text.Style

/-! # Lit cells of a text

The cells that a text lights, as column and row around the anchor at the origin, rows growing
downward.  A line break starts a line one glyph height further down.  A line starts at the origin,
or half its width to the left of it; a carriage return at its end counts for the width but is not
drawn.  A turned text has the cell `(column, row)` at `(row, -column)`. -/

namespace DriveOverlay.Text

/-- The column in which a line of so many characters starts. -/
def lineStart (align : TextAlign) (count : Nat) : Int :=
  match align with
  | .left => 0
  | .center => -((Font.width * count : Int) - 1).tdiv 2

/-- Without one carriage return at the end. -/
def dropReturn (line : List Char) : List Char :=
  if line.getLast? = some '\r' then line.dropLast else line

/-- The lit cells of characters, the first of which has its top left cell in `column`, `top`. -/
def charCells (column top : Int) : List Char → List (Int × Int)
  | [] => []
  | c :: cs =>
    (Font.litCells (Font.glyph c)).map (fun (x, y) => (column + x, top + y)) ++
      charCells (column + Font.width) top cs

/-- The lit cells of a line with its baseline in a row. -/
def lineCells (align : TextAlign) (baseline : Int) (line : List Char) : List (Int × Int) :=
  charCells (lineStart align line.length) (baseline - Font.ascent) (dropReturn line)

/-- The lit cells of lines, the first of which has its baseline in a row. -/
def linesCells (align : TextAlign) (baseline : Int) : List (List Char) → List (Int × Int)
  | [] => []
  | line :: lines =>
    lineCells align baseline line ++ linesCells align (baseline + Font.height) lines

/-- The lit cells of an upright text. -/
def cells (s : String) (align : TextAlign) : List (Int × Int) :=
  linesCells align 0 (s.toList.splitOn '\n')

/-- A quarter turn counterclockwise. -/
def turn (cell : Int × Int) : Int × Int :=
  (cell.2, -cell.1)

end DriveOverlay.Text
