/-! # White space

`isBlank` tells the characters with the property White_Space; `words` are the maximal runs of
other characters. -/

namespace DriveOverlay.Text

/-- A character of white space. -/
def isBlank (c : Char) : Bool :=
  let n := c.toNat
  (0x09 ≤ n && n ≤ 0x0d) || n = 0x20 || n = 0x85 || n = 0xa0 || n = 0x1680 ||
    (0x2000 ≤ n && n ≤ 0x200a) || n = 0x2028 || n = 0x2029 || n = 0x202f || n = 0x205f || n = 0x3000

/-- There is nothing but white space. -/
def isAllBlank (s : String) : Bool :=
  s.toList.all isBlank

/-- The words of a text; `word` is the beginning of the first one, backwards. -/
def wordsFrom : List Char → List Char → List String
  | [], word => if word.isEmpty then [] else [String.ofList word.reverse]
  | c :: cs, word =>
    if isBlank c then
      if word.isEmpty then wordsFrom cs [] else String.ofList word.reverse :: wordsFrom cs []
    else wordsFrom cs (c :: word)

/-- The words of a text. -/
def words (s : String) : List String :=
  wordsFrom s.toList []

end DriveOverlay.Text
