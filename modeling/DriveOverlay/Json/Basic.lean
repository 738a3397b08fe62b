/-! # JSON values

The tree of a JSON document.  Whole numbers within 64 bits, with or without a sign, are kept
apart from the others, which are doubles.  Members keep their order, and a name may occur more
than once.

A literal may be well formed and still have no value: a number beyond the largest double, or a
text in which half of a surrogate pair is escaped.  It is `unreadable`; only a reader that
ignores it goes on. -/

namespace DriveOverlay

/-- A JSON value. -/
inductive Json where
  | null
  | bool (value : Bool)
  | whole (value : Int)
  | real (value : Float)
  | text (value : String)
  | list (items : List Json)
  | object (members : List (String × Json))
  | unreadable
deriving Inhabited

end DriveOverlay
