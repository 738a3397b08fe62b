/-! # Alerts

What the driving system wants the driver to read: two lines of text, a machine-readable kind and
the size of the banner.  The alert without text and without a banner is the empty alert. -/

namespace DriveOverlay

/-- How much of the surface an alert takes. -/
inductive AlertSize where
  | none
  | small
  | mid
  | full
deriving Repr, DecidableEq, Inhabited

namespace AlertSize

/-- All sizes, in growing order. -/
def all : List AlertSize := [.none, .small, .mid, .full]

/-- The word for a size in a record. -/
def name : AlertSize → String
  | .none => "none"
  | .small => "small"
  | .mid => "mid"
  | .full => "full"

end AlertSize

/-- An alert; two alerts are the same when all four parts agree. -/
structure Alert where
  title : String := ""
  subtitle : String := ""
  kind : String := ""
  size : AlertSize := .none
deriving Repr, DecidableEq, Inhabited

namespace Alert

/-- The empty alert. -/
def empty : Alert := {}

/-- There is neither a banner nor a text to show. -/
def isEmpty (a : Alert) : Bool :=
  a.size = .none && a.title = "" && a.subtitle = ""

end Alert

end DriveOverlay
