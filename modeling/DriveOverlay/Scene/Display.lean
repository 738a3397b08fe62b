/-! # Display modes

Settings of the display, which come from the configuration, and the modes that are on in a
frame. -/

namespace DriveOverlay

/-- How lane lines are followed. -/
inductive LaneMode where
  | line
  | less
  | auto
deriving Repr, DecidableEq, Inhabited

namespace LaneMode

/-- All modes. -/
def all : List LaneMode := [.line, .less, .auto]

/-- The word for a mode in a record. -/
def name : LaneMode → String
  | .line => "line"
  | .less => "less"
  | .auto => "auto"

end LaneMode

/-- The unit of tire pressures. -/
inductive PressureUnit where
  | psi
  | bar
deriving Repr, DecidableEq, Inhabited

namespace PressureUnit

/-- Both units. -/
def all : List PressureUnit := [.psi, .bar]

/-- The word for a unit in a record. -/
def name : PressureUnit → String
  | .psi => "psi"
  | .bar => "bar"

end PressureUnit

/-- Settings of the display.  Level 1 of debugging adds debug text, level 2 the tuning readout;
the stock display has no diagnostics at all. -/
structure DisplaySettings where
  debugLevel : UInt8 := 0
  stock : Bool := false
  laneMode : LaneMode := .auto
  pressureUnit : PressureUnit := .psi
deriving Repr, DecidableEq, Inhabited

/-- The display in one frame.  While planning is laneless no lane lines are drawn; in preview,
alerts are shown but not announced. -/
structure Display where
  settings : DisplaySettings := {}
  recording : Bool := false
  mapRunning : Bool := false
  mapSearch : Bool := false
  laneless : Bool := false
  preview : Bool := false
deriving Repr, DecidableEq, Inhabited

end DriveOverlay
