import DriveOverlay.Geometry.Rect
import DriveOverlay.Scene.Alert

/-! # Layout

Where everything stands on a surface.  Distances fit a surface of 2160 by 1080 pixels; every box
keeps to an edge, so other sizes work too.

Buttons stand side by side at the bottom, from the right.  The banner of an alert covers them
but takes no touches. -/

namespace DriveOverlay

/-- The places on a surface of a given size. -/
structure Layout where
  width : Int
  height : Int
deriving Repr, DecidableEq, Inhabited

/-- A button, from right to left. -/
inductive Button where
  | record
  | laneMode
  | navigation
deriving Repr, DecidableEq, Inhabited

namespace Button

/-- All buttons, from right to left. -/
def all : List Button := [.record, .laneMode, .navigation]

/-- The place of a button, counted from the right. -/
def slot : Button → Int
  | .record => 0
  | .laneMode => 1
  | .navigation => 2

end Button

namespace Layout

/-- The width of the border around everything. -/
def border : Int := 30

/-- The height of the shade at the top. -/
def headerHeight : Int := 420

/-- The diameter of an icon. -/
def iconSize : Int := 180

/-- The width of a side panel. -/
def panelWidth : Int := 180

/-- The layout of a surface. -/
def ofSize (width height : Nat) : Layout :=
  ⟨signed32 width, signed32 height⟩

/-! ### Boxes -/

/-- The whole surface. -/
def surface (l : Layout) : Rect :=
  ⟨0, 0, l.width, l.height⟩

/-- The shade at the top. -/
def header (l : Layout) : Rect :=
  ⟨0, 0, l.width, headerHeight⟩

/-- The middle from left to right. -/
def centerX (l : Layout) : Int :=
  l.width.tdiv 2

/-- The cruise box. -/
def cruiseBox (l : Layout) : Rect :=
  ⟨border, l.height - border - 202, 184, 202⟩

/-- The steering-wheel icon. -/
def wheelIcon (l : Layout) : Rect :=
  .centered (l.width - iconSize / 2 - border) (iconSize / 2 + border) iconSize

/-- The driver-monitoring icon. -/
def faceIcon (_ : Layout) : Rect :=
  .centered (iconSize / 2 + border) (iconSize / 2 + border) iconSize

/-- The left panel, of so many rows. -/
def leftPanel (_ : Layout) (rows : Nat) : Rect :=
  ⟨border, border + 200, panelWidth, 104 * rows⟩

/-- The right panel, of so many rows. -/
def rightPanel (l : Layout) (rows : Nat) : Rect :=
  ⟨l.width - border - panelWidth, border + 200, panelWidth, 104 * rows⟩

/-- The baseline of the value in a row of a panel. -/
def rowAnchor (panel : Rect) (row : Nat) : Point :=
  ⟨Single.ofInt (panel.centerX - 10), Single.ofInt (border + 260 + 100 * row)⟩

/-- The tire panel. -/
def tirePanel (l : Layout) : Rect :=
  ⟨l.width - border - panelWidth, l.height - border - 260 - 20, panelWidth, 130⟩

/-- A button. -/
def button (l : Layout) (b : Button) : Rect :=
  ⟨l.width - border - 140 - 20 - 160 * b.slot, l.height - 175, 140, 140⟩

/-! ### Banner and touches -/

/-- How high a banner is at most. -/
def bannerHeight (l : Layout) : AlertSize → Option Int
  | .none => none
  | .small => some 271
  | .mid => some 420
  | .full => some l.height

/-- The banner of an alert, at the bottom; the empty size has none. -/
def banner? (l : Layout) (size : AlertSize) : Option Rect :=
  (l.bannerHeight size).map fun h =>
    let h := min h l.height
    ⟨0, l.height - h, l.width, h⟩

/-- The button under a point. -/
def buttonAt? (l : Layout) (p : Point) : Option Button :=
  if p.isFinite then Button.all.find? fun b => (l.button b).contains p else none

end Layout

end DriveOverlay
