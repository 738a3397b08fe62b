import DriveOverlay.Hud.Values
import DriveOverlay.Layout
import DriveOverlay.Single.Trigonometry
import DriveOverlay.Surface.Command

/-! # Instruments

What stands at a fixed place on the surface: the shade at the top, the speed and the cruise box,
the icons, the side panels, debug text, the tire panel, the buttons and the standstill timer. -/

namespace DriveOverlay.Overlay

open Painter (draw)

variable {σ : Type} [Surface σ]

/-! ### Colors and text -/

/-- The alpha of secondary text. -/
def dim : UInt8 := 200

/-- The alpha of text that stands for nothing. -/
def faint : UInt8 := 100

/-- The color of a value in a panel. -/
def severityColor : Severity → Color
  | .normal => Palette.white dim
  | .good => Palette.green dim
  | .caution => Palette.orange dim
  | .critical => Palette.crimson dim

/-- The color of a tire pressure. -/
def tireColor : TireLevel → Color
  | .low => Palette.yellow dim
  | .normal => Palette.green dim
  | .high => Palette.crimson dim
  | .unavailable => Palette.white dim

/-- Writes text in the middle of an anchor. -/
def write (text : String) (x y : Float32) (size : Float32) (color : Color) : Painter σ Unit :=
  draw (.drawText text ⟨x, y⟩ { size, color })

/-- Writes text to the right of an anchor. -/
def writeLeft (text : String) (x y : Float32) (size : Float32) (color : Color) : Painter σ Unit :=
  draw (.drawText text ⟨x, y⟩ { size, color, align := .left })

/-- Carries out painters in turn up to the first refusal. -/
def inTurn : List (Painter σ Unit) → Painter σ Unit
  | [] => pure ()
  | p :: ps => do
    p
    inTurn ps

/-- A share as an alpha. -/
def alphaOf (share : Float32) : UInt8 :=
  (Single.round (share * 255)).toUInt8

/-! ### Header and speed -/

/-- The shade at the top. -/
def header (l : Layout) : Painter σ Unit :=
  let h := Single.ofInt Layout.headerHeight
  draw (.fillRect l.header
    (.vertical (h - h / 2.5) (Palette.black (alphaOf 0.45)) h (Palette.black 0)))

/-- The text and the alpha of the top line of the cruise box. -/
def maxSpeedLine (r : SpeedReadout) : String × UInt8 :=
  if r.showsMaxSpeed then (r.maxSpeed, 255)
  else if r.isCruiseSet then ("-", dim)
  else ("-", faint)

/-- The text and the alpha of the bottom line of the cruise box. -/
def heldSpeedLine (r : SpeedReadout) : String × UInt8 :=
  if r.isCruiseSet then (r.heldSpeed, 255) else ("-", faint)

/-- The cruise box. -/
def cruiseBox (l : Layout) (v : HudValues) : Painter σ Unit := do
  let box := l.cruiseBox
  draw (.fillRoundedRect box 20 v.cruiseBoxFill)
  draw (.strokeRoundedRect box 20 10 (Palette.white 100))
  let x := Single.ofInt box.centerX
  let bottom := l.height - Layout.border
  let (text, alpha) := maxSpeedLine v.speed
  write text x (Single.ofInt (bottom - 127)) 70 (Palette.white alpha)
  let (text, alpha) := heldSpeedLine v.speed
  write text x (Single.ofInt (bottom - 32)) 90 (Palette.white alpha)

/-- The cruise box, unless it is hidden, and the speed. -/
def speed (l : Layout) (v : HudValues) : Painter σ Unit := do
  if !v.hidesCruiseBox then cruiseBox l v
  let x := Single.ofInt l.centerX
  write v.speed.speed x 210 176 (Palette.white 255)
  write v.speed.unit x 290 66 (Palette.white dim)

/-! ### Icons -/

/-- A bar from `inner` to `outer` around a center, in a direction in degrees clockwise from the
right. -/
def spoke (cx cy inner outer halfWidth degrees : Float32) : Polygon :=
  let angle := Single.toRadians degrees
  let s := Single.sin angle
  let c := Single.cos angle
  let place (along across : Float32) : Point :=
    ⟨cx + along * c - across * s, cy + along * s + across * c⟩
  [place inner (-halfWidth), place outer (-halfWidth), place outer halfWidth, place inner halfWidth]

/-- A steering wheel turned against an angle: ring, hub, and spokes that point right, left and down
on a level wheel. -/
def wheelGlyph (icon : Rect) (angle : Float32) (color : Color) : Painter σ Unit := do
  let ring := Rect.centered icon.centerX icon.centerY ((icon.w * 5).tdiv 9)
  let hub := Rect.centered icon.centerX icon.centerY (icon.w.tdiv 9)
  draw (.strokeEllipse ring 10 color)
  draw (.fillEllipse hub color)
  let turn := if angle.isFinite then -angle else 0
  inTurn <| [0, 180, 90].map fun base =>
    let bar := spoke (Single.ofInt icon.centerX) (Single.ofInt icon.centerY)
      (Single.ofInt hub.w / 2) (Single.ofInt ring.w / 2) 4 (base + turn)
    draw (.fillPolygon bar (.solid color))

/-- A face: the outline of a head and two eyes. -/
def faceGlyph (icon : Rect) (color : Color) : Painter σ Unit := do
  let cx := icon.centerX
  let cy := icon.centerY
  let head : Rect :=
    ⟨cx - icon.w.tdiv 5, cy - icon.h.tdiv 4, (icon.w * 2).tdiv 5, icon.h.tdiv 2⟩
  draw (.strokeEllipse head 8 color)
  inTurn <| [(-icon.w).tdiv 12, icon.w.tdiv 12].map fun dx =>
    draw (.fillEllipse (.centered (cx + dx) (cy - icon.h.tdiv 20) (icon.w.tdiv 18)) color)

/-- White at full opacity, or at a lower one. -/
def glyphColor (on : Bool) (otherwise : Float32) : Color :=
  (Palette.white 255).fade (if on then 1 else otherwise)

/-- The steering wheel on a disc in the tint of the status, and the face on a disc of its own. -/
def icons (l : Layout) (s : Snapshot) (v : HudValues) : Painter σ Unit := do
  draw (.fillEllipse l.wheelIcon v.statusTint)
  wheelGlyph l.wheelIcon s.steering.angle (glyphColor v.engageable 0.5)
  draw (.fillEllipse l.faceIcon
    (if s.driverMonitoring.monitoringMode then Palette.monitoringDisc else Palette.idleDisc))
  faceGlyph l.faceIcon (glyphColor v.driverMonitored 0.2)

/-! ### Panels -/

/-- One row of a panel; the note beside it is turned. -/
def panelRow (anchor : Point) (row : PanelRow) : Painter σ Unit := do
  let plain := Palette.white dim
  write row.value anchor.x anchor.y 58 (severityColor row.severity)
  write row.caption anchor.x (anchor.y + 35) 27 plain
  if row.side ≠ "" then
    draw (.drawText row.side ⟨anchor.x + 90, anchor.y + 20⟩
      { size := 27, color := plain, align := .left, vertical := true })

/-- A panel and its rows. -/
def panel (rect : Rect) (rows : List PanelRow) : Painter σ Unit := do
  draw (.strokeRoundedRect rect 20 6 Palette.panelBorder)
  inTurn (rows.mapIdx fun i row => panelRow (Layout.rowAnchor rect i) row)

/-- The side panels that have rows. -/
def sidePanels (l : Layout) (v : HudValues) : Painter σ Unit := do
  if !v.leftPanel.isEmpty then panel (l.leftPanel v.leftPanel.length) v.leftPanel
  if !v.rightPanel.isEmpty then panel (l.rightPanel v.rightPanel.length) v.rightPanel

/-- The two columns and the controller of the tuning readout. -/
def tuning (l : Layout) (mapSearch : Bool) (readout : TuningReadout) (color : Color) :
    Painter σ Unit := do
  let size : Float32 := if mapSearch then 26 else 35
  let x := Single.ofInt (Layout.border + 190)
  let mapX := x + if mapSearch then 150 else 200
  let top := Single.ofInt (Layout.border + 100 + 240)
  let column (x : Float32) (lines : List String) : Painter σ Unit :=
    inTurn (lines.mapIdx fun i line => writeLeft line x (top + 40 * Single.ofNat i) size color)
  column x readout.parameters
  column mapX readout.map
  write readout.lateralControl (Single.ofInt l.centerX) (Single.ofInt (Layout.border + 310)) size
    color

/-- Debug text from level 1 on, and the tuning readout if there is one. -/
def debugText (l : Layout) (s : Snapshot) (v : HudValues) : Painter σ Unit := do
  if s.isStock || s.display.settings.debugLevel = 0 then return
  let mapSearch := s.display.mapSearch
  let color := (Palette.white 150).fade 0.7
  let size : Float32 := if mapSearch then 20 else 25
  let bottom := Single.ofInt l.height
  let line (text : String) (up nudge : Float32) : Painter σ Unit :=
    writeLeft text 205 (bottom - up - Single.ofInt Layout.border + nudge) size color
  line s.debugText.1 50 (if mapSearch then 15 else 0)
  line s.debugText.2 20 (if mapSearch then 5 else 0)
  match v.tuning with
  | some readout => tuning l mapSearch readout color
  | none => pure ()

/-- The tire panel: front wheels above rear wheels, left beside right. -/
def tirePanel (l : Layout) (tires : TirePanel) (unit : PressureUnit) : Painter σ Unit := do
  let rect := l.tirePanel
  if tires.outOfBalance then draw (.fillRoundedRect rect 20 Palette.imbalanceFill)
  draw (.strokeRoundedRect rect 20 6 Palette.panelBorder)
  let x := Single.ofInt rect.centerX
  let top := Single.ofInt (rect.y + 20)
  write "TPMS" x (top + 15) 33 (Palette.white dim)
  let (dx, size) : Float32 × Float32 := match unit with
    | .bar => (46, 39)
    | .psi => (50, 45)
  let reading (r : TireReading) (ox oy : Float32) : Painter σ Unit :=
    write r.text (x + ox) (top + oy) size (tireColor r.level)
  reading tires.readings.frontLeft (-dx) 55
  reading tires.readings.frontRight dx 55
  reading tires.readings.rearLeft (-dx) 95
  reading tires.readings.rearRight dx 95

/-! ### Buttons and standstill -/

/-- How a button looks: the fill when its mode is on, its lines and their size. -/
structure ButtonFace where
  fill : Option Color
  lines : List String
  size : Float32

/-- The look of a button in a frame. -/
def buttonFace (d : Display) : Button → ButtonFace
  | .record => ⟨if d.recording then some (Palette.crimson 150) else none, ["REC"], 39⟩
  | .laneMode =>
    let lines := match d.settings.laneMode with
      | .line => ["LANE", "LINE"]
      | .less => ["LANE", "LESS"]
      | .auto => ["AUTO"]
    ⟨if d.laneless then some (Palette.green 150) else none, lines, 39⟩
  | .navigation =>
    let fill := if d.mapRunning then some (Palette.blue 150) else none
    if d.mapSearch then ⟨fill, ["MAP", "Search"], 38⟩ else ⟨fill, ["NAVI"], 45⟩

/-- The baseline that centers a line on a height: a glyph has 15 of its 20 rows above it. -/
def centeredBaseline (y size : Float32) : Float32 :=
  y + 5 * Single.ofInt (Text.glyphScale size)

/-- One button. -/
def button (l : Layout) (d : Display) (b : Button) : Painter σ Unit := do
  let rect := l.button b
  let face := buttonFace d b
  match face.fill with
  | some fill => draw (.fillEllipse rect fill)
  | none => pure ()
  draw (.strokeEllipse rect 6 Palette.panelBorder)
  let x := Single.ofInt rect.centerX
  let y := Single.ofInt rect.centerY
  let line (text : String) (y : Float32) : Painter σ Unit :=
    write text x (centeredBaseline y face.size) face.size (Palette.white dim)
  match face.lines with
  | [only] => line only y
  | [first, second] => do
    line first (y - 20)
    line second (y + 20)
  | _ => pure ()

/-- The buttons, unless the display is stock. -/
def buttons (l : Layout) (s : Snapshot) : Painter σ Unit :=
  if s.isStock then pure () else inTurn (Button.all.map (button l s.display))

/-- The standstill timer, if it runs. -/
def standstill (l : Layout) (s : Snapshot) (v : HudValues) : Painter σ Unit :=
  match v.standstill with
  | none => pure ()
  | some timer => do
    let right := l.width - Layout.border
    let small := s.display.mapSearch
    let x := Single.ofInt (if small then right - 295 else right - 545)
    let timerY := Single.ofInt (Layout.border + if small then 510 else 560)
    write "STOP" x (Single.ofInt (Layout.border + 410)) (if small then 105 else 150)
      (Palette.ochre 240)
    write timer.label x timerY (if small then 125 else 175) (Palette.white 240)

end DriveOverlay.Overlay
