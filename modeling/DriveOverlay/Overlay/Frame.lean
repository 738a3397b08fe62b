import DriveOverlay.Overlay.Banner
import DriveOverlay.Overlay.Instruments
import DriveOverlay.Overlay.Road

/-! # Whole frames

A frame is painted element by element in a fixed order: border, camera image, road, instruments,
and the alert banner on top.  An element that the surface refuses something stays unfinished; the
others are painted all the same, and the report counts the unfinished ones. -/

namespace DriveOverlay

/-- What a frame is painted with: the camera and the places on the surface. -/
structure OverlayRenderer where
  transform : CarTransform
  layout : Layout

/-- The renderer for a configuration. -/
def OverlayRenderer.ofSettings (s : Settings) : OverlayRenderer where
  transform := .ofSettings s.camera s.surface.width s.surface.height
  layout := .ofSize s.surface.width.toNat s.surface.height.toNat

/-- What is painted in one frame. -/
structure OverlayFrame where
  video : Option VideoFrame
  snapshot : Snapshot
  values : HudValues
  update : AlertUpdate

/-- What painting a frame came to: how many elements stayed unfinished, and how many pixels the
banner covers. -/
structure RenderReport where
  failedElements : Nat
  bannerArea : Int
deriving Repr, DecidableEq, Inhabited

/-- The elements of a frame below the banner. -/
inductive OverlayElement where
  | border
  | video
  | lanes
  | path
  | leads
  | header
  | speed
  | icons
  | sidePanels
  | debugText
  | tirePanel
  | buttons
  | standstill
deriving Repr, DecidableEq

namespace OverlayElement

/-- All elements, from the bottom up. -/
def all : List OverlayElement :=
  [.border, .video, .lanes, .path, .leads, .header, .speed, .icons, .sidePanels, .debugText,
    .tirePanel, .buttons, .standstill]

/-- A frame has an element: the camera image and the tire panel may be missing. -/
def isIn (f : OverlayFrame) : OverlayElement → Bool
  | .video => f.video.isSome
  | .tirePanel => f.values.tires.isSome
  | _ => true

end OverlayElement

namespace Overlay

open Painter (draw)

variable {σ : Type} [Surface σ]

/-- The whole surface in a tint, over black. -/
def border (tint : Color) : Painter σ Unit := do
  let surface ← Painter.bounds
  draw (.clear (Palette.black 255))
  draw (.fillRect surface (.solid tint))

/-- Where a camera image goes on the surface. -/
def videoRect (t : CarTransform) (frame : VideoFrame) : Rect :=
  let (topLeft, bottomRight) := t.frameCorners frame.width frame.height
  let whole (x : Float32) : Int := Single.toInt32 (Single.round x)
  ⟨whole topLeft.x, whole topLeft.y, whole (bottomRight.x - topLeft.x),
    whole (bottomRight.y - topLeft.y)⟩

/-- The camera image, inside the border. -/
def video (t : CarTransform) (frame : VideoFrame) : Painter σ Unit := do
  draw (.blit frame (videoRect t frame) ((← Painter.bounds).inset Layout.border))

/-- Paints one element of a frame. -/
def element (r : OverlayRenderer) (f : OverlayFrame) : OverlayElement → Painter σ Unit
  | .border => border f.update.tint
  | .video =>
    match f.video with
    | some frame => video r.transform frame
    | none => pure ()
  | .lanes => lanes f.snapshot f.values r.transform
  | .path => path f.snapshot f.values r.transform
  | .leads => leads f.values r.transform
  | .header => header r.layout
  | .speed => speed r.layout f.values
  | .icons => icons r.layout f.snapshot f.values
  | .sidePanels => sidePanels r.layout f.values
  | .debugText => debugText r.layout f.snapshot f.values
  | .tirePanel =>
    match f.values.tires with
    | some tires => tirePanel r.layout tires f.snapshot.display.settings.pressureUnit
    | none => pure ()
  | .buttons => buttons r.layout f.snapshot
  | .standstill => standstill r.layout f.snapshot f.values

/-- Carries out painters one after the other, each from where the one before stopped, and counts
those that were refused something. -/
def countingRefusals : List (Painter σ Unit) → σ → Nat × σ
  | [], s => (0, s)
  | p :: ps, s =>
    let (outcome, s) := p s
    let (failed, s) := countingRefusals ps s
    (match outcome with | .ok _ => failed | .error _ => failed + 1, s)

/-- The painters of the elements of a frame below the banner, in order. -/
def elements (r : OverlayRenderer) (f : OverlayFrame) : List (Painter σ Unit) :=
  (OverlayElement.all.filter (OverlayElement.isIn f)).map (element r f)

/-- Paints a frame. -/
def render (r : OverlayRenderer) (f : OverlayFrame) (s : σ) : RenderReport × σ :=
  let (failed, s) := countingRefusals (elements r f) s
  match banner r.layout f.update.alert f.update.tint s with
  | (.ok area, s) => (⟨failed, area⟩, s)
  | (.error _, s) => (⟨failed + 1, 0⟩, s)

end Overlay

end DriveOverlay
