import DriveOverlay.Camera
import DriveOverlay.Hud.Values
import DriveOverlay.Surface.Command

/-! # The road layer

Lane lines, road edges, the path and the lead markers, in this order.  Polygons come in pixels of
the camera image; one that has no area on the surface is not drawn.  A lane line, an edge or a
lead that the surface refuses does not keep the others from being drawn. -/

namespace DriveOverlay.Overlay

open Painter (draw)

variable {σ : Type} [Surface σ]

/-! ### Polygons -/

/-- A polygon of the camera image on the surface, if it is worth drawing. -/
def mapped? (t : CarTransform) (polygon : Polygon) : Option Polygon :=
  (t.mapPolygon? polygon).filter Polygon.isDrawable

/-- Fills a polygon of the camera image. -/
def fillMapped (t : CarTransform) (polygon : Polygon) (paint : Paint) : Painter σ Unit :=
  match mapped? t polygon with
  | some polygon => draw (.fillPolygon polygon paint)
  | none => pure ()

/-- Carries out painters in turn, whether or not the surface refuses something. -/
def each : List (Painter σ Unit) → Painter σ Unit
  | [] => pure ()
  | p :: ps => do
    p.ignoringRefusal
    each ps

/-- The lane lines with their colors, then the road edges with theirs. -/
def roadMarkings (s : Snapshot) (v : HudValues) : List (Polygon × Color) :=
  s.laneLines.zip v.laneColors ++ s.roadEdges.zip v.edgeColors

/-- Lane lines and road edges, unless planning is laneless. -/
def lanes (s : Snapshot) (v : HudValues) (t : CarTransform) : Painter σ Unit :=
  if s.display.laneless then pure ()
  else each ((roadMarkings s v).map fun (polygon, color) => fillMapped t polygon (.solid color))

/-- The path, fading from the bottom of the surface to a quarter of its height. -/
def path (s : Snapshot) (v : HudValues) (t : CarTransform) : Painter σ Unit := do
  let h := Single.ofNat (← Painter.height)
  fillMapped t s.path (.vertical h v.path.bottom (h / 4) v.path.top)

/-! ### Leads -/

/-- The size of the letter on a marker. -/
def leadLabelSize : Float32 := 35

/-- The glow behind a chevron with its tip at `(x, y)`. -/
def glowShape (x y size : Float32) : Polygon :=
  let dx := size / 5
  let dy := size / 10
  [⟨x + size * 1.35 + dx, y + size + dy⟩, ⟨x, y - dx⟩, ⟨x - size * 1.35 - dx, y + size + dy⟩]

/-- A chevron with its tip at `(x, y)`. -/
def chevronShape (x y size : Float32) : Polygon :=
  [⟨x + size * 1.25, y + size⟩, ⟨x, y⟩, ⟨x - size * 1.25, y + size⟩]

/-- The colors of the glow, the chevron and the letter of a marker. -/
def leadColors (m : LeadMarker) : Color × Color × Color :=
  match m.source with
  | .radar => (Palette.radarGlow, Palette.crimson m.alpha, Palette.white 255)
  | .vision => (Palette.visionGlow, Palette.green m.alpha, Palette.black 255)

/-- Where the tip of a marker goes for its anchor, on a surface of the given size: so that the
chevron stays visible. -/
def leadTip (anchor : Point) (size width height : Float32) : Point :=
  ⟨Single.clamp anchor.x 0 (Single.upper (width - size / 2) 0),
    Single.lower anchor.y (height - size * 0.6)⟩

/-- One lead marker, unless its lead cannot be placed. -/
def lead (t : CarTransform) (m : LeadMarker) : Painter σ Unit :=
  match t.leadAnchor? m.lead with
  | none => pure ()
  | some anchor => do
    let w ← Painter.width
    let h ← Painter.height
    let tip := leadTip anchor m.size (Single.ofNat w) (Single.ofNat h)
    let (glow, fill, label) := leadColors m
    draw (.fillPolygon (glowShape tip.x tip.y m.size) (.solid glow))
    draw (.fillPolygon (chevronShape tip.x tip.y m.size) (.solid fill))
    let labelY := tip.y + m.size * 1.25 / 2 + leadLabelSize / 2
    draw (.drawText m.source.label ⟨tip.x, labelY⟩ { size := leadLabelSize, color := label })

/-- The lead markers, the nearest last and so on top. -/
def leads (v : HudValues) (t : CarTransform) : Painter σ Unit :=
  each (v.leads.reverse.map (lead t))

end DriveOverlay.Overlay
