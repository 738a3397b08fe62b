import DriveOverlay.Proofs.Overlay.Commands
import DriveOverlay.Proofs.Surface.Integrity

/-! # Frames without ghosts

The border comes first in each frame and clears the canvas; all that follows goes over what the
border left.  So nothing of an earlier frame is left, and no pixel lets anything through.

* `border_congr`: what the border does depends on the size of a canvas only;
* `solid_border`: it leaves every pixel opaque;
* `Solid.painter`, `solid_countingRefusals`: so do the elements that come after it;
* `no_ghosting_law`: painted on canvases of one size, a frame comes out the same. -/

namespace DriveOverlay

namespace Canvas

/-- A canvas of a given size on which no pixel lets anything through. -/
structure Solid (width height : ℕ) (c : Canvas) : Prop where
  width_eq : c.width = width
  height_eq : c.height = height
  isOpaque : c.IsOpaque

variable {w h : ℕ} {c c' : Canvas}

theorem Solid.paint (hc : Solid w h c) {command : Command} (ho : command.isOver = true) :
    Solid w h (c.paint command) where
  width_eq := by rw [(paints_paint command).width_eq, hc.width_eq]
  height_eq := by rw [(paints_paint command).height_eq, hc.height_eq]
  isOpaque := hc.isOpaque.paint ho

theorem Solid.draw (hc : Solid w h c) {command : Command} (ho : command.isOver = true) :
    Solid w h (c.draw command).2 := by
  unfold Canvas.draw
  split
  · exact hc.paint ho
  · exact hc

theorem solid_clear (c : Canvas) {color : Color} (ha : color.alpha = 255) :
    Solid c.width c.height (c.paint (.clear color)) where
  width_eq := (paints_paint (.clear color)).width_eq c
  height_eq := (paints_paint (.clear color)).height_eq c
  isOpaque := isOpaque_clear c ha

/-- A painter that only puts something over what is there keeps a canvas solid. -/
theorem Solid.painter (hc : Solid w h c) {α : Type} {video : Option VideoFrame}
    {p : ∀ {σ : Type} [Surface σ], Painter σ α} (hp : Painter.Gives (Command.IsLayer video) p) :
    Solid w h (p c).2 :=
  hp.keeps (fun _ _ hl hs => hs.draw hl.isOver) hc

end Canvas

namespace Overlay

open Canvas Painter

/-! ### The border -/

theorem border_eq (tint : Color) (c : Canvas) :
    border tint c = (.ok (), (c.paint (.clear (Palette.black 255))).paint
      (.fillRect c.bounds (.solid tint))) :=
  rfl

/-- What the border does depends on the size of a canvas only. -/
theorem border_congr (tint : Color) {c c' : Canvas} (hw : c.width = c'.width)
    (hh : c.height = c'.height) : border tint c = border tint c' := by
  have hb : c.bounds = c'.bounds := by rw [Canvas.bounds, Canvas.bounds, hw, hh]
  rw [border_eq, border_eq, hb, paint_clear_congr hw hh]

theorem solid_border (tint : Color) (c : Canvas) :
    Solid c.width c.height (border tint c).2 := by
  have hc : Solid c.width c.height (c.paint (.clear (Palette.black 255))) := solid_clear c rfl
  have hf : (Command.fillRect c.bounds (.solid tint)).isOver = true := rfl
  exact hc.paint hf

/-! ### The elements in turn -/

/-- The elements of a frame above the border. -/
def aboveBorder (f : OverlayFrame) : List OverlayElement :=
  OverlayElement.all.tail.filter (OverlayElement.isIn f)

theorem countingRefusals_elements {σ : Type} [Surface σ] (r : OverlayRenderer) (f : OverlayFrame)
    (s : σ) : countingRefusals (elements r f) s =
      countingRefusals (border f.update.tint :: (aboveBorder f).map (element r f)) s :=
  rfl

theorem gives_aboveBorder (r : OverlayRenderer) (f : OverlayFrame) {e : OverlayElement}
    (he : e ∈ aboveBorder f) : Gives (Command.IsLayer f.video) (element r f e) := by
  have ht : e ∈ OverlayElement.all.tail := (List.mem_filter.mp he).1
  refine gives_element r f ?_
  rintro rfl
  revert ht
  decide

theorem solid_countingRefusals (r : OverlayRenderer) (f : OverlayFrame) (c : Canvas) :
    Solid c.width c.height (countingRefusals (elements r f) c).2 := by
  rw [countingRefusals_elements]
  exact keeps_countingRefusals (fun _ he => gives_aboveBorder r f he)
    (fun _ _ hl hs => hs.draw hl.isOver) (solid_border f.update.tint c)

/-! ### Whole frames -/

theorem render_congr (r : OverlayRenderer) (f : OverlayFrame) {c c' : Canvas}
    (hw : c.width = c'.width) (hh : c.height = c'.height) : render r f c = render r f c' := by
  have hr : countingRefusals (elements r f) c = countingRefusals (elements r f) c' := by
    rw [countingRefusals_elements, countingRefusals_elements, countingRefusals, countingRefusals,
      border_congr f.update.tint hw hh]
  unfold render
  rw [hr]

/-- A frame leaves nothing of what was on the canvas before it: on canvases of one size it comes out
the same, with the same report, and no pixel of it lets anything through. -/
theorem no_ghosting_law (r : OverlayRenderer) (f : OverlayFrame) {c c' : Canvas}
    (hw : c.width = c'.width) (hh : c.height = c'.height) :
    render r f c = render r f c' ∧ Solid c.width c.height (render r f c).2 := by
  constructor
  · exact render_congr r f hw hh
  · have hb : Gives (Command.IsLayer f.video) (banner r.layout f.update.alert f.update.tint) :=
      gives_banner ..
    rw [snd_render]
    exact (solid_countingRefusals r f c).painter hb

/-- A scene of which nothing is known, behind a camera image that has no pixels, under an alert. -/
def blankScene : OverlayFrame :=
  let values := ((HudDeriver.every 1).derive {} .waiting).2
  ⟨some ⟨0, 0, 3, .empty⟩, {}, values, ⟨.waiting, Status.alert.tint, true, true⟩⟩

/-- It covers a canvas that one could see through as well as a black one. -/
theorem no_ghosting_law_blankScene :
    filled 3 2 (Palette.white 0) ≠ filled 3 2 (Palette.black 255) ∧
      render (.ofSettings {}) blankScene (filled 3 2 (Palette.white 0)) =
        render (.ofSettings {}) blankScene (filled 3 2 (Palette.black 255)) ∧
      Solid 3 2 (render (.ofSettings {}) blankScene (filled 3 2 (Palette.white 0))).2 := by
  have hne : filled 3 2 (Palette.white 0) ≠ filled 3 2 (Palette.black 255) := by
    intro h
    have hp : (filled 3 2 (Palette.white 0)).get? 0 0 = some (Palette.black 255) := by
      rw [h, get?_filled (by decide) (by decide)]
    rw [get?_filled (by decide) (by decide)] at hp
    revert hp
    decide
  have hw : (filled 3 2 (Palette.white 0)).width = (filled 3 2 (Palette.black 255)).width := by
    rw [width_filled, width_filled]
  have hh : (filled 3 2 (Palette.white 0)).height = (filled 3 2 (Palette.black 255)).height := by
    rw [height_filled, height_filled]
  have hlaw := no_ghosting_law (.ofSettings {}) blankScene hw hh
  rw [width_filled, height_filled] at hlaw
  exact ⟨hne, hlaw⟩

end Overlay

end DriveOverlay
