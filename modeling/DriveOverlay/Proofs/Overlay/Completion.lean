import DriveOverlay.Proofs.Overlay.Ghosting

/-! # Frames that go through

A surface that may break down is a canvas or, from then on, none.  Of the commands of a frame only that
of the camera image may break down, and only for an image that is not refused and needs `2 ^ 64`
bytes or more.  So what is said of frames on canvases holds on surfaces that may break down, for every
other frame.

* `alike_some`: commands that never break down do to such a surface what they do to the canvas;
* `isSteady_element`: the commands of a frame;
* `render_some`: a frame on such a surface is the frame on the canvas;
* `render_of_breaksDown`: where the camera image breaks down, nothing is left. -/

namespace DriveOverlay

namespace Canvas

open Painter

/-- A command that goes through does to a surface that may break down what it does to the canvas. -/
theorem draw_some {command : Command} (h : command.IsSteady) (c : Canvas) :
    Surface.draw command (some c) = ((c.draw command).1, some (c.draw command).2) := by
  change drawOn command (some c) = _
  rw [drawOn, Option.bind_some, h c]

theorem draw_some_of_breaksDown {command : Command} {c : Canvas} (h : c.breaksDown command = true) :
    (Surface.draw command (some c)).2 = none := by
  change (drawOn command (some c)).2 = none
  rw [drawOn, Option.bind_some, attempt?_of_breaksDown h]

theorem alike_some : Alike Command.IsSteady fun (c : Canvas) (c? : Option Canvas) => c? = some c where
  width_eq := by
    rintro c _ rfl
    rfl
  height_eq := by
    rintro c _ rfl
    rfl
  draw := by
    rintro command h c _ rfl
    rw [draw_some h]
    exact ⟨rfl, rfl⟩

end Canvas

namespace Overlay

open Canvas Painter

/-- A frame without a camera image, or with one that can be counted or is refused. -/
def IsCountable (video : Option VideoFrame) : Prop :=
  ∀ frame, video = some frame → frame.check = .ok () → frame.byteCount < 2 ^ 64

theorem isCountable_none : IsCountable none := by
  rintro frame h
  cases h

theorem isCountable_some {frame : VideoFrame}
    (h : frame.check = .ok () → frame.byteCount < 2 ^ 64) : IsCountable (some frame) := by
  rintro _ hframe
  obtain rfl := Option.some.inj hframe
  exact h

theorem gives_border (tint : Color) : Gives Command.IsSteady (border tint) :=
  gives_bounds.bind fun _ => (gives_draw (Command.isSteady_of_not_mayBreakDown id)).bind fun _ =>
    gives_draw (Command.isSteady_of_not_mayBreakDown id)

/-- No command of an element breaks down. -/
theorem isSteady_element (r : OverlayRenderer) {f : OverlayFrame} (hv : IsCountable f.video)
    (e : OverlayElement) : Gives Command.IsSteady (element r f e) := by
  by_cases he : e = .border
  · rw [he]
    exact gives_border f.update.tint
  · exact (gives_element r f he).mono fun _ hl => hl.isSteady hv

theorem isSteady_banner (l : Layout) (alert : Alert) (tint : Color) :
    Gives Command.IsSteady (banner l alert tint) := by
  have hb : Gives (Command.IsLayer none) (banner l alert tint) := gives_banner l alert tint
  exact hb.mono fun _ hl => hl.isSteady isCountable_none

theorem banner_some (l : Layout) (alert : Alert) (tint : Color) (c : Canvas) :
    banner l alert tint (some c) = ((banner l alert tint c).1, some (banner l alert tint c).2) := by
  obtain ⟨hresult, hcanvas⟩ :=
    (isSteady_banner l alert tint).alike alike_some (rfl : some c = some c)
  exact Prod.ext hresult.symm hcanvas

/-- On a surface that may break down a frame comes to what it comes to on the canvas. -/
theorem render_some (r : OverlayRenderer) {f : OverlayFrame} (hv : IsCountable f.video) (c : Canvas) :
    render r f (some c) = ((render r f c).1, some (render r f c).2) := by
  obtain ⟨hreport, hcanvas⟩ := alike_render alike_some (isSteady_element r hv)
    (isSteady_banner r.layout f.update.alert f.update.tint) (rfl : some c = some c)
  exact Prod.ext hreport.symm hcanvas

/-! ### Camera images that cannot be counted -/

theorem gives_any (r : OverlayRenderer) (f : OverlayFrame) (e : OverlayElement) :
    Gives (fun _ => True) (element r f e) := by
  by_cases he : e = .border
  · rw [he]
    exact (gives_border f.update.tint).mono fun _ _ => trivial
  · exact (gives_element r f he).mono fun _ _ => trivial

theorem countingRefusals_none (r : OverlayRenderer) (f : OverlayFrame) (l : List OverlayElement) :
    (countingRefusals (l.map (element r f)) (none : Option Canvas)).2 = none := by
  refine keeps_countingRefusals (P := fun c? => c? = none) (fun e _ => gives_any r f e) ?_ rfl
  rintro command _ - rfl
  rfl

theorem banner_none (l : Layout) (alert : Alert) (tint : Color) :
    (banner l alert tint (none : Option Canvas)).2 = none := by
  refine (isSteady_banner l alert tint).keeps (P := fun c? => c? = none) ?_ rfl
  rintro command _ - rfl
  rfl

/-- Where the camera image breaks down, nothing is left of the frame. -/
theorem render_of_breaksDown {r : OverlayRenderer} {f : OverlayFrame} {frame : VideoFrame}
    {c : Canvas} (hv : f.video = some frame)
    (hb : c.breaksDown (.blit frame (videoRect r.transform frame) (c.bounds.inset Layout.border)) =
      true) : (render r f (some c)).2 = none := by
  have hfilter : OverlayElement.all.filter (OverlayElement.isIn f) = .border :: .video ::
      (OverlayElement.all.drop 2).filter (OverlayElement.isIn f) := by
    have hin : OverlayElement.isIn f .video = true := by rw [OverlayElement.isIn, hv]; rfl
    exact congrArg (OverlayElement.border :: ·) (List.filter_cons_of_pos hin)
  have hborder : (border f.update.tint (some c)).2 = some (border f.update.tint c).2 :=
    ((gives_border f.update.tint).alike alike_some (rfl : some c = some c)).2
  have hvideo : (element r f .video (some (border f.update.tint c).2)).2 = none := by
    have hsize := solid_border f.update.tint c
    have hbounds : (border f.update.tint c).2.bounds = c.bounds := by
      rw [Canvas.bounds, hsize.width_eq, hsize.height_eq, Canvas.bounds]
    rw [element, hv]
    refine draw_some_of_breaksDown ?_
    rw [breaksDown_congr hsize.width_eq hsize.height_eq, ← hb, ← hbounds]
    rfl
  rw [snd_render, elements, hfilter, List.map_cons, List.map_cons, snd_countingRefusals,
    snd_countingRefusals]
  change (banner _ _ _ (countingRefusals _ (element r f .video (border _ (some c)).2).2).2).2 = none
  rw [hborder, hvideo, countingRefusals_none, banner_none]

end Overlay

end DriveOverlay
