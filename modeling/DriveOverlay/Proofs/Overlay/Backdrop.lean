import DriveOverlay.Proofs.Overlay.Banner
import DriveOverlay.Proofs.Surface.Scaling

/-! # Border and camera image

The border is what the camera image leaves of a surface that is tinted as a whole.  Wherever a camera
puts its image, however large, it is cut at the inner edge of the border, and on a surface that is
all border nothing of it is left.

* `has_inset_iff`: the inner edge;
* `get?_border`, `get?_video_of_shows`, `get?_video_of_not_shows`: the two steps, pixel by pixel;
* `backdrop_law`: what they leave together. -/

namespace DriveOverlay

/-! ### Along the edges -/

namespace Layout

/-- On a surface of the given size, the pixel is less than the width of the border away from an
edge. -/
def NearEdge (width height x y : ℕ) : Prop :=
  (x < border ∨ width - border ≤ x) ∨ y < border ∨ height - border ≤ y

theorem nearEdge_of_small {width height : ℕ} (h : width < 2 * border ∨ height < 2 * border)
    (x y : ℕ) : NearEdge width height x y := by
  unfold NearEdge
  omega

end Layout

/-- The clip of camera images has the pixels that are not near an edge. -/
theorem Canvas.has_inset_iff (c : Canvas) (x y : ℕ) :
    (c.bounds.inset Layout.border).Has x y ↔ ¬Layout.NearEdge c.width c.height x y := by
  unfold Layout.NearEdge Canvas.bounds Rect.inset Rect.Has Rect.right Rect.bottom
  dsimp only
  omega

namespace Overlay

open Canvas Painter

/-! ### Border -/

/-- The border makes each pixel the tint over black. -/
theorem get?_border (tint : Color) {c : Canvas} {x y : ℕ} (hx : x < c.width) (hy : y < c.height) :
    (border tint c).2.get? x y = some (tint.over (Palette.black 255)) := by
  obtain ⟨p, hp⟩ := get?_eq_some hx hy
  have hin : c.bounds.Has x y := by
    simp only [Rect.Has, Rect.right, Rect.bottom, Canvas.bounds]
    omega
  rw [border_eq, (paints_paint _).get?_eq, (paints_paint _).get?_eq, hp, Option.map_some,
    Option.map_some, rule_fillRect_solid, Color.overIf, if_pos hin]
  rfl

/-! ### Camera image -/

/-- The color is that of the camera image in proportion to where the pixel lies in its place. -/
def ShowsAt (t : CarTransform) (frame : VideoFrame) (x y : ℕ) (color : Color) : Prop :=
  let dest := videoRect t frame
  frame.Shows (sourceIndex frame.width.toNat dest.x dest.w x)
    (sourceIndex frame.height.toNat dest.y dest.h y) color

/-- On a surface of the given size the pixel is in the place of the camera image. -/
structure Covers (t : CarTransform) (frame : VideoFrame) (width height x y : ℕ) : Prop where
  check : frame.check = .ok ()
  has : (videoRect t frame).Has x y
  inside : ¬Layout.NearEdge width height x y

variable {t : CarTransform} {frame : VideoFrame} {c : Canvas} {x y : ℕ}

theorem video_eq (t : CarTransform) (h : frame.check = .ok ()) (c : Canvas) :
    video t frame c =
      (.ok (), c.blit frame (videoRect t frame) (c.bounds.inset Layout.border)) :=
  draw_of_check (by rw [Command.check, h]; rfl) c

theorem size_video (t : CarTransform) (frame : VideoFrame) (c : Canvas) :
    (video t frame c).2.width = c.width ∧ (video t frame c).2.height = c.height := by
  cases h : frame.check with
  | error e =>
      rw [video_of_fault t h]
      exact ⟨rfl, rfl⟩
  | ok =>
      have hp := paints_blit frame (videoRect t frame) (c.bounds.inset Layout.border)
      rw [video_eq t h]
      exact ⟨hp.width_eq c, hp.height_eq c⟩

theorem samples_videoRect (h : frame.check = .ok ()) (hhas : (videoRect t frame).Has x y) :
    let dest := videoRect t frame
    Samples frame.width.toNat dest.x dest.w ∧ Samples frame.height.toNat dest.y dest.h := by
  intro dest
  have he : dest.isEmpty = false := by
    rw [← Bool.not_eq_true]
    exact fun he => Rect.not_has he x y hhas
  have hw : dest.w < 2 ^ 31 := Int.lt_of_le_sub_one (Single.toInt32_mem _).2
  have hh : dest.h < 2 ^ 31 := Int.lt_of_le_sub_one (Single.toInt32_mem _).2
  exact samples_blit h he hw hh

/-- Inside the border, the pixel that a place shows replaces the one below, if the image has its
bytes. -/
theorem get?_video (h : Covers t frame c.width c.height x y) :
    (∃ color, ShowsAt t frame x y color ∧
        (video t frame c).2.get? x y = (c.get? x y).map fun _ => color) ∨
      (¬∃ color, ShowsAt t frame x y color) ∧ (video t frame c).2.get? x y = c.get? x y := by
  obtain ⟨hcolumns, hrows⟩ := samples_videoRect h.check h.has
  have hclip := (c.has_inset_iff x y).mpr h.inside
  obtain ⟨i, j, ⟨hi, hi'⟩, ⟨hj, hj'⟩, hpixel⟩ := get?_blit (c := c) hcolumns hrows ⟨h.has, hclip⟩
  unfold ShowsAt
  rw [video_eq t h.check, hpixel]
  dsimp only
  rw [hi, hj]
  cases hcolor : frame.colorAt? i j with
  | some color => exact .inl ⟨color, VideoFrame.shows_of_colorAt? hi' hj' hcolor, rfl⟩
  | none =>
      refine .inr ⟨?_, Option.map_id' ..⟩
      rintro ⟨color, hshows⟩
      rw [hshows.colorAt?] at hcolor
      cases hcolor

theorem get?_video_of_shows (h : Covers t frame c.width c.height x y)
    (hshows : ∃ color, ShowsAt t frame x y color) (hx : x < c.width) (hy : y < c.height) :
    ∃ p, (video t frame c).2.get? x y = some p ∧ ShowsAt t frame x y p := by
  obtain ⟨below, hbelow⟩ := get?_eq_some hx hy
  rcases get?_video h with ⟨color, hcolor, hp⟩ | ⟨hnone, -⟩
  · rw [hbelow] at hp
    exact ⟨color, hp, hcolor⟩
  · exact absurd hshows hnone

theorem get?_video_of_not_shows
    (h : ¬(Covers t frame c.width c.height x y ∧ ∃ color, ShowsAt t frame x y color)) :
    (video t frame c).2.get? x y = c.get? x y := by
  cases hcheck : frame.check with
  | error e => rw [video_of_fault t hcheck]
  | ok =>
      by_cases hcovers : Covers t frame c.width c.height x y
      · rcases get?_video hcovers with ⟨color, hcolor, -⟩ | ⟨-, hp⟩
        · exact absurd ⟨hcovers, color, hcolor⟩ h
        · exact hp
      · rw [video_eq t hcheck]
        refine get?_blit_of_outside fun hin => hcovers ?_
        exact ⟨hcheck, hin.1, (c.has_inset_iff x y).mp hin.2⟩

theorem exists_showsAt {width height : ℕ} (h : Covers t frame width height x y)
    (hcount : frame.byteCount < 2 ^ 64) : ∃ color, ShowsAt t frame x y color := by
  obtain ⟨hcolumns, hrows⟩ := samples_videoRect h.check h.has
  obtain ⟨⟨hx₁, hx₂⟩, hy₁, hy₂⟩ := h.has
  have hcolumn := hcolumns.lt_count x hx₂
  have hrow := hrows.lt_count y hy₂
  obtain ⟨i, hi⟩ := Int.eq_ofNat_of_zero_le (hcolumns.nonneg x hx₁)
  obtain ⟨j, hj⟩ := Int.eq_ofNat_of_zero_le (hrows.nonneg y hy₁)
  rw [hi] at hcolumn
  rw [hj] at hrow
  have hi' : i < frame.width.toNat := by omega
  have hj' : j < frame.height.toNat := by omega
  obtain ⟨color, hcolor⟩ := (VideoFrame.valid_of_check h.check hcount).exists_colorAt? hi' hj'
  refine ⟨color, ?_⟩
  unfold ShowsAt
  dsimp only
  rw [hi, hj]
  exact VideoFrame.shows_of_colorAt? hi' hj' hcolor

/-! ### Both -/

/-- The painters of the border and of the camera image, if there is one. -/
def backdrop {σ : Type} [Surface σ] (r : OverlayRenderer) (f : OverlayFrame) :
    List (Painter σ Unit) :=
  border f.update.tint :: f.video.toList.map (video r.transform)

theorem elements_eq_backdrop {σ : Type} [Surface σ] (r : OverlayRenderer) (f : OverlayFrame) :
    (elements r f : List (Painter σ Unit)) = backdrop r f ++ aboveVideo r f :=
  elements_eq_below r f

theorem attempt_backdrop_of_none (r : OverlayRenderer) {f : OverlayFrame} (hv : f.video = none)
    (c : Canvas) : attempt (backdrop r f) c = (border f.update.tint c).2 := by
  rw [backdrop, hv]
  rfl

theorem attempt_backdrop_of_some (r : OverlayRenderer) {f : OverlayFrame}
    (hv : f.video = some frame) (c : Canvas) :
    attempt (backdrop r f) c = (video r.transform frame (border f.update.tint c).2).2 := by
  rw [backdrop, hv]
  rfl

theorem size_backdrop (r : OverlayRenderer) (f : OverlayFrame) (c : Canvas) :
    (attempt (backdrop r f) c).width = c.width ∧ (attempt (backdrop r f) c).height = c.height := by
  have hb := solid_border f.update.tint c
  cases hv : f.video with
  | none =>
      rw [attempt_backdrop_of_none r hv]
      exact ⟨hb.width_eq, hb.height_eq⟩
  | some frame =>
      obtain ⟨hw, hh⟩ := size_video r.transform frame (border f.update.tint c).2
      rw [attempt_backdrop_of_some r hv]
      exact ⟨hw.trans hb.width_eq, hh.trans hb.height_eq⟩

theorem get?_backdrop_of_shows {r : OverlayRenderer} {f : OverlayFrame} (hv : f.video = some frame)
    (h : Covers r.transform frame c.width c.height x y)
    (hshows : ∃ color, ShowsAt r.transform frame x y color) (hx : x < c.width) (hy : y < c.height) :
    ∃ p, (attempt (backdrop r f) c).get? x y = some p ∧ ShowsAt r.transform frame x y p := by
  have hb := solid_border f.update.tint c
  rw [attempt_backdrop_of_some r hv]
  rw [← hb.width_eq, ← hb.height_eq] at h
  rw [← hb.width_eq] at hx
  rw [← hb.height_eq] at hy
  exact get?_video_of_shows h hshows hx hy

theorem get?_backdrop_of_not_shows {r : OverlayRenderer} {f : OverlayFrame}
    (h : ∀ frame, f.video = some frame → ¬(Covers r.transform frame c.width c.height x y ∧
      ∃ color, ShowsAt r.transform frame x y color)) (hx : x < c.width) (hy : y < c.height) :
    (attempt (backdrop r f) c).get? x y = some (f.update.tint.over (Palette.black 255)) := by
  have hb := solid_border f.update.tint c
  cases hv : f.video with
  | none => rw [attempt_backdrop_of_none r hv, get?_border f.update.tint hx hy]
  | some frame =>
      have hn := h frame hv
      rw [← hb.width_eq, ← hb.height_eq] at hn
      rw [attempt_backdrop_of_some r hv, get?_video_of_not_shows hn,
        get?_border f.update.tint hx hy]

/-- **The backdrop law.**  After border and camera image, the first two steps of a frame, each pixel
near an edge is the tint over black, and each other pixel is that too or an opaque sample of a camera
image without a fault.  Such an image, if its bytes can be counted, shows wherever its place reaches
inside the border, and on a surface without room for two borders nowhere. -/
theorem backdrop_law (r : OverlayRenderer) (f : OverlayFrame) (c : Canvas) :
    let c' := attempt (backdrop r f) c
    let tint := f.update.tint.over (Palette.black 255)
    (elements r f : List (Painter Canvas Unit)) = backdrop r f ++ aboveVideo r f ∧
      (c'.width = c.width ∧ c'.height = c.height) ∧
      (∀ x y, x < c.width → y < c.height → ∃ p, c'.get? x y = some p ∧
        (Layout.NearEdge c.width c.height x y → p = tint) ∧
        (p = tint ∨ ∃ frame, f.video = some frame ∧
          Covers r.transform frame c.width c.height x y ∧ ShowsAt r.transform frame x y p)) ∧
      (∀ frame, f.video = some frame → frame.byteCount < 2 ^ 64 →
        ∀ x y, x < c.width → y < c.height → Covers r.transform frame c.width c.height x y →
          ∃ p, c'.get? x y = some p ∧ ShowsAt r.transform frame x y p) ∧
      (c.width < 2 * Layout.border ∨ c.height < 2 * Layout.border →
        ∀ x y, x < c.width → y < c.height → c'.get? x y = some tint) := by
  intro c' tint
  have hedge {x y : ℕ} (h : Layout.NearEdge c.width c.height x y) (hx : x < c.width)
      (hy : y < c.height) : c'.get? x y = some tint :=
    get?_backdrop_of_not_shows (fun _ _ hcovers => hcovers.1.inside h) hx hy
  refine ⟨elements_eq_backdrop r f, size_backdrop r f c, fun x y hx hy => ?_,
    fun frame hv hcount x y hx hy h =>
      get?_backdrop_of_shows hv h (exists_showsAt h hcount) hx hy,
    fun hsmall x y hx hy => hedge (Layout.nearEdge_of_small hsmall x y) hx hy⟩
  by_cases h : ∃ frame, f.video = some frame ∧ Covers r.transform frame c.width c.height x y ∧
      ∃ color, ShowsAt r.transform frame x y color
  · obtain ⟨frame, hv, hcovers, hshows⟩ := h
    obtain ⟨p, hp, hpixel⟩ := get?_backdrop_of_shows hv hcovers hshows hx hy
    exact ⟨p, hp, fun hnear => absurd hnear hcovers.inside, .inr ⟨frame, hv, hcovers, hpixel⟩⟩
  · have hp : c'.get? x y = some tint :=
      get?_backdrop_of_not_shows (fun frame hv hshown => h ⟨frame, hv, hshown⟩) hx hy
    exact ⟨tint, hp, fun _ => rfl, .inl rfl⟩

/-- A camera that puts the corner of its image one pixel inside the border of 62 by 62 pixels. -/
def cornerCamera : OverlayRenderer :=
  ⟨⟨1, ⟨0, 150⟩, 1, 62, 62⟩, .ofSize 62 62⟩

/-- Of an image of two columns the border leaves one. -/
theorem backdrop_law_cornerCamera :
    let f : OverlayFrame := { blankScene with video := some twoColumns }
    let c' := attempt (backdrop cornerCamera f) (filled 62 62 (Palette.white 0))
    (∃ p, c'.get? 31 31 = some p ∧ ShowsAt cornerCamera.transform twoColumns 31 31 p) ∧
      c'.get? 32 31 = some (Status.alert.tint.over (Palette.black 255)) := by
  intro f c'
  have hdest : videoRect cornerCamera.transform twoColumns = ⟨31, 31, 2, 1⟩ := by decide +kernel
  obtain ⟨-, -, hpixel, hshown, -⟩ := backdrop_law cornerCamera f (filled 62 62 (Palette.white 0))
  rw [width_filled, height_filled] at hpixel hshown
  constructor
  · refine hshown twoColumns rfl (by decide) 31 31 (by norm_num) (by norm_num) ⟨rfl, ?_, ?_⟩
    · rw [hdest]
      decide
    · unfold Layout.NearEdge
      decide
  · obtain ⟨p, hp, hnear, -⟩ := hpixel 32 31 (by norm_num) (by norm_num)
    rw [hp, hnear (.inl (.inr (by decide)))]
    rfl

end Overlay

end DriveOverlay
