import DriveOverlay.Overlay.Frame
import DriveOverlay.Proofs.Camera.Perspective
import DriveOverlay.Settings.Reader

/-! # Cameras that settings describe

Settings are only accepted with a positive focal length.  That makes the zoom positive, but the zoom
overflows for focal lengths close to zero, and nothing is asked of the principal point, so that
settings can be accepted with a camera that places nothing.

Whether a camera places its image is decided by two pixels: along each axis the order is kept, so
that all is finite between what is finite at both ends.  A camera that does places polygons of the
image, frames and leads.

* `check_spec`: what is known about settings that are accepted;
* `zoom_pos`, `isFinite_zoom_iff`: the zoom is positive, and finite from a least focal length on;
* `PlacesImage`, `isFinite_map_iff`: two pixels decide about the image;
* `placesImage_of_le`: focal lengths of a pixel or more and principal points not too far away;
* `camera_law`: all of it, for any text that is accepted, however it is read;
* `ofText_placesNothing`: settings that are accepted and place nothing. -/

namespace DriveOverlay

open Single

/-! ### Accepted settings -/

namespace Settings

/-- What a camera has in settings that are accepted. -/
theorem check_spec {s s' : Settings} (h : s.check = .ok s') :
    s' = s ∧ s.camera.focalLength.isFinite = true ∧ 0 < s.camera.focalLength := by
  unfold check at h
  split at h
  · cases h
  · split at h
    · cases h
    · split at h
      · cases h
      · split at h
        · rename_i hcamera
          rw [Bool.and_eq_true, decide_eq_true_eq] at hcamera
          cases h
          exact ⟨rfl, hcamera⟩
        · cases h

/-- A text can be read to tell whether it is accepted with some property. -/
instance {text : String} {p : Settings → Prop} [DecidablePred p] :
    Decidable (∃ s, ofText text = .ok s ∧ p s) :=
  match ofText text with
  | .ok s => decidable_of_iff (p s) ⟨fun h => ⟨s, rfl, h⟩, fun ⟨_, hs, h⟩ => by cases hs; exact h⟩
  | .error _ => isFalse fun ⟨_, hs, _⟩ => nomatch hs

theorem accept_spec {read : String → Option Settings} {text : String} {s : Settings}
    (h : accept read text = .ok s) :
    s.camera.focalLength.isFinite = true ∧ 0 < s.camera.focalLength := by
  unfold accept at h
  split at h
  · obtain ⟨rfl, hcamera⟩ := check_spec h
    exact hcamera
  · cases h

end Settings

namespace CarTransform

variable {t : CarTransform} {camera : CameraSettings} {width height : UInt32}

/-! ### The zoom -/

/-- The least focal length whose zoom does not overflow, about 8.56e-36 pixels. -/
def leastFocalLength : Float32 := .ofBits 0x05360cce

/-- The focal length before it. -/
def lastOverflow : Float32 := .ofBits 0x05360ccd

theorem isFinite_ratio_iff {f : Float32} (hf : f.isFinite = true) (hpos : 0 < f) :
    (unitFocalLength / f).isFinite = true ↔ leastFocalLength ≤ f := by
  have hn := isNaN_of_isFinite hf
  have h0 := index_pos_of_zero_lt hpos
  have hunit : unitFocalLength.isNaN = false := by decide
  have hunit0 : 0 ≤ index unitFocalLength := by decide
  have hleast : leastFocalLength.isFinite = true := by decide
  have hratio := isNaN_div hunit hf h0.ne'
  constructor
  · intro hfinite
    by_contra hle
    have hbefore : index f ≤ index lastOverflow := by
      have hlt : ¬index leastFocalLength ≤ index f := fun h =>
        hle (le_iff.mpr ⟨isNaN_of_isFinite hleast, hn, h⟩)
      have hnext : index leastFocalLength = index lastOverflow + 1 := by decide +kernel
      omega
    have hanti := index_div_antitone hunit hunit0 hf (by decide) h0 hbefore
    have hover : index (unitFocalLength / lastOverflow) = infinityIndex := by decide +kernel
    have hlt := (isFinite_iff.mp hfinite).2
    omega
  · intro hle
    have hanti := index_div_antitone hunit hunit0 hleast hf (by decide +kernel) (le_iff.mp hle).2.2
    have hlast : (unitFocalLength / leastFocalLength).isFinite = true := by decide +kernel
    exact isFinite_of_index_between hratio isFinite_zero hlast
      (index_div_nonneg hunit hf h0 hunit0) hanti

/-- The largest focal length there is. -/
def largestFocalLength : Float32 := .ofBits 0x7f7fffff

theorem index_ratio_ge {f : Float32} (hf : f.isFinite = true) (hpos : 0 < f) :
    (unitFocalLength / f).isNaN = false ∧
      index (unitFocalLength / largestFocalLength) ≤ index (unitFocalLength / f) := by
  have h0 := index_pos_of_zero_lt hpos
  refine ⟨isNaN_div (by decide) hf h0.ne', ?_⟩
  refine index_div_antitone (by decide) (by decide) hf (by decide) h0 ?_
  have hlast : index largestFocalLength = infinityIndex - 1 := by decide +kernel
  have hlt := (isFinite_iff.mp hf).2
  omega

theorem zoom_eq : (ofSettings camera width height).zoom =
    if camera.wide then unitFocalLength / camera.focalLength * 0.5
    else unitFocalLength / camera.focalLength := rfl

theorem zoom_pos (hf : camera.focalLength.isFinite = true) (hpos : 0 < camera.focalLength) :
    0 < (ofSettings camera width height).zoom := by
  obtain ⟨hn, hge⟩ := index_ratio_ge hf hpos
  rw [zoom_eq]
  split
  · have hhalf : 0 < index (unitFocalLength / largestFocalLength * 0.5) := by decide +kernel
    exact zero_lt_of_index_pos (isNaN_mul_left hn (by decide) (by decide))
      (hhalf.trans_le (index_mul_mono (by decide +kernel) hn (by decide) (by decide) hge))
  · have hleast : 0 < index (unitFocalLength / largestFocalLength) := by decide +kernel
    exact zero_lt_of_index_pos hn (hleast.trans_le hge)

/-- The zoom is finite from the least focal length on; half of what overflowed is still infinite. -/
theorem isFinite_zoom_iff (hf : camera.focalLength.isFinite = true)
    (hpos : 0 < camera.focalLength) :
    (ofSettings camera width height).zoom.isFinite = true ↔
      leastFocalLength ≤ camera.focalLength := by
  rw [← isFinite_ratio_iff hf hpos, zoom_eq]
  split
  · refine ⟨fun h => (isFinite_of_mul h).1, fun h => ?_⟩
    have hhalf : Within (-1) 0.5 := by decide
    exact ((within_of_isFinite h).mul hhalf (by norm_num) (by norm_num)).isFinite
  · rfl

/-! ### The image -/

/-- The point is a pixel of an image of no more than 10000 columns and rows, or at its edge. -/
def InImage (p : Point) : Prop :=
  (0 ≤ p.x ∧ p.x ≤ 10000) ∧ 0 ≤ p.y ∧ p.y ≤ 10000

instance (p : Point) : Decidable (InImage p) :=
  inferInstanceAs (Decidable ((_ ∧ _) ∧ _ ∧ _))

/-- The first and the last pixel of the image have a place. -/
def PlacesImage (t : CarTransform) : Prop :=
  (t.map ⟨0, 0⟩).isFinite = true ∧ (t.map ⟨10000, 10000⟩).isFinite = true

instance (t : CarTransform) : Decidable t.PlacesImage :=
  inferInstanceAs (Decidable (_ ∧ _))

theorem isFinite_point_iff {p : Point} :
    p.isFinite = true ↔ p.x.isFinite = true ∧ p.y.isFinite = true :=
  Bool.and_eq_true_iff

theorem isFinite_map_iff {p : Point} :
    (t.map p).isFinite = true ↔ (t.column p.x).isFinite = true ∧ (t.row p.y).isFinite = true :=
  Bool.and_eq_true_iff

theorem isFinite_of_axis {x center zoom half : Float32}
    (h : ((x - center) * zoom + half).isFinite = true) :
    center.isFinite = true ∧ zoom.isFinite = true := by
  obtain ⟨hproduct, -⟩ := isFinite_of_add h
  obtain ⟨hcentered, hz⟩ := isFinite_of_mul hproduct
  exact ⟨(isFinite_of_sub hcentered).2, hz⟩

theorem isFinite_of_isFinite_map {p : Point} (h : (t.map p).isFinite = true) :
    t.zoom.isFinite = true ∧ t.principalPoint.isFinite = true := by
  obtain ⟨hcolumn, hrow⟩ := isFinite_map_iff.mp h
  obtain ⟨hx, hz⟩ := isFinite_of_axis hcolumn
  obtain ⟨hy, -⟩ := isFinite_of_axis (isFinite_of_add hrow).1
  exact ⟨hz, isFinite_point_iff.mpr ⟨hx, hy⟩⟩

theorem isRegular_of_isFinite_map (hf : camera.focalLength.isFinite = true)
    (hpos : 0 < camera.focalLength) {p : Point}
    (h : ((ofSettings camera width height).map p).isFinite = true) :
    (ofSettings camera width height).IsRegular := by
  obtain ⟨hz, hp⟩ := isFinite_of_isFinite_map h
  have hcenter := isFinite_point_iff.mp hp
  exact isRegular_ofSettings hf hcenter ⟨hz, zoom_pos hf hpos⟩

theorem isFinite_map_of_inImage (ht : t.IsRegular) (h : t.PlacesImage) {p : Point}
    (hp : InImage p) : (t.map p).isFinite = true := by
  obtain ⟨hfirst, hlast⟩ := h
  obtain ⟨hfx, hfy⟩ := isFinite_map_iff.mp hfirst
  obtain ⟨hlx, hly⟩ := isFinite_map_iff.mp hlast
  obtain ⟨⟨hx0, hx1⟩, hy0, hy1⟩ := hp
  have hzero : (0 : Float32).isNaN = false := by decide
  have hend : (10000 : Float32).isNaN = false := by decide
  have hnx : p.x.isNaN = false := (le_iff.mp hx0).2.1
  have hny : p.y.isNaN = false := (le_iff.mp hy0).2.1
  have hcolumn {x x' : Float32} (hx : x.isNaN = false) (hx' : x'.isNaN = false) (hle : x ≤ x') :
      index (t.column x) ≤ index (t.column x') :=
    axis_mono ht.principalPoint.1 ht.zoom ht.width.1 hx hx' (le_iff.mp hle).2.2
  have hrow {y y' : Float32} (hy : y.isNaN = false) (hy' : y'.isNaN = false) (hle : y ≤ y') :
      index (t.row y) ≤ index (t.row y') :=
    row_mono ht hy hy' (le_iff.mp hle).2.2
  refine isFinite_map_iff.mpr ⟨?_, ?_⟩
  · exact isFinite_of_index_between (isNaN_map ht hnx hny).1 hfx hlx (hcolumn hzero hnx hx0)
      (hcolumn hnx hend hx1)
  · exact isFinite_of_index_between (isNaN_row ht hny) hfy hly (hrow hzero hny hy0)
      (hrow hny hend hy1)

theorem within_halfSide (n : UInt32) : Within 31 (n.toFloat32 / 2) := by
  have hlt : (n.toNat : ℚ) ≤ 2 ^ (32 : ℤ) := by exact_mod_cast n.toNat_lt.le
  have hside : Within 32 n.toFloat32 := within_of_index (isNaN_toFloat32 n) (index_toFloat32 n)
    (by rwa [abs_of_nonneg (Nat.cast_nonneg _)]) (by norm_num) (by norm_num)
  have htwo : (2 : ℚ) ^ (1 : ℤ) ≤ |value 2| := by
    rw [isWhole_two.value_eq]
    norm_num
  exact hside.div isWhole_two.isFinite htwo (by norm_num) (by norm_num)

theorem within_zoom (hf : camera.focalLength.isFinite = true) (hle : 1 ≤ camera.focalLength) :
    Within 12 (ofSettings camera width height).zoom := by
  have hone : 2 ^ (0 : ℤ) ≤ |value camera.focalLength| := by
    rw [zpow_zero, ← value_one]
    exact ((le_iff_value rfl (isNaN_of_isFinite hf)).mp hle).trans (le_abs_self _)
  have hunit : Within 12 unitFocalLength := by decide
  have hhalf : Within 0 0.5 := by decide
  have hratio : Within 12 (unitFocalLength / camera.focalLength) :=
    hunit.div hf hone (by norm_num) (by norm_num)
  rw [zoom_eq]
  split
  · exact hratio.mul hhalf (by norm_num) (by norm_num)
  · exact hratio

/-- The image has a place with a focal length of a pixel or more and a principal point that is no
further away than 10³⁰ pixels. -/
theorem placesImage_of_le (hf : camera.focalLength.isFinite = true)
    (hle : 1 ≤ camera.focalLength) (hx : camera.principalPoint.1.abs ≤ 1e30)
    (hy : camera.principalPoint.2.abs ≤ 1e30) : (ofSettings camera width height).PlacesImage := by
  have hcenter {x : Float32} (h : x.abs ≤ 1e30) : Within 100 x :=
    .of_abs_le h (by decide +kernel)
  have haxis {x center : Float32} (hx : Within 100 x) (hc : Within 100 center) (side : UInt32) :
      Within 114 ((x - center) * (ofSettings camera width height).zoom + side.toFloat32 / 2) := by
    have hzoom : Within 12 (ofSettings camera width height).zoom := within_zoom hf hle
    have hproduct := (hx.sub hc (by norm_num)).mul hzoom (by norm_num) (by norm_num)
    exact hproduct.add ((within_halfSide side).mono (by norm_num)) (by norm_num)
  have hdrop : Within 114 drop := by decide
  have hpixel {x : Float32} (hp : Within 100 x) :
      ((ofSettings camera width height).map ⟨x, x⟩).isFinite = true :=
    isFinite_map_iff.mpr ⟨(haxis hp (hcenter hx) width).isFinite,
      ((haxis hp (hcenter hy) height).add hdrop (by norm_num)).isFinite⟩
  exact ⟨hpixel (by decide), hpixel (by decide)⟩

/-! ### What is placed -/

theorem inImage_corner {w h : UInt32} (hw : w.toNat ≤ 10000) (hh : h.toNat ≤ 10000) :
    InImage ⟨w.toFloat32, h.toFloat32⟩ := by
  have hwhole : IsWhole 10000 10000 := isWhole_ofNat (n := 10000) (by norm_num)
  have hside {n : UInt32} (hn : n.toNat ≤ 10000) : 0 ≤ n.toFloat32 ∧ n.toFloat32 ≤ 10000 := by
    have hgrid : OnGrid (10000 : ℚ) := by
      have h := onGrid_intCast (z := 10000) (by norm_num)
      exact_mod_cast h
    have hle : value n.toFloat32 ≤ value 10000 := by
      rw [hwhole.value_eq]
      exact rounded_le (index_toFloat32 n) hgrid (by exact_mod_cast hn)
    exact ⟨(le_iff_value rfl (isNaN_toFloat32 n)).mpr (value_zero.trans_le (side_spec n).2),
      (le_iff_value (isNaN_toFloat32 n) rfl).mpr hle⟩
  exact ⟨hside hw, hside hh⟩

theorem isFinite_of_inImage {p : Point} (hp : InImage p) : p.isFinite = true := by
  obtain ⟨⟨hx0, hx1⟩, hy0, hy1⟩ := hp
  obtain ⟨-, hnx, hx0⟩ := le_iff.mp hx0
  obtain ⟨-, hny, hy0⟩ := le_iff.mp hy0
  have hend : (10000 : Float32).isFinite = true := by decide
  exact isFinite_point_iff.mpr
    ⟨isFinite_of_index_between hnx isFinite_zero hend hx0 (le_iff.mp hx1).2.2,
      isFinite_of_index_between hny isFinite_zero hend hy0 (le_iff.mp hy1).2.2⟩

theorem mapPolygon?_of_inImage (ht : t.IsRegular) (h : t.PlacesImage) {polygon : Polygon}
    (hp : ∀ p ∈ polygon, InImage p) :
    ∃ q, t.mapPolygon? polygon = some q ∧ ∀ p ∈ q, p.isFinite = true := by
  refine ⟨polygon.map t.map, if_pos ?_, ?_⟩
  · exact List.all_eq_true.mpr fun p hmem => isFinite_of_inImage (hp p hmem)
  · intro q hq
    obtain ⟨p, hmem, rfl⟩ := List.mem_map.mp hq
    exact isFinite_map_of_inImage ht h (hp p hmem)

/-! ### The law -/

/-- The camera that settings describe, for any text that is accepted, whatever the reader makes of
texts: the zoom is positive, and it is finite from the least focal length on.  All pixels of the
image have a finite place just when the first and the last one do, and then so do frames, polygons of
the image and all leads at finite distances and lateral offsets; the numbers of the camera are finite
then.  It is enough that the focal length is a pixel or more, and that the principal point is not too
far away. -/
theorem camera_law (read : String → Option Settings) (text : String) (s : Settings)
    (h : Settings.accept read text = .ok s) :
    let t := (OverlayRenderer.ofSettings s).transform
    0 < t.zoom ∧
      (t.zoom.isFinite = true ↔ leastFocalLength ≤ s.camera.focalLength) ∧
      ((∀ p, InImage p → (t.map p).isFinite = true) ↔ t.PlacesImage) ∧
      (1 ≤ s.camera.focalLength → s.camera.principalPoint.1.abs ≤ 1e30 →
        s.camera.principalPoint.2.abs ≤ 1e30 → t.PlacesImage) ∧
      (t.PlacesImage →
        (t.zoom.isFinite = true ∧ t.principalPoint.isFinite = true) ∧
        (∀ width height : UInt32, width.toNat ≤ 10000 → height.toNat ≤ 10000 →
          (t.frameCorners width height).1.isFinite = true ∧
            (t.frameCorners width height).2.isFinite = true) ∧
        (∀ polygon : Polygon, (∀ p ∈ polygon, InImage p) →
          ∃ q, t.mapPolygon? polygon = some q ∧ ∀ p ∈ q, p.isFinite = true) ∧
        ∀ l : Lead, l.distance.isFinite = true → l.lateral.isFinite = true →
          ∃ p, t.leadAnchor? l = some p ∧ t.OnSurface p) := by
  intro t
  obtain ⟨hf, hpos⟩ := Settings.accept_spec h
  have hregular (himage : t.PlacesImage) : t.IsRegular := isRegular_of_isFinite_map hf hpos himage.1
  refine ⟨zoom_pos hf hpos, isFinite_zoom_iff hf hpos, ?_, placesImage_of_le hf, ?_⟩
  · exact ⟨fun hall => ⟨hall _ (by decide), hall _ (by decide)⟩,
      fun himage _ => isFinite_map_of_inImage (hregular himage) himage⟩
  · intro himage
    have ht := hregular himage
    exact ⟨isFinite_of_isFinite_map himage.1,
      fun width height hw hh =>
        ⟨himage.1, isFinite_map_of_inImage ht himage (inImage_corner hw hh)⟩,
      fun polygon hp => mapPolygon?_of_inImage ht himage hp,
      fun l hd hl => leadAnchor?_spec ht hd hl⟩

/-- Settings with a focal length of one pixel. -/
theorem camera_law_onePixel :
    ∃ s, Settings.ofText "camera:\n  focal_length: 1\n" = .ok s ∧
      (OverlayRenderer.ofSettings s).transform.PlacesImage := by
  have haccepted : ∃ s, Settings.ofText "camera:\n  focal_length: 1\n" = .ok s ∧
      1 ≤ s.camera.focalLength ∧ s.camera.principalPoint.1.abs ≤ 1e30 ∧
        s.camera.principalPoint.2.abs ≤ 1e30 := by decide +kernel
  obtain ⟨s, h, hf, hx, hy⟩ := haccepted
  exact ⟨s, h, (camera_law _ _ s h).2.2.2.1 hf hx hy⟩

/-- Settings that are accepted with a camera that has no place for the first pixel: nothing is asked
of the principal point, and the zoom of the least positive focal length is infinite. -/
theorem ofText_placesNothing :
    (∃ s, Settings.ofText "camera:\n  principal_point: [.nan, 604.0]\n" = .ok s ∧
      ((OverlayRenderer.ofSettings s).transform.map ⟨0, 0⟩).isFinite = false) ∧
    ∃ s, Settings.ofText "camera:\n  focal_length: 1e-45\n" = .ok s ∧
      (OverlayRenderer.ofSettings s).transform.zoom.isFinite = false ∧
        ((OverlayRenderer.ofSettings s).transform.map ⟨0, 0⟩).isFinite = false := by
  decide +kernel

end CarTransform

end DriveOverlay
