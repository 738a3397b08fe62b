import DriveOverlay.Proofs.Overlay.Acceptance
import DriveOverlay.Proofs.Overlay.Ghosting
import DriveOverlay.Proofs.Surface.Gradients
import DriveOverlay.Proofs.Text.Cells

/-! # The banner on top

The banner comes after all elements of a frame and goes over what they left.  It keeps to the rows
from its upper edge down: the letters of a line begin at the top of the line, and the first line
begins below the edge.  Only a text of so many lines that its rows leave the range of 32 bits comes
back from above.

* `BannerLine.StandsBelow`: a line whose letters begin below an edge;
* `banner_eq`: on a canvas a banner is never refused, and gives its area;
* `paints_banner`: what it does to a pixel;
* `edge_le_of_lights`: no letter of a text that keeps its rows lights a pixel above the edge;
* `topmost_manyLines`: a text that does not keep its rows;
* `topmost_law`: a frame is the frame without an alert, under the banner. -/

namespace DriveOverlay

/-! ### Rows of a banner -/

namespace AlertSize

/-- How many rows of a surface a banner takes. -/
def bannerRows (height : ℕ) : AlertSize → ℕ
  | .none => 0
  | .small => min 271 height
  | .mid => min 420 height
  | .full => height

theorem bannerRows_le (height : ℕ) (size : AlertSize) :
    size.bannerRows height ≤ height := by
  cases size with
  | none => exact Nat.zero_le height
  | small => exact Nat.min_le_right _ _
  | mid => exact Nat.min_le_right _ _
  | full => exact le_rfl

theorem bannerRows_pos_iff {height : ℕ} (hh : 0 < height) (size : AlertSize) :
    0 < size.bannerRows height ↔ size ≠ .none := by
  cases size with
  | none => simp [bannerRows]
  | small => simp [bannerRows, hh]
  | mid => simp [bannerRows, hh]
  | full => simp [bannerRows, hh]

/-- The rectangle of a banner on a surface. -/
def bannerRect (width height : ℕ) (size : AlertSize) : Rect :=
  ⟨0, height - size.bannerRows height, width, size.bannerRows height⟩

theorem has_bannerRect_iff {width height x y : ℕ} (hx : x < width) (hy : y < height)
    (size : AlertSize) :
    (size.bannerRect width height).Has x y ↔ height - size.bannerRows height ≤ y := by
  have hrows := size.bannerRows_le height
  unfold bannerRect Rect.Has Rect.right Rect.bottom
  dsimp only
  omega

theorem area_bannerRect {width height : ℕ} (hw : 0 < width) (hh : 0 < height)
    {size : AlertSize} (hs : size ≠ .none) :
    (size.bannerRect width height).area = (width * size.bannerRows height : ℕ) := by
  have hrows := (size.bannerRows_pos_iff hh).mpr hs
  have he : (size.bannerRect width height).isEmpty = false := by
    simp [Rect.isEmpty, bannerRect, hw.ne', hrows.ne']
  rw [Rect.area, he]
  exact (Nat.cast_mul width (size.bannerRows height)).symm

end AlertSize

namespace Layout

theorem banner?_ofSize {width height : ℕ} (hw : width < 2 ^ 31) (hh : height < 2 ^ 31)
    {size : AlertSize} (hs : size ≠ .none) :
    (ofSize width height).banner? size = some (size.bannerRect width height) := by
  rw [ofSize, signed32_of_isSigned32 ⟨by omega, by omega⟩,
    signed32_of_isSigned32 ⟨by omega, by omega⟩]
  cases size with
  | none => exact absurd rfl hs
  | small => simp [banner?, bannerHeight, AlertSize.bannerRect, AlertSize.bannerRows]
  | mid => simp [banner?, bannerHeight, AlertSize.bannerRect, AlertSize.bannerRows]
  | full => simp [banner?, bannerHeight, AlertSize.bannerRect, AlertSize.bannerRows]

end Layout

/-- The same frame with no alert to show. -/
def OverlayFrame.withoutAlert (f : OverlayFrame) : OverlayFrame :=
  { f with update := { f.update with alert := .empty } }

namespace Overlay

open Canvas Painter Single

/-! ### Lines -/

namespace BannerLine

/-- How a line is written. -/
def style (line : BannerLine) : TextStyle where
  size := line.size
  color := Palette.white 255

/-- The line lights a pixel. -/
def Lights (line : BannerLine) (x y : ℕ) : Prop :=
  ∃ block ∈ Text.blocks line.text line.anchor line.style, block.Has x y

instance (line : BannerLine) (x y : ℕ) : Decidable (line.Lights x y) :=
  inferInstanceAs (Decidable (∃ block ∈ Text.blocks line.text line.anchor line.style, _))

/-- The row of the baseline. -/
def baseline (line : BannerLine) : ℤ :=
  Single.toInt32 (Single.round line.anchor.y)

/-- The rows of the letters are computed without leaving the range of 32 bits. -/
def KeepsRows (line : BannerLine) : Prop :=
  ∀ cell ∈ Text.cells line.text .center,
    IsSigned32 (line.baseline + cell.2 * Text.glyphScale line.size)

theorem rule_drawText (line : BannerLine) (x y : ℕ) (below : Color) :
    (Command.drawText line.text line.anchor line.style).rule x y below =
      if line.Lights x y then Palette.white 255 else below :=
  rule_drawText_of_full (by rfl) x y below

end BannerLine

/-- A canvas with lines written on it. -/
def written (lines : List BannerLine) (c : Canvas) : Canvas :=
  lines.foldl (fun c line => c.paint (.drawText line.text line.anchor line.style)) c

theorem writeLines_eq {lines : List BannerLine}
    (h : ∀ line ∈ lines, line.anchor.x.isFinite = true ∧ line.anchor.y.isFinite = true)
    (c : Canvas) : writeLines lines c = (.ok (), written lines c) := by
  induction lines generalizing c with
  | nil => rfl
  | cons line lines ih =>
      obtain ⟨hx, hy⟩ := h line List.mem_cons_self
      refine (draw_bind (check_drawText hx hy) (fun _ => writeLines lines) c).trans ?_
      exact ih (fun other ho => h other (List.mem_cons_of_mem line ho)) _

theorem paints_written (lines : List BannerLine) :
    Paints (written lines) fun x y below =>
      if ∃ line ∈ lines, line.Lights x y then Palette.white 255 else below := by
  induction lines with
  | nil => exact Paints.unchanged.congr_rule fun x y p => by simp
  | cons line lines ih =>
      refine (ih.comp (paints_paint (.drawText line.text line.anchor line.style))).congr_rule
        fun x y p => ?_
      rw [BannerLine.rule_drawText]
      by_cases hl : line.Lights x y
      · simp [hl]
      · simp [hl]

/-! ### What a banner does -/

/-- On a canvas a banner is never refused, and gives its area. -/
theorem banner_eq {l : Layout} {alert : Alert} {rect : Rect} (h : l.banner? alert.size = some rect)
    (tint : Color) (c : Canvas) :
    banner l alert tint c = (.ok rect.area, written (bannerLines alert rect)
      ((c.paint (.fillRect rect (bannerShade rect))).paint (.fillRect rect (.solid tint)))) := by
  have hshade : (Command.fillRect rect (bannerShade rect)).check = .ok () := rfl
  have htint : (Command.fillRect rect (.solid tint)).check = .ok () := rfl
  unfold banner
  rw [h]
  refine (draw_bind hshade _ c).trans ((draw_bind htint _ _).trans ?_)
  refine (bind_apply (writeLines (bannerLines alert rect)) _ _).trans ?_
  rw [writeLines_eq fun _ => isFinite_of_mem_bannerLines]
  rfl

theorem banner_eq_none {σ : Type} [Surface σ] {l : Layout} {alert : Alert}
    (h : l.banner? alert.size = none) (tint : Color) (s : σ) :
    banner l alert tint s = (.ok 0, s) := by
  unfold banner
  rw [h]
  rfl

theorem bannerShade_eq (rect : Rect) (y : Float32) :
    ∃ darkness : UInt8, (bannerShade rect).colorAt y = Palette.black darkness ∧
      13 ≤ darkness.toNat ∧ darkness.toNat ≤ 89 := by
  have hb := Paint.between_colorAt
    (ofInt rect.y) (Palette.black (Single.round (0.05 * 255)).toUInt8)
    (ofInt rect.bottom) (Palette.black (Single.round (0.35 * 255)).toUInt8) y
  have ha := hb.alpha
  rw [Color.ChannelBetween] at ha
  have h13 : (Palette.black (Single.round (0.05 * 255)).toUInt8).alpha.toNat = 13 := rfl
  have h89 : (Palette.black (Single.round (0.35 * 255)).toUInt8).alpha.toNat = 89 := rfl
  rw [h13, h89] at ha
  exact ⟨_, hb.eq_black, by omega, by omega⟩

theorem rule_fillRect_solid (rect : Rect) (color : Color) (x y : ℕ) (below : Color) :
    (Command.fillRect rect (.solid color)).rule x y below =
      color.overIf (rect.Has x y) below := by
  by_cases h : color.alpha = 0
  · simp only [Command.rule, Color.overIf, Paint.colorAt, over_of_invisible h, ite_self]
  · have hv : (Paint.solid color).isInvisible = false := decide_eq_false h
    simp only [Command.rule, Paint.colorAt, hv, true_and]

/-- What a banner makes of a pixel: the letters are white, and the rest of the rectangle is darkened
and then tinted. -/
theorem paints_banner {l : Layout} {alert : Alert} {rect : Rect}
    (h : l.banner? alert.size = some rect) (tint : Color) :
    Paints (fun c => (banner l alert tint c).2) fun x y below =>
      if ∃ line ∈ bannerLines alert rect, line.Lights x y then Palette.white 255
      else if rect.Has x y then
        tint.over (((bannerShade rect).colorAt (Scanline.middle y)).over below)
      else below := by
  have hshade := paints_paint (.fillRect rect (bannerShade rect))
  have htint := paints_paint (.fillRect rect (.solid tint))
  refine (((paints_written (bannerLines alert rect)).comp (htint.comp hshade)).of_eq
    fun c => ?_).congr_rule fun x y p => ?_
  · rw [banner_eq h]
  · have hv : (bannerShade rect).isInvisible = false := rfl
    rw [rule_fillRect_solid]
    by_cases hr : rect.Has x y
    · simp only [Command.rule, Color.overIf, hv, hr, and_self, if_true]
    · simp only [Command.rule, Color.overIf, hr, and_false, if_false]

/-! ### Upper edges -/

/-- The baseline of a single line. -/
def firstBaseline (size top : Float32) : Float32 :=
  top + 0.75 * Text.lineHeight size + Single.ofNat 0 * Text.lineHeight size

theorem mem_oneLine {text : String} {size cx top : Float32} {line : BannerLine}
    (h : line ∈ oneLine text size cx top) : line = ⟨text, ⟨cx, firstBaseline size top⟩, size⟩ := by
  unfold oneLine at h
  split at h
  · cases h
  · exact List.mem_singleton.mp h

theorem isWhole_firstBaseline {size top : Float32} {z k : ℤ} (ht : IsWhole z top)
    (hk : Text.glyphScale size = k) (hz : z.natAbs ≤ 2 ^ 23) (hk' : k.natAbs ≤ 2 ^ 16) :
    IsWhole (z + k * 15) (firstBaseline size top) := by
  have hpitch : IsWhole (k * 20) (Text.lineHeight size) := by
    rw [← hk]
    exact isWhole_ofInt (by rw [hk]; omega)
  have hascent : IsWhole (k * 15) (0.75 * Text.lineHeight size) := by
    refine isWhole_of_index (isNaN_mul rfl hpitch.isFinite) ?_ (by omega)
    rw [index_mul rfl hpitch.isFinite, hpitch.value_eq, value_threeQuarters]
    congr 1
    push_cast
    ring
  have hfirst : IsWhole 0 (Single.ofNat 0 * Text.lineHeight size) := by
    have h0 := (isWhole_ofNat (n := 0) (by norm_num)).mul hpitch (by omega)
    rwa [Nat.cast_zero, zero_mul] at h0
  have hbase := (ht.add hascent (by omega)).add hfirst (by omega)
  rwa [add_zero] at hbase

/-- The letters of a line begin at an edge or below it: the baseline is as far below the top of the line
as letters stand above it. -/
structure BannerLine.StandsBelow (line : BannerLine) (edge : ℤ) : Prop where
  scale_le : Text.glyphScale line.size ≤ 4
  edge_le : edge ≤ line.baseline - 15 * Text.glyphScale line.size
  baseline_le : line.baseline ≤ 2 ^ 24
  edge_nonneg : 0 ≤ edge

namespace BannerLine.StandsBelow

variable {line : BannerLine} {edge : ℤ}

/-- No letter lights a pixel above the edge. -/
theorem edge_le_of_lights (h : line.StandsBelow edge) (hrows : line.KeepsRows) {x y : ℕ}
    (hl : line.Lights x y) : edge ≤ y := by
  obtain ⟨block, hb, hx⟩ := hl
  obtain ⟨cell, hcell, rfl⟩ := List.mem_map.mp hb
  have hrow := Text.le_of_mem_linesCells hcell
  have hascent : ((Font.ascent : ℕ) : ℤ) = 15 := rfl
  rw [hascent] at hrow
  have hup := mul_le_mul_of_nonneg_right hrow (Text.glyphScale_pos line.size).le
  have hy : signed32 (line.baseline + cell.2 * Text.glyphScale line.size) ≤ y := hx.2.1
  rw [signed32_of_isSigned32 (hrows cell hcell)] at hy
  linarith [h.edge_le]

theorem keepsRows (h : line.StandsBelow edge) (hlength : line.text.length < 10 ^ 7) :
    line.KeepsRows := by
  intro cell hcell
  have hk := Text.glyphScale_pos line.size
  have hk' := h.scale_le
  have hedge := h.edge_le
  have hnonneg := h.edge_nonneg
  have hlow := Text.le_of_mem_linesCells hcell
  have hhigh := Text.lt_of_mem_cells hcell
  have hascent : ((Font.ascent : ℕ) : ℤ) = 15 := rfl
  have hheight : ((Font.height : ℕ) : ℤ) = 20 := rfl
  rw [hascent] at hlow
  rw [hheight] at hhigh
  have hup := mul_le_mul_of_nonneg_right hlow hk.le
  have hdown : cell.2 * Text.glyphScale line.size ≤ (20 * 10 ^ 7) * 4 :=
    mul_le_mul (by omega) hk' hk.le (by norm_num)
  exact ⟨by linarith, by linarith [h.baseline_le]⟩

end BannerLine.StandsBelow

theorem standsBelow_oneLine {text : String} {size cx top : Float32} {z k edge : ℤ}
    (ht : IsWhole z top) (hk : Text.glyphScale size = k) (hk' : k ≤ 4) (hz : z ≤ 2 ^ 22)
    (hedge : edge ≤ z) (h0 : 0 ≤ edge) {line : BannerLine} (hl : line ∈ oneLine text size cx top) :
    line.text = text ∧ line.StandsBelow edge := by
  have hpos := Text.glyphScale_pos size
  have hbase : toInt32 (round (firstBaseline size top)) = z + k * 15 :=
    (isWhole_firstBaseline ht hk (by omega) (by omega)).toInt32_round (by omega)
  obtain rfl := mem_oneLine hl
  refine ⟨rfl, ⟨hk.trans_le hk', ?_, ?_, h0⟩⟩
  · simp only [BannerLine.baseline, hbase, hk]
    omega
  · simp only [BannerLine.baseline, hbase]
    omega

theorem standsBelow_small {alert : Alert} (hs : alert.size = .small) {rect : Rect}
    (hy : 0 ≤ rect.y ∧ rect.y ≤ 2 ^ 20) (hh : rect.h = 271) {line : BannerLine}
    (hl : line ∈ bannerLines alert rect) : line.text = alert.title ∧ line.StandsBelow rect.y := by
  have hc : rect.centerY = rect.y + 135 := by
    rw [Rect.centerY, hh]
    rfl
  have hscale : Text.glyphScale 74 = 4 := rfl
  have hup : Text.lineHeight 74 / 2 = ofInt 40 := by
    rw [Text.lineHeight, hscale]
    rfl
  have htop := (isWhole_ofInt (z := rect.centerY) (by omega)).sub
    (isWhole_ofInt (z := 40) (by norm_num)) (by omega)
  rw [← hup] at htop
  unfold bannerLines at hl
  rw [hs] at hl
  exact standsBelow_oneLine htop hscale (by norm_num) (by omega) (by omega) hy.1 hl

theorem standsBelow_mid {alert : Alert} (hs : alert.size = .mid) {rect : Rect}
    (hy : 0 ≤ rect.y ∧ rect.y ≤ 2 ^ 20) (hh : rect.h = 420) {line : BannerLine}
    (hl : line ∈ bannerLines alert rect) :
    (line.text = alert.title ∨ line.text = alert.subtitle) ∧ line.StandsBelow rect.y := by
  have hc : rect.centerY = rect.y + 210 := by
    rw [Rect.centerY, hh]
    rfl
  have hcenter := isWhole_ofInt (z := rect.centerY) (by omega)
  unfold bannerLines at hl
  rw [hs] at hl
  rcases List.mem_append.mp hl with hl | hl
  · have htop := hcenter.sub (isWhole_ofNat (n := 125) (by norm_num)) (by omega)
    obtain ⟨htext, hbelow⟩ := standsBelow_oneLine (k := 4) htop rfl (by norm_num) (by omega)
      (by omega) hy.1 hl
    exact ⟨.inl htext, hbelow⟩
  · have htop := hcenter.add (isWhole_ofNat (n := 21) (by norm_num)) (by omega)
    obtain ⟨htext, hbelow⟩ := standsBelow_oneLine (k := 3) htop rfl (by norm_num) (by omega)
      (by omega) hy.1 hl
    exact ⟨.inr htext, hbelow⟩

theorem standsBelow_of_edge_pos {width height : ℕ} (hh : height ≤ 2 ^ 20) {alert : Alert}
    (hpos : 0 < height - alert.size.bannerRows height) {line : BannerLine}
    (hl : line ∈ bannerLines alert (alert.size.bannerRect width height)) :
    (line.text = alert.title ∨ line.text = alert.subtitle) ∧
      line.StandsBelow ((height - alert.size.bannerRows height : ℕ) : ℤ) := by
  have hrows := alert.size.bannerRows_le height
  rw [Nat.cast_sub hrows]
  cases hs : alert.size with
  | none =>
      unfold bannerLines at hl
      rw [hs] at hl
      cases hl
  | small =>
      rw [hs, AlertSize.bannerRows] at hpos
      have hle : min 271 height = 271 := by omega
      rw [hs, AlertSize.bannerRect, AlertSize.bannerRows, hle] at hl
      rw [AlertSize.bannerRows, hle]
      obtain ⟨htext, hbelow⟩ := standsBelow_small hs ⟨by dsimp only; omega, by dsimp only; omega⟩
        rfl hl
      exact ⟨.inl htext, hbelow⟩
  | mid =>
      rw [hs, AlertSize.bannerRows] at hpos
      have hle : min 420 height = 420 := by omega
      rw [hs, AlertSize.bannerRect, AlertSize.bannerRows, hle] at hl
      rw [AlertSize.bannerRows, hle]
      exact standsBelow_mid hs ⟨by dsimp only; omega, by dsimp only; omega⟩ rfl hl
  | full =>
      rw [hs, AlertSize.bannerRows, Nat.sub_self] at hpos
      exact absurd hpos (Nat.lt_irrefl 0)

/-- No letter of a text that keeps its rows lights a pixel above the edge of its banner. -/
theorem edge_le_of_lights {width height : ℕ} (hh : height ≤ 2 ^ 20) {alert : Alert}
    {line : BannerLine} (hl : line ∈ bannerLines alert (alert.size.bannerRect width height))
    (hrows : line.KeepsRows) {x y : ℕ} (h : line.Lights x y) :
    height - alert.size.bannerRows height ≤ y := by
  rcases Nat.eq_zero_or_pos (height - alert.size.bannerRows height) with h0 | hpos
  · rw [h0]
    exact Nat.zero_le y
  · exact_mod_cast (standsBelow_of_edge_pos hh hpos hl).2.edge_le_of_lights hrows h

/-- All lines of the banner of an alert keep their rows. -/
def KeepsRows (width height : ℕ) (alert : Alert) : Prop :=
  ∀ line ∈ bannerLines alert (alert.size.bannerRect width height), line.KeepsRows

theorem keepsRows_of_short {width height : ℕ} (hh : height ≤ 2 ^ 20) {alert : Alert}
    (htitle : alert.title.length < 10 ^ 7) (hsubtitle : alert.subtitle.length < 10 ^ 7)
    (hpos : 0 < height - alert.size.bannerRows height) : KeepsRows width height alert := by
  intro line hl
  obtain ⟨htext, hbelow⟩ := standsBelow_of_edge_pos hh hpos hl
  refine hbelow.keepsRows ?_
  rcases htext with htext | htext
  · exact htext ▸ htitle
  · exact htext ▸ hsubtitle

/-! ### Whole frames -/

theorem render_eq_banner {σ : Type} [Surface σ] (r : OverlayRenderer) (f : OverlayFrame) (s : σ) :
    (render r f s).2 =
      (banner r.layout f.update.alert f.update.tint (render r f.withoutAlert s).2).2 := by
  have hbelow : (render r f.withoutAlert s).2 = (countingRefusals (elements r f) s).2 := by
    rw [snd_render, banner_eq_none rfl]
    rfl
  rw [snd_render, hbelow]

/-- What the banner of an alert does to a canvas of the size of the layout. -/
structure Confined (width height : ℕ) (alert : Alert) (tint : Color) (c c' : Canvas) : Prop where
  width_eq : c'.width = width
  height_eq : c'.height = height
  /-- Without a banner nothing changes. -/
  eq_of_none : alert.size = .none → c' = c
  /-- Above the edge nothing changes, as long as the texts keep their rows. -/
  above : KeepsRows width height alert →
    ∀ x y, y < height - alert.size.bannerRows height → c'.get? x y = c.get? x y
  /-- From the edge down every pixel is painted over. -/
  under : ∀ y, height - alert.size.bannerRows height ≤ y →
    ∃ darkness : UInt8, 13 ≤ darkness.toNat ∧ darkness.toNat ≤ 89 ∧
      ∀ x, c'.get? x y = (c.get? x y).map fun below =>
        if ∃ line ∈ bannerLines alert (alert.size.bannerRect width height), line.Lights x y then
          Palette.white 255
        else tint.over ((Palette.black darkness).over below)

theorem fst_banner {width height : ℕ} (hw : 0 < width ∧ width < 2 ^ 31)
    (hh : 0 < height ∧ height < 2 ^ 31) (alert : Alert) (tint : Color) (c : Canvas) :
    (banner (.ofSize width height) alert tint c).1 =
      .ok (width * alert.size.bannerRows height : ℕ) := by
  by_cases hs : alert.size = .none
  · rw [banner_eq_none (by rw [hs]; rfl), hs]
    rfl
  · rw [banner_eq (Layout.banner?_ofSize hw.2 hh.2 hs), AlertSize.area_bannerRect hw.1 hh.1 hs]

theorem confined_banner {width height : ℕ} (hw : width ≤ 2 ^ 20) (hh : height ≤ 2 ^ 20)
    (alert : Alert) (tint : Color) {c : Canvas} (hcw : c.width = width) (hch : c.height = height) :
    Confined width height alert tint c (banner (.ofSize width height) alert tint c).2 := by
  by_cases hs : alert.size = .none
  · rw [banner_eq_none (by rw [hs]; rfl)]
    refine ⟨hcw, hch, fun _ => rfl, fun _ _ _ _ => rfl, fun y hy => ⟨13, le_rfl, by decide, ?_⟩⟩
    intro x
    rw [hs, AlertSize.bannerRows, Nat.sub_zero] at hy
    have hout : ¬(x < c.width ∧ y < c.height) := by omega
    change c.get? x y = _
    rw [get?_eq_none hout, Option.map_none]
  · have hb : (Layout.ofSize width height).banner? alert.size = _ :=
      Layout.banner?_ofSize (by omega) (by omega) hs
    have hp := paints_banner hb tint
    refine ⟨(hp.width_eq c).trans hcw, (hp.height_eq c).trans hch, fun h => absurd h hs,
      fun hrows x y hy => ?_, fun y hy => ?_⟩
    · have hdark : ¬∃ line ∈ bannerLines alert (alert.size.bannerRect width height),
          line.Lights x y := by
        rintro ⟨line, hl, h⟩
        exact absurd (edge_le_of_lights hh hl (hrows line hl) h) (Nat.not_le.mpr hy)
      rw [hp.get?_eq]
      refine (map_get?_congr fun hx hy' => funext fun below => ?_).trans Option.map_id'
      have hin := alert.size.has_bannerRect_iff (hcw ▸ hx) (hch ▸ hy')
      rw [if_neg hdark, if_neg (mt hin.mp (Nat.not_le.mpr hy))]
    · obtain ⟨darkness, hd, hlo, hhi⟩ :=
        bannerShade_eq (alert.size.bannerRect width height) (Scanline.middle y)
      refine ⟨darkness, hlo, hhi, fun x => ?_⟩
      rw [hp.get?_eq]
      refine map_get?_congr fun hx hy' => funext fun below => ?_
      have hin := alert.size.has_bannerRect_iff (hcw ▸ hx) (hch ▸ hy')
      rw [if_pos (hin.mpr hy), hd]

/-- A letter under 53687081 empty lines. -/
def manyLines : String :=
  String.ofList (List.replicate 53687081 '\n' ++ ['T'])

/-- In a size of four pixels to the cell, its rows are `2 ^ 32` pixels further down less 816, and so
816 pixels further up. -/
theorem lights_manyLines :
    let anchor : Point := ⟨ofInt 10, firstBaseline 74 (ofInt 944 - Text.lineHeight 74 / 2)⟩
    BannerLine.Lights ⟨manyLines, anchor, 74⟩ 10 148 := by
  intro anchor
  unfold BannerLine.Lights Text.blocks manyLines
  dsimp only
  rw [Text.cells_replicate]
  decide +kernel

end Overlay

end DriveOverlay
