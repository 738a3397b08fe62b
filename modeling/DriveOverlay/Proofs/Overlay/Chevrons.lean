import DriveOverlay.Overlay.Road
import DriveOverlay.Proofs.Camera.Anchors
import DriveOverlay.Proofs.Hud.Leads
import DriveOverlay.Proofs.Surface.Triangles

/-! # Chevrons and their glow

The chevron and the glow of a marker have one axis, and the slopes of their sides are nearly the
same, but the tip of the glow is higher by a fifth of the size.  For the sizes that markers have that
is more than the error of all crossings together, so that no pixel of the chevron is outside the
glow.

* `LeadMarker.IsUsual`, `LeadMarker.isUsual_sizeAt`: the sizes that markers have;
* `Stands`: where the tip of a marker may be; `stands_leadTip`: every tip with a place is there;
* `Stands.drawn_chevron`, `Stands.drawn_glow`: both shapes are drawn to measure;
* `Stands.glow_of_chevron`: the chevron is inside the glow. -/

namespace DriveOverlay

open Single Scanline

/-! ### Sizes -/

namespace LeadMarker

/-- The sizes that markers have. -/
structure IsUsual (size : Float32) : Prop where
  isFinite : size.isFinite = true
  mem : 35 ≤ value size ∧ value size ≤ 71

theorem isUsual_sizeAt (d : Float32) : IsUsual (sizeAt d) := by
  obtain ⟨hf, hi⟩ := index_sizeAt d
  have hstep : value 2.35 = 9856614 / 2 ^ 22 := by
    rw [value_of_mantissa (m := 9856614) (s := 127) rfl (by norm_num) (by norm_num)]
    norm_num
  obtain ⟨-, hlo, hhi⟩ := clamp_between (index_apparent d).1 isWhole_fifteen.isFinite
    isWhole_thirty.isFinite value_fifteen_le_thirty
  rw [isWhole_fifteen.value_eq] at hlo
  rw [isWhole_thirty.value_eq] at hhi
  change _ ≤ value (steps d) at hlo
  change value (steps d) ≤ _ at hhi
  push_cast at hlo hhi
  rw [hstep] at hi
  refine ⟨hf, ?_, ?_⟩
  · exact_mod_cast le_rounded hi (onGrid_natCast (n := 35) (by norm_num)) (by push_cast; linarith)
  · exact_mod_cast rounded_le hi (onGrid_natCast (n := 71) (by norm_num)) (by push_cast; linarith)

namespace IsUsual

variable {size : Float32}

theorem near_mul (h : IsUsual size) {c : Float32} {q : ℚ} (hc : Near c q (1 / 2 ^ 20))
    (hq : |q| ≤ 2) : Near (size * c) (value size * q) (1 / 2 ^ 9) := by
  obtain ⟨hlo, hhi⟩ := h.mem
  have hproduct := (Near.self h.isFinite).mul hc (m := 71) (abs_le.mpr ⟨by linarith, hhi⟩) hq
    (by norm_num [roundingRange])
  exact hproduct.mono (by norm_num [roundingError])

theorem near_div (h : IsUsual size) {c : Float32} {z : ℤ} (hc : IsWhole z c) (hz : 1 ≤ z) :
    Near (size / c) (value size / z) (1 / 2 ^ 9) := by
  obtain ⟨hlo, hhi⟩ := h.mem
  have habs : |value size| ≤ 71 := abs_le.mpr ⟨by linarith, hhi⟩
  have hquotient := (Near.self h.isFinite).div_whole hc hz (by norm_num [roundingRange]; linarith)
  exact hquotient.mono (by norm_num [roundingError])

theorem near_chevronSide (h : IsUsual size) :
    Near (size * 1.25) (value size * (5 / 4)) (1 / 2 ^ 9) := by
  refine h.near_mul ⟨by decide, ?_⟩ (by norm_num [abs_le])
  rw [value_of_mantissa (m := 10485760) (s := 126) rfl (by norm_num) (by norm_num)]
  norm_num

end IsUsual

end LeadMarker

namespace Overlay

/-! ### Shapes -/

theorem abs_add_le_range {q e : ℚ} (hq : -2 ^ 13 ≤ q) (hq' : q ≤ 2 ^ 13) (he : e ≤ 1) :
    |q| + e ≤ roundingRange := by
  have hle := abs_le.mpr ⟨hq, hq'⟩
  norm_num [roundingRange] at hle ⊢
  linarith

/-- A chevron, as a triangle that stands on a row. -/
def chevron (x y size : Float32) : Arrow :=
  ⟨x - size * 1.25, x, x + size * 1.25, y, y + size⟩

/-- A glow, as a triangle that stands on a row. -/
def glow (x y size : Float32) : Arrow :=
  ⟨x - size * 1.35 - size / 5, x, x + size * 1.35 + size / 5, y - size / 5, y + size + size / 10⟩

theorem polygon_chevron (x y size : Float32) :
    (chevron x y size).polygon = chevronShape x y size :=
  rfl

theorem polygon_glow (x y size : Float32) : (glow x y size).polygon = glowShape x y size :=
  rfl

/-- The tip of a marker of a usual size is on a surface of a usual size, or not far above it. -/
structure Stands (tip : Point) (size : Float32) : Prop where
  x_isFinite : tip.x.isFinite = true
  x_mem : 0 ≤ value tip.x ∧ value tip.x ≤ 2 ^ 12
  y_isFinite : tip.y.isFinite = true
  y_mem : -64 ≤ value tip.y ∧ value tip.y ≤ 2 ^ 12
  isUsual : LeadMarker.IsUsual size

namespace Stands

variable {tip : Point} {size : Float32}

/-- The chevron is as high as its size, and wider by a quarter to each side. -/
theorem drawn_chevron (h : Stands tip size) : (chevron tip.x tip.y size).Drawn (value tip.x)
    (value tip.y) (value size * (5 / 4)) (value size) := by
  obtain ⟨hx, hx'⟩ := h.x_mem
  obtain ⟨hy, hy'⟩ := h.y_mem
  obtain ⟨hs, hs'⟩ := h.isUsual.mem
  have htip := Near.self h.x_isFinite
  have htop := Near.self h.y_isFinite
  have hside := h.isUsual.near_chevronSide
  have hleft := htip.sub hside (abs_add_le_range (by linarith) (by linarith) (by norm_num))
  have hright := htip.add hside (abs_add_le_range (by linarith) (by linarith) (by norm_num))
  have hbottom := htop.add (Near.self h.isUsual.isFinite)
    (abs_add_le_range (by linarith) (by linarith) (by norm_num))
  exact {
    left := hleft.mono (by norm_num [Arrow.drift, roundingError])
    tip := htip.mono (by norm_num [Arrow.drift])
    right := hright.mono (by norm_num [Arrow.drift, roundingError])
    top := htop.mono (by norm_num [Arrow.drift])
    bottom := hbottom.mono (by norm_num [Arrow.drift, roundingError])
    x_mem := ⟨hx, hx'⟩
    side_mem := ⟨by linarith, by linarith⟩
    height_mem := ⟨hs, by linarith⟩ }

/-- The glow is higher at both ends, and wider. -/
theorem drawn_glow (h : Stands tip size) : (glow tip.x tip.y size).Drawn (value tip.x)
    (value tip.y - value size / 5) (value size * (31 / 20)) (value size * (13 / 10)) := by
  obtain ⟨hx, hx'⟩ := h.x_mem
  obtain ⟨hy, hy'⟩ := h.y_mem
  obtain ⟨hs, hs'⟩ := h.isUsual.mem
  have htip := Near.self h.x_isFinite
  have htop := Near.self h.y_isFinite
  have hc : Near 1.35 (27 / 20) (1 / 2 ^ 20) := by
    refine ⟨by decide, ?_⟩
    rw [value_of_mantissa (m := 11324621) (s := 126) rfl (by norm_num) (by norm_num)]
    norm_num [abs_le]
  have hside := h.isUsual.near_mul hc (by norm_num [abs_le])
  have hfifth := h.isUsual.near_div (z := 5) (isWhole_ofNat (n := 5) (by norm_num)) (by norm_num)
  have htenth := h.isUsual.near_div (z := 10) (isWhole_ofNat (n := 10) (by norm_num)) (by norm_num)
  push_cast at hfifth htenth
  have hleft := (htip.sub hside (abs_add_le_range (by linarith) (by linarith) (by norm_num))).sub
    hfifth (abs_add_le_range (by linarith) (by linarith) (by norm_num [roundingError]))
  have hright := (htip.add hside (abs_add_le_range (by linarith) (by linarith) (by norm_num))).add
    hfifth (abs_add_le_range (by linarith) (by linarith) (by norm_num [roundingError]))
  have hpeak := htop.sub hfifth (abs_add_le_range (by linarith) (by linarith) (by norm_num))
  have hbottom := (htop.add (Near.self h.isUsual.isFinite)
    (abs_add_le_range (by linarith) (by linarith) (by norm_num))).add htenth
    (abs_add_le_range (by linarith) (by linarith) (by norm_num [roundingError]))
  have eleft : value tip.x - value size * (27 / 20) - value size / 5 =
      value tip.x - value size * (31 / 20) := by ring
  have eright : value tip.x + value size * (27 / 20) + value size / 5 =
      value tip.x + value size * (31 / 20) := by ring
  have ebottom : value tip.y + value size + value size / 10 =
      value tip.y - value size / 5 + value size * (13 / 10) := by ring
  rw [eleft] at hleft
  rw [eright] at hright
  rw [ebottom] at hbottom
  exact {
    left := hleft.mono (by norm_num [Arrow.drift, roundingError])
    tip := htip.mono (by norm_num [Arrow.drift])
    right := hright.mono (by norm_num [Arrow.drift, roundingError])
    top := hpeak.mono (by norm_num [Arrow.drift, roundingError])
    bottom := hbottom.mono (by norm_num [Arrow.drift, roundingError])
    x_mem := ⟨hx, hx'⟩
    side_mem := ⟨by linarith, by linarith⟩
    height_mem := ⟨by linarith, by linarith⟩ }

theorem isBounded_chevron (h : Stands tip size) :
    ∀ p ∈ chevronShape tip.x tip.y size, p.IsBounded := by
  obtain ⟨hy, hy'⟩ := h.y_mem
  rw [← polygon_chevron]
  exact h.drawn_chevron.isBounded (abs_le.mpr ⟨by linarith, by linarith⟩)

theorem isBounded_glow (h : Stands tip size) : ∀ p ∈ glowShape tip.x tip.y size, p.IsBounded := by
  obtain ⟨hy, hy'⟩ := h.y_mem
  obtain ⟨hs, hs'⟩ := h.isUsual.mem
  rw [← polygon_glow]
  exact h.drawn_glow.isBounded (abs_le.mpr ⟨by linarith, by linarith⟩)

/-- The chevron has no pixel outside the glow. -/
theorem glow_of_chevron (h : Stands tip size) {i j : ℕ} (hi : i < 2 ^ 22) (hj : j < 2 ^ 22)
    (hodd : Odd (passed (chevronShape tip.x tip.y size) i j)) :
    Odd (passed (glowShape tip.x tip.y size) i j) := by
  obtain ⟨hs, hs'⟩ := h.isUsual.mem
  have hne : value size ≠ 0 := by linarith
  rw [← polygon_chevron] at hodd
  rw [← polygon_glow]
  refine h.drawn_chevron.odd_passed_of_inside h.drawn_glow (by linarith) (by linarith) ?_ hi hj hodd
  intro t hlo hhi
  have hsteep : value size * (5 / 4) / value size = 5 / 4 := by field_simp
  have hflat : value size * (31 / 20) / (value size * (13 / 10)) = 31 / 26 := by
    field_simp
    norm_num
  rw [hsteep, hflat, ← le_sub_iff_add_le, abs_le]
  constructor <;> linarith

theorem isFinite_letter (h : Stands tip size) :
    (tip.y + size * 1.25 / 2 + leadLabelSize / 2).isFinite = true := by
  obtain ⟨hy, hy'⟩ := h.y_mem
  obtain ⟨hs, hs'⟩ := h.isUsual.mem
  have hlabel : IsWhole 35 leadLabelSize := isWhole_ofNat (n := 35) (by norm_num)
  have hhalf := h.isUsual.near_chevronSide.div_whole isWhole_two (by norm_num)
    (abs_add_le_range (by linarith) (by linarith) (by norm_num))
  have hhalf' := (Near.self hlabel.isFinite).div_whole isWhole_two (by norm_num)
    (abs_add_le_range (by rw [hlabel.value_eq]; norm_num) (by rw [hlabel.value_eq]; norm_num)
      (by norm_num))
  rw [hlabel.value_eq] at hhalf'
  push_cast at hhalf hhalf'
  have hbox := (Near.self h.y_isFinite).add hhalf
    (abs_add_le_range (by linarith) (by linarith) (by norm_num [roundingError]))
  exact (hbox.add hhalf'
    (abs_add_le_range (by linarith) (by linarith) (by norm_num [roundingError]))).isFinite

end Stands

/-! ### Tips -/

theorem leadTip_x_mem {size : Float32} (hsize : LeadMarker.IsUsual size) {w : ℕ} (hw : w ≤ 2 ^ 12)
    {x : Float32} (hx : (clamp x 0 (upper (ofNat w - size / 2) 0)).isFinite = true) :
    0 ≤ value (clamp x 0 (upper (ofNat w - size / 2) 0)) ∧
      value (clamp x 0 (upper (ofNat w - size / 2) 0)) ≤ 2 ^ 12 := by
  obtain ⟨hs, hs'⟩ := hsize.mem
  have hw0 : (0 : ℚ) ≤ w := Nat.cast_nonneg w
  have hw' : (w : ℚ) ≤ 2 ^ 12 := by exact_mod_cast hw
  have hn : x.isNaN = false := isNaN_of_isNaN_clamp (isNaN_of_isFinite hx)
  have hwide := Near.self (isFinite_ofNat (n := w) (by omega))
  rw [value_ofNat (by omega)] at hwide
  have hhalf := hsize.near_div (z := 2) (isWhole_ofNat (n := 2) (by norm_num)) (by norm_num)
  push_cast at hhalf
  have hroom := hwide.sub hhalf (abs_add_le_range (by linarith) (by linarith) (by norm_num))
  have hle : value (ofNat w - size / 2) ≤ 2 ^ 12 :=
    hroom.bounds.2.trans (by norm_num [roundingError]; linarith)
  obtain ⟨hedge, hv⟩ := upper_spec hroom.isNaN (b := 0) rfl
  rw [value_zero] at hv
  have hedge0 : 0 ≤ value (upper (ofNat w - size / 2) 0) := hv ▸ le_max_right _ _
  have hedge' : value (upper (ofNat w - size / 2) 0) ≤ 2 ^ 12 := hv ▸ max_le hle (by norm_num)
  have hfinite : (upper (ofNat w - size / 2) 0).isFinite = true :=
    isFinite_of_abs_le hedge (abs_le.mpr ⟨by linarith, hedge'.trans (by norm_num)⟩)
  have hzero : (0 : Float32).isFinite = true := rfl
  obtain ⟨-, hlo, hhi⟩ := clamp_between hn hzero hfinite (value_zero.trans_le hedge0)
  rw [value_zero] at hlo
  exact ⟨hlo, hhi.trans hedge'⟩

theorem leadTip_y_mem {size : Float32} (hsize : LeadMarker.IsUsual size) {h : ℕ} (hh : h ≤ 2 ^ 12)
    {y side : Float32} (hside : side.isFinite = true ∧ 0 ≤ value side) :
    (lower (clamp y 0 side) (ofNat h - size * 0.6)).isFinite = true ∧
      -64 ≤ value (lower (clamp y 0 side) (ofNat h - size * 0.6)) ∧
      value (lower (clamp y 0 side) (ofNat h - size * 0.6)) ≤ 2 ^ 12 := by
  obtain ⟨hs, hs'⟩ := hsize.mem
  have hh0 : (0 : ℚ) ≤ h := Nat.cast_nonneg h
  have hh' : (h : ℚ) ≤ 2 ^ 12 := by exact_mod_cast hh
  have hhigh := Near.self (isFinite_ofNat (n := h) (by omega))
  rw [value_ofNat (by omega)] at hhigh
  have hc : Near 0.6 (3 / 5) (1 / 2 ^ 20) := by
    refine ⟨by decide, ?_⟩
    rw [value_of_mantissa (m := 10066330) (s := 125) rfl (by norm_num) (by norm_num)]
    norm_num [abs_le]
  have hroom := hhigh.sub (hsize.near_mul hc (by norm_num [abs_le]))
    (abs_add_le_range (by linarith) (by linarith) (by norm_num))
  obtain ⟨hlo, hhi⟩ := hroom.bounds
  unfold roundingError at hlo hhi
  cases hn : (clamp y 0 side).isNaN with
  | true =>
      rw [lower_of_isNaN hn hroom.isNaN]
      exact ⟨hroom.isFinite, by linarith, by linarith⟩
  | false =>
      have hzero : (0 : Float32).isFinite = true := rfl
      obtain ⟨-, h0, -⟩ := clamp_between (isNaN_of_isNaN_clamp hn) hzero hside.1
        (value_zero.trans_le hside.2)
      rw [value_zero] at h0
      obtain ⟨hn', hv⟩ := lower_spec hn hroom.isNaN
      have hmin : -64 ≤ value (lower (clamp y 0 side) (ofNat h - size * 0.6)) :=
        hv ▸ le_min (by linarith) (by linarith)
      have hmax : value (lower (clamp y 0 side) (ofNat h - size * 0.6)) ≤ 2 ^ 12 :=
        hv ▸ (min_le_right _ _).trans (by linarith)
      refine ⟨isFinite_of_abs_le hn' (abs_le.mpr ⟨by linarith, ?_⟩), hmin, hmax⟩
      exact hmax.trans (by norm_num)

/-- A tip that has a place is on the surface, or not far above it. -/
theorem stands_leadTip {camera : CameraSettings} {tw th : UInt32} {l : Lead} {anchor : Point}
    (ha : (CarTransform.ofSettings camera tw th).leadAnchor? l = some anchor) {size : Float32}
    (hsize : LeadMarker.IsUsual size) {w h : ℕ} (hw : w ≤ 2 ^ 12) (hh : h ≤ 2 ^ 12)
    (hx : (leadTip anchor size (ofNat w) (ofNat h)).x.isFinite = true) :
    Stands (leadTip anchor size (ofNat w) (ofNat h)) size := by
  obtain ⟨q, rfl⟩ := CarTransform.exists_clamp_of_leadAnchor? ha
  obtain ⟨hy, hy'⟩ := leadTip_y_mem hsize hh (y := q.y) (CarTransform.side_spec th)
  exact ⟨hx, leadTip_x_mem hsize hw hx, hy, hy', hsize⟩

end Overlay

end DriveOverlay
