import DriveOverlay.Proofs.Surface.Extents
import DriveOverlay.Proofs.Surface.Gradients

/-! # Filled rectangles

A rectangle is filled row by row, each pixel once.

* `Paint.alpha_colorAt`, `fillRect_eq_fillRows`: a paint that would not show is no exception, though
  nothing is done for it;
* `Edges.holds_of_nonpos`: corners of no radius leave out no point;
* `fillRoundedRect_eq_fillRect`: so the pixel by pixel test for corners gives the same canvas;
* `rectangle_law`: both for any canvas. -/

namespace DriveOverlay

open Single Scanline

/-! ### Paints that would not show -/

/-- A paint that would not show has no alpha in any row. -/
theorem Paint.alpha_colorAt {paint : Paint} (h : paint.isInvisible = true) (y : Float32) :
    (paint.colorAt y).alpha = 0 := by
  cases paint with
  | solid color => exact of_decide_eq_true h
  | vertical y0 start y1 stop =>
      simp only [isInvisible, Bool.and_eq_true, decide_eq_true_eq] at h
      have hb := (between_colorAt y0 start y1 stop y).alpha.2
      rw [h.1, h.2] at hb
      exact UInt8.toNat_inj.mp (Nat.le_zero.mp hb)

/-! ### Corners of no radius -/

namespace Single

theorem index_add_zero {x : Float32} (hx : x.isFinite = true) : index (x + 0) = index x := by
  rw [index_add hx rfl, value_zero, add_zero]
  exact nearest_grid (natAbs_index_le x)

theorem index_sub_zero {x : Float32} (hx : x.isFinite = true) : index (x - 0) = index x := by
  rw [index_sub hx rfl, value_zero, sub_zero]
  exact nearest_grid (natAbs_index_le x)

theorem isWhole_sub_self {x : Float32} (hx : x.isFinite = true) : IsWhole 0 (x - x) := by
  refine isWhole_of_index (isNaN_sub (isNaN_of_isFinite hx) hx) ?_ (by norm_num)
  rw [index_sub hx hx, sub_self, Int.cast_zero]

theorem isWhole_zero : IsWhole 0 0 := isWhole_ofNat (n := 0) (by norm_num)

end Single

namespace Edges

variable {e : Edges} {radius x y a b : Float32}

theorem cornerRadius_of_nonpos (hw : ((e.right - e.left) / 2).isNaN = false)
    (hh : ((e.bottom - e.top) / 2).isNaN = false) (hr : radius ≤ 0) :
    e.cornerRadius radius = 0 := by
  obtain ⟨hn, -, -⟩ := le_iff.mp hr
  obtain ⟨hn₁, hv₁⟩ := lower_spec hn hw
  obtain ⟨hn₂, hv₂⟩ := lower_spec hn₁ hh
  have hle : value (lower (lower radius ((e.right - e.left) / 2)) ((e.bottom - e.top) / 2)) ≤ 0 := by
    rw [hv₂, hv₁, ← value_zero]
    exact (min_le_left _ _).trans ((min_le_left _ _).trans ((le_iff_value hn rfl).mp hr))
  unfold cornerRadius upper
  rw [if_neg]
  rw [Bool.or_eq_true, decide_eq_true_eq, lt_iff_value rfl hn₂, value_zero, not_or]
  exact ⟨not_lt.mpr hle, Bool.false_ne_true⟩

/-- A coordinate is between two edges: not before the first, and before the second. -/
structure Between (a b x : Float32) : Prop where
  first_isFinite : a.isFinite = true
  second_isFinite : b.isFinite = true
  isFinite : x.isFinite = true
  first_le : value a ≤ value x
  lt_second : value x < value b

theorem Between.not_lt (h : Between a b x) : ¬x < a := by
  rw [lt_iff_value (isNaN_of_isFinite h.isFinite) (isNaN_of_isFinite h.first_isFinite)]
  exact h.first_le.not_gt

theorem Between.not_le (h : Between a b x) : ¬b ≤ x := by
  rw [le_iff_value (isNaN_of_isFinite h.second_isFinite) (isNaN_of_isFinite h.isFinite)]
  exact h.lt_second.not_ge

theorem Between.isWhole_sub_clamp (h : Between a b x) :
    IsWhole 0 (x - clamp x (a + 0) (b - 0)) := by
  have hlo : ¬x < a + 0 := by
    intro hlt
    have hi := (lt_iff.mp hlt).2.2
    rw [index_add_zero h.first_isFinite] at hi
    exact absurd (grid_strictMono hi) h.first_le.not_gt
  have hhi : ¬b - 0 < x := by
    intro hlt
    have hi := (lt_iff.mp hlt).2.2
    rw [index_sub_zero h.second_isFinite] at hi
    exact absurd (grid_strictMono hi) h.lt_second.le.not_gt
  rw [clamp_of_between hlo hhi]
  exact isWhole_sub_self h.isFinite

theorem Between.add_zero_le (h : Between a b x) : a + 0 ≤ b - 0 := by
  refine le_iff.mpr ⟨isNaN_add h.first_isFinite rfl,
    isNaN_sub (isNaN_of_isFinite h.second_isFinite) rfl, ?_⟩
  rw [index_add_zero h.first_isFinite, index_sub_zero h.second_isFinite]
  exact (grid_strictMono.lt_iff_lt.mp (h.first_le.trans_lt h.lt_second)).le

/-- Corners of no radius leave out no point between the edges. -/
theorem holds_of_nonpos (hw : ((e.right - e.left) / 2).isNaN = false)
    (hh : ((e.bottom - e.top) / 2).isNaN = false) (hr : radius ≤ 0)
    (hx : Between e.left e.right x) (hy : Between e.top e.bottom y) :
    e.holds radius x y = true := by
  have hdx := hx.isWhole_sub_clamp
  have hdy := hy.isWhole_sub_clamp
  have hsum := (hdx.mul hdx (by norm_num)).add (hdy.mul hdy (by norm_num)) (by norm_num)
  have hzero : IsWhole 0 ((0 : Float32) * 0) := isWhole_zero.mul isWhole_zero (by norm_num)
  have hin : e.encloses x y = true := by
    simp only [encloses, Bool.not_eq_true', Bool.or_eq_false_iff, decide_eq_false_iff_not]
    exact ⟨⟨⟨hx.not_lt, hx.not_le⟩, hy.not_lt⟩, hy.not_le⟩
  have horder : e.cornersInOrder radius = true := by
    simp only [cornersInOrder, cornerRadius_of_nonpos hw hh hr, Bool.and_eq_true, decide_eq_true_eq]
    exact ⟨hx.add_zero_le, hy.add_zero_le⟩
  rw [holds, test?, hin, horder, cornerRadius_of_nonpos hw hh hr]
  refine decide_eq_true ?_
  rw [le_iff_value hsum.isNaN hzero.isNaN, hsum.value_eq, hzero.value_eq]
  norm_num

end Edges

/-! ### Pixel rectangles -/

namespace Rect

/-- All edges have a magnitude below `n`. -/
def EdgesBelow (r : Rect) (n : ℤ) : Prop :=
  (|r.x| < n ∧ |r.right| < n) ∧ |r.y| < n ∧ |r.bottom| < n

instance (r : Rect) (n : ℤ) : Decidable (r.EdgesBelow n) :=
  inferInstanceAs (Decidable (_ ∧ _))

theorem between_middle {a b : ℤ} {i : ℕ} (ha : |a| < 2 ^ 22) (hb : |b| < 2 ^ 22) (hai : a ≤ i)
    (hib : i < b) : Edges.Between (ofInt a) (ofInt b) (middle i) := by
  rw [abs_lt] at ha hb
  have hi : i < 2 ^ 22 := by omega
  have hwa : IsWhole a (ofInt a) := isWhole_ofInt (by omega)
  have hwb : IsWhole b (ofInt b) := isWhole_ofInt (by omega)
  have hai' : (a : ℚ) ≤ i := by exact_mod_cast hai
  have hib' : (i : ℚ) + 1 ≤ b := by exact_mod_cast hib
  refine ⟨hwa.isFinite, hwb.isFinite, isFinite_middle hi, ?_, ?_⟩
  · rw [hwa.value_eq, value_middle hi]
    linarith
  · rw [hwb.value_eq, value_middle hi]
    linarith

theorem isNaN_half_side {a b : ℤ} (ha : |a| < 2 ^ 22) (hb : |b| < 2 ^ 22) :
    ((ofInt b - ofInt a) / 2).isNaN = false := by
  rw [abs_lt] at ha hb
  have hside : IsWhole (b - a) (ofInt b - ofInt a) :=
    (isWhole_ofInt (by omega)).sub (isWhole_ofInt (by omega)) (by omega)
  exact isNaN_div hside.isNaN rfl index_two_pos.ne'

theorem Has.holds {r : Rect} {x y : ℕ} (h : r.Has x y) (hr : r.EdgesBelow (2 ^ 22))
    {radius : Float32} (h0 : radius ≤ 0) :
    (Edges.ofRect r).holds radius (middle x) (middle y) = true := by
  obtain ⟨⟨hl, hrt⟩, ht, hb⟩ := hr
  obtain ⟨⟨hx₁, hx₂⟩, hy₁, hy₂⟩ := h
  exact Edges.holds_of_nonpos (isNaN_half_side hl hrt) (isNaN_half_side ht hb) h0
    (between_middle hl hrt hx₁ hx₂) (between_middle ht hb hy₁ hy₂)

end Rect

/-! ### Canvases -/

namespace Canvas

/-- Puts a paint over a rectangle row by row, though there may be nothing to see. -/
def fillRows (c : Canvas) (rect : Rect) (paint : Paint) : Canvas :=
  c.forRows rect.y rect.bottom fun y c =>
    c.blendSpan y rect.x rect.right (paint.colorAt (middle y))

theorem paints_fillRows (rect : Rect) (paint : Paint) :
    Paints (fun c => c.fillRows rect paint)
      fun x y => (paint.colorAt (middle y)).overIf (rect.Has x y) :=
  paints_rect rect fun _ y => (paint.colorAt (middle y)).over

theorem Paints.eq_of_rule {g h : Canvas → Canvas} {rule rule' : ℕ → ℕ → Color → Color}
    (hg : Paints g rule) (hh : Paints h rule') (e : ∀ x y p, rule x y p = rule' x y p)
    (c : Canvas) : g c = h c := by
  have hg' := hg.congr_rule e
  refine ext_get? ?_ ?_ fun x y => ?_
  · rw [hg'.width_eq, hh.width_eq]
  · rw [hg'.height_eq, hh.height_eq]
  · rw [hg'.get?_eq, hh.get?_eq]

/-- Nothing is lost where nothing is done: for an empty rectangle, and for a paint that would not
show. -/
theorem fillRect_eq_fillRows (c : Canvas) (rect : Rect) (paint : Paint) :
    c.fillRect rect paint = c.fillRows rect paint := by
  refine (paints_fillRect rect paint).eq_of_rule (paints_fillRows rect paint) (fun x y p => ?_) c
  cases hv : paint.isInvisible with
  | true =>
      simp [Command.rule, Color.overIf, hv, over_of_invisible (Paint.alpha_colorAt hv (middle y))]
  | false => simp [Command.rule, Color.overIf, hv]

/-- A rectangle with corners of no radius is filled like one without. -/
theorem fillRoundedRect_eq_fillRect (c : Canvas) {rect : Rect} (hr : rect.EdgesBelow (2 ^ 22))
    {radius : Float32} (h0 : radius ≤ 0) (color : Color) :
    c.fillRoundedRect rect radius color = c.fillRect rect (.solid color) := by
  rw [fillRect_eq_fillRows]
  refine (paints_filledShape rect color _).eq_of_rule (paints_fillRows rect (.solid color))
    (fun x y p => ?_) c
  by_cases h : rect.Has x y
  · simp [Color.overIf, h, h.holds hr h0, Paint.colorAt]
  · simp [Color.overIf, h]

/-- **The law of rectangles.**  Filling a rectangle puts the paint of the row over each of its pixels
once and changes no other, also where nothing is done because nothing would show; in all rows of a
canvas that is not too high the paint is asked for the exact middle of the row.  Corners whose radius
is not positive change nothing of this. -/
theorem rectangle_law (c : Canvas) (rect : Rect) (paint : Paint) :
    let c' := c.fillRect rect paint
    c.draw (.fillRect rect paint) = (.ok (), c') ∧
      (c'.width = c.width ∧ c'.height = c.height) ∧
      (∀ x y, c'.get? x y = (c.get? x y).map fun below =>
        if (rect.x ≤ x ∧ x < rect.x + rect.w) ∧ rect.y ≤ y ∧ y < rect.y + rect.h then
          (paint.colorAt (middle y)).over below
        else below) ∧
      (∀ y < 2 ^ 22, (middle y).isFinite = true ∧ value (middle y) = y + 1 / 2) ∧
      c' = c.fillRows rect paint ∧
      ∀ (radius : Float32) (color : Color), rect.EdgesBelow (2 ^ 22) → radius ≤ 0 →
        c.draw (.fillRoundedRect rect radius color) = c.draw (.fillRect rect (.solid color)) := by
  intro c'
  have hc' : c' = c.fillRows rect paint := fillRect_eq_fillRows c rect paint
  have hp := paints_fillRows rect paint
  refine ⟨rfl, ?_, ?_, ?_, hc', ?_⟩
  · rw [hc']
    exact ⟨hp.width_eq c, hp.height_eq c⟩
  · intro x y
    rw [hc']
    exact hp.get?_eq c x y
  · intro y hy
    exact ⟨isFinite_middle hy, value_middle hy⟩
  · intro radius color hr h0
    show (_, c.fillRoundedRect rect radius color) = (_, c.fillRect rect (.solid color))
    rw [fillRoundedRect_eq_fillRect c hr h0 color]

/-- A veil over the first two columns of four, its rectangle standing out to the left. -/
theorem rectangle_law_overhanging :
    let rect : Rect := ⟨-1, 0, 3, 2⟩
    let veil := Palette.white 128
    let c := filled 4 2 (Palette.black 255)
    (rect.EdgesBelow (2 ^ 22) ∧ (-1 : Float32) ≤ 0) ∧
      c.draw (.fillRoundedRect rect (-1) veil) = c.draw (.fillRect rect (.solid veil)) ∧
      (c.fillRect rect (.solid veil)).get? 1 1 = some ⟨128, 128, 128, 255⟩ ∧
      (c.fillRect rect (.solid veil)).get? 2 1 = some (Palette.black 255) := by
  intro rect veil c
  have hpre : rect.EdgesBelow (2 ^ 22) ∧ (-1 : Float32) ≤ 0 := by decide +kernel
  obtain ⟨-, -, hpixel, -, -, hround⟩ := rectangle_law c rect (.solid veil)
  refine ⟨hpre, hround (-1) veil hpre.1 hpre.2, ?_, ?_⟩
  · rw [hpixel 1 1, get?_filled (by decide) (by decide), Option.map_some, if_pos (by decide)]
    decide
  · rw [hpixel 2 1, get?_filled (by decide) (by decide), Option.map_some, if_neg (by decide)]

end Canvas

end DriveOverlay
