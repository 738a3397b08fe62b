import DriveOverlay.Proofs.Surface.Shares

/-! # Steps of a gradient

How far a row is on the way from the first row of a gradient to the last one is a rounded quotient of
rounded differences.  In a gradient that goes upwards both differences change their sign, so that the
quotient grows along the way in either direction, and on the two rows it is exactly 0 and 1.  From
there on the order of shares decides.

* `RowOnward`: the order of rows along a gradient;
* `Spans.progress_mono`, `Spans.progress_first`, `Spans.progress_last`: the quotient along the way
  and at its ends;
* `gradient_law`: colors between the two, the colors at the ends and beyond, and their order. -/

namespace DriveOverlay.Paint

open Single Color

variable {y0 y1 y y' : Float32} {start stop : Color}

/-! ### Rows -/

/-- On the way from row `y0` to row `y1`, downwards or upwards, `y'` is not before `y`. -/
def RowOnward (y0 y1 y y' : Float32) : Prop :=
  (y0 < y1 ∧ y ≤ y') ∨ (y1 < y0 ∧ y' ≤ y)

instance : Decidable (RowOnward y0 y1 y y') :=
  inferInstanceAs (Decidable (_ ∨ _))

/-- Two rows that are far enough apart for steps between them. -/
structure Spans (y0 y1 : Float32) : Prop where
  first : Within 30 y0
  last : Within 30 y1
  least_le : 2 ^ (-23 : ℤ) ≤ |value (y1 - y0)|

theorem within_of_abs_le (h : y.abs ≤ 1e9) : Within 30 y :=
  .of_abs_le h (by decide)

theorem value_leastSpan : value leastSpan = 2 ^ (-23 : ℤ) := by
  rw [value_of_mantissa (m := 2 ^ 23) (s := 103) rfl (by norm_num) le_rfl]
  norm_num

theorem spans_of_not_lt (h0 : Within 30 y0) (h1 : Within 30 y1)
    (h : ¬(y1 - y0).abs < leastSpan) : Spans y0 y1 where
  first := h0
  last := h1
  least_le := by
    have hspan := (h1.sub h0 (by norm_num)).isFinite
    rw [lt_iff_value ((isNaN_abs _).trans (isNaN_of_isFinite hspan)) rfl, value_abs,
      value_leastSpan] at h
    exact not_lt.mp h

/-! ### Progress -/

/-- The share of the way from `y0` to `y1` at which a row is; it may be outside of `[0, 1]`. -/
def progress (y0 y1 y : Float32) : Float32 :=
  (y - y0) / (y1 - y0)

namespace Spans

theorem value_span_ne_zero (h : Spans y0 y1) : value (y1 - y0) ≠ 0 :=
  abs_pos.mp ((zpow_pos two_pos _).trans_le h.least_le)

theorem progress_spec (h : Spans y0 y1) (hy : Within 30 y) :
    (progress y0 y1 y).isFinite = true ∧
      index (progress y0 y1 y) = nearest (value (y - y0) / value (y1 - y0)) := by
  have hrest : Within 31 (y - y0) := hy.sub h.first (by norm_num)
  have hspan := (h.last.sub h.first (by norm_num)).isFinite
  exact ⟨(hrest.div hspan h.least_le (by norm_num) (by norm_num)).isFinite,
    index_div hrest.isFinite hspan (index_ne_zero h.value_span_ne_zero)⟩

theorem rest_mono (h : Spans y0 y1) (hy : Within 30 y) (hy' : Within 30 y')
    (hle : value y ≤ value y') : value (y - y0) ≤ value (y' - y0) :=
  grid_strictMono.monotone <| index_sub_le_sub hy.isFinite hy'.isFinite h.first.isFinite
    h.first.isFinite hle le_rfl

theorem rest_first (h : Spans y0 y1) : value (y0 - y0) = 0 := by
  rw [sub_self_eq_zero h.first.isFinite, value_zero]

/-- Along the way the share of it grows, downwards and upwards. -/
theorem progress_mono (h : Spans y0 y1) (hy : Within 30 y) (hy' : Within 30 y')
    (hon : RowOnward y0 y1 y y') : value (progress y0 y1 y) ≤ value (progress y0 y1 y') := by
  have hn {a : Float32} (ha : Within 30 a) := isNaN_of_isFinite ha.isFinite
  refine rounded_mono (h.progress_spec hy).2 (h.progress_spec hy').2 ?_
  rcases hon with ⟨hdown, hle⟩ | ⟨hup, hle⟩
  · rw [lt_iff_value (hn h.first) (hn h.last)] at hdown
    rw [le_iff_value (hn hy) (hn hy')] at hle
    have hspan : 0 ≤ value (y1 - y0) := h.rest_first.ge.trans (h.rest_mono h.first h.last hdown.le)
    exact div_le_div_of_nonneg_right (h.rest_mono hy hy' hle) hspan
  · -- the span is negative here, and dividing by it turns the order of the rows around
    rw [lt_iff_value (hn h.last) (hn h.first)] at hup
    rw [le_iff_value (hn hy') (hn hy)] at hle
    have hspan : value (y1 - y0) ≤ 0 := (h.rest_mono h.last h.first hup.le).trans h.rest_first.le
    exact div_le_div_of_nonpos_of_le hspan (h.rest_mono hy' hy hle)

/-- On the first row there is no progress. -/
theorem progress_first (h : Spans y0 y1) : value (progress y0 y1 y0) = 0 := by
  rw [value, (h.progress_spec h.first).2, h.rest_first, zero_div, nearest_zero, grid_zero]

/-- On the last row all of the way is done. -/
theorem progress_last (h : Spans y0 y1) : value (progress y0 y1 y1) = 1 := by
  have hone : OnGrid ((1 : ℕ) : ℚ) := onGrid_natCast (by norm_num)
  rw [Nat.cast_one] at hone
  rw [value, (h.progress_spec h.last).2, div_self h.value_span_ne_zero, hone.grid_nearest]

end Spans

/-! ### Colors -/

theorem colorAt_of_lt (h : (y1 - y0).abs < leastSpan) :
    (vertical y0 start y1 stop).colorAt y = stop := by
  unfold colorAt
  dsimp only
  rw [if_pos h]

theorem colorAt_eq (h : ¬(y1 - y0).abs < leastSpan) :
    (vertical y0 start y1 stop).colorAt y = start.mix stop (progress y0 y1 y) := by
  unfold colorAt
  dsimp only
  rw [if_neg h, progress]

/-- For every vertical gradient, downwards or upwards, between rows of magnitude at most 10⁹, in
every such row: no channel is outside of those of the two colors; if the rows are not too near to
each other, the gradient has its first color on the first row and before it, and its second color on
the last row and beyond; and from a row to one that is not before it each channel only moves from
the first color towards the second. -/
theorem gradient_law (y0 y1 : Float32) (start stop : Color) (h0 : y0.abs ≤ 1e9)
    (h1 : y1.abs ≤ 1e9) (y : Float32) (hy : y.abs ≤ 1e9) :
    Between start stop ((vertical y0 start y1 stop).colorAt y) ∧
    (leastSpan ≤ (y1 - y0).abs →
      (RowOnward y0 y1 y y0 → (vertical y0 start y1 stop).colorAt y = start) ∧
      (RowOnward y0 y1 y1 y → (vertical y0 start y1 stop).colorAt y = stop)) ∧
    ∀ y' : Float32, y'.abs ≤ 1e9 → RowOnward y0 y1 y y' →
      Onward start stop ((vertical y0 start y1 stop).colorAt y)
        ((vertical y0 start y1 stop).colorAt y') := by
  have h0 := within_of_abs_le h0
  have h1 := within_of_abs_le h1
  have hy := within_of_abs_le hy
  refine ⟨between_colorAt y0 start y1 stop y, ?_, ?_⟩
  · intro hle
    have hshort : ¬(y1 - y0).abs < leastSpan := fun hlt =>
      absurd (lt_iff.mp hlt).2.2 (le_iff.mp hle).2.2.not_gt
    have hspans := spans_of_not_lt h0 h1 hshort
    have hfinite := (hspans.progress_spec hy).1
    rw [colorAt_eq hshort]
    constructor
    · intro hbefore
      exact mix_of_nonpos hfinite
        ((hspans.progress_mono hy h0 hbefore).trans hspans.progress_first.le) _ _
    · intro hbeyond
      exact mix_of_one_le hfinite
        (hspans.progress_last.ge.trans (hspans.progress_mono h1 hy hbeyond)) _ _
  · intro y' hy' hon
    have hy' := within_of_abs_le hy'
    by_cases hshort : (y1 - y0).abs < leastSpan
    · rw [colorAt_of_lt hshort, colorAt_of_lt hshort]
      exact onward_self start stop stop
    · have hspans := spans_of_not_lt h0 h1 hshort
      rw [colorAt_eq hshort, colorAt_eq hshort]
      exact onward_mix (hspans.progress_spec hy).1 (hspans.progress_spec hy').1
        (hspans.progress_mono hy hy' hon) start stop

/-- From the bottom of a surface of 600 rows up to a quarter of its height. -/
theorem gradient_law_upward :
    (vertical 600 ⟨10, 200, 0, 150⟩ 150 ⟨210, 0, 0, 20⟩).colorAt 700 = ⟨10, 200, 0, 150⟩ ∧
      (vertical 600 ⟨10, 200, 0, 150⟩ 150 ⟨210, 0, 0, 20⟩).colorAt 100 = ⟨210, 0, 0, 20⟩ ∧
      Onward ⟨10, 200, 0, 150⟩ ⟨210, 0, 0, 20⟩
        ((vertical 600 ⟨10, 200, 0, 150⟩ 150 ⟨210, 0, 0, 20⟩).colorAt 400)
        ((vertical 600 ⟨10, 200, 0, 150⟩ 150 ⟨210, 0, 0, 20⟩).colorAt 300) := by
  have law (y : Float32) (hy : y.abs ≤ 1e9) :=
    gradient_law 600 150 ⟨10, 200, 0, 150⟩ ⟨210, 0, 0, 20⟩ (by decide) (by decide) y hy
  obtain ⟨-, hends, -⟩ := law 700 (by decide)
  obtain ⟨-, hends', -⟩ := law 100 (by decide)
  obtain ⟨-, -, honward⟩ := law 400 (by decide)
  have hspan : leastSpan ≤ ((150 : Float32) - 600).abs := by decide
  exact ⟨(hends hspan).1 (by decide), (hends' hspan).2 (by decide),
    honward 300 (by decide) (by decide)⟩

end DriveOverlay.Paint
