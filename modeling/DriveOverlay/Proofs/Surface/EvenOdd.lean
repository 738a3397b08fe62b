import DriveOverlay.Proofs.Surface.Spans
import DriveOverlay.Surface.Raster

/-! # Filled polygons and the even-odd rule

A pixel of a canvas is inside a polygon when it has passed an odd number of crossings of its row.

* `cover_crossings`: the spans of a row have exactly the pixels inside, each once;
* `paints_fillPolygon`: what the spans say is what happens to the canvas;
* `draw_fillPolygon`: exactly the pixels inside change, each once. -/

namespace DriveOverlay

open Single Scanline

namespace Scanline

/-! ### Crossings of a row -/

variable {polygon : Polygon} {y : ℕ}

theorem isNaN_of_isBounded {p : Point} (h : p.IsBounded) : p.y.isNaN = false :=
  isNaN_of_isFinite (abs_le_limit_iff.mp h.2).1

theorem crossings_perm_abscissas (hp : ∀ p ∈ polygon, p.IsBounded) (hy : y < 2 ^ 22) :
    (crossings polygon.edges (middle y)).Perm (abscissas polygon (middle y)) := by
  rw [← filterMap_crossing? (isNaN_of_isFinite (isFinite_middle hy))
    fun p h => isNaN_of_isBounded (hp p h)]
  exact crossings_perm _ _

theorem edge_spec (hp : ∀ p ∈ polygon, p.IsBounded) (hy : y < 2 ^ 22) {e : Point × Point}
    (he : e ∈ polygon.edges) (hc : crosses (middle y) e = true) :
    (e.2.y - e.1.y == 0) = false ∧ (abscissa (middle y) e).isNaN = false := by
  obtain ⟨ha, hb⟩ := Polygon.mem_of_mem_edges he
  have hv : |value (middle y)| ≤ 10 ^ 18 := by
    have : (y : ℚ) < 2 ^ 22 := by exact_mod_cast hy
    rw [value_middle hy, abs_of_nonneg (by positivity)]
    linarith
  exact isNaN_abscissa (isFinite_middle hy) hv (hp _ ha) (hp _ hb) hc

theorem isNaN_of_mem_crossings (hp : ∀ p ∈ polygon, p.IsBounded) (hy : y < 2 ^ 22) {a : Float32}
    (ha : a ∈ crossings polygon.edges (middle y)) : a.isNaN = false := by
  rw [(crossings_perm_abscissas hp hy).mem_iff, abscissas, List.mem_map] at ha
  obtain ⟨e, he, rfl⟩ := ha
  obtain ⟨he, hc⟩ := List.mem_filter.mp he
  exact (edge_spec hp hy he hc).2

theorem crossings_pairwise_column (hp : ∀ p ∈ polygon, p.IsBounded) (hy : y < 2 ^ 22) :
    (crossings polygon.edges (middle y)).Pairwise fun a b => column a ≤ column b :=
  (crossings_pairwise polygon.edges (middle y)).imp_of_mem fun ha hb h =>
    column_le_of_rank_le (isNaN_of_mem_crossings hp hy ha) (isNaN_of_mem_crossings hp hy hb) h

theorem even_length_crossings (hp : ∀ p ∈ polygon, p.IsBounded) (hy : y < 2 ^ 22) :
    Even (crossings polygon.edges (middle y)).length := by
  rw [(crossings_perm_abscissas hp hy).length_eq]
  exact even_length_abscissas polygon (middle y)

/-- How many crossings of row `y` the pixel in column `x` is not left of. -/
def passed (polygon : Polygon) (x y : ℕ) : ℕ :=
  (abscissas polygon (middle y)).countP fun a => ceil (a - 0.5) ≤ ofNat x

/-- The spans of a row have the pixels that have passed an odd number of crossings, and have them
once. -/
theorem cover_crossings (hp : ∀ p ∈ polygon, p.IsBounded) (hy : y < 2 ^ 22) {x : ℕ}
    (hx : x < 2 ^ 22) :
    cover x (spans (crossings polygon.edges (middle y))) = passed polygon x y % 2 := by
  rw [cover_spans x _ (crossings_pairwise_column hp hy) (even_length_crossings hp hy), passed,
    ← (crossings_perm_abscissas hp hy).countP_eq]
  congr 1
  refine List.countP_congr fun a ha => ?_
  have hn := isNaN_sub (isNaN_of_mem_crossings hp hy ha) (show (0.5 : Float32).isFinite = true from rfl)
  rw [decide_eq_true_eq, decide_eq_true_eq]
  exact toInt32_ceil_le_iff hn (by omega)

end Scanline

namespace Canvas

/-! ### Pixels of a filled polygon -/

/-- Each row of the polygon gets its spans. -/
theorem paints_fillPolygon (polygon : Polygon) {paint : Paint} (hv : paint.isInvisible = false) :
    Paints (fun c => c.fillPolygon polygon paint) fun x y p =>
      if (rows polygon).1 ≤ y ∧ (y : ℤ) < (rows polygon).2 then
        (paint.colorAt (middle y)).over^[cover x (spans (crossings polygon.edges (middle y)))] p
      else p := by
  have e : (fun c : Canvas => c.fillPolygon polygon paint) = fun c =>
      c.forRows (rows polygon).1 (rows polygon).2 fun y c =>
        c.fillSpans y (paint.colorAt (middle y)) (spans (crossings polygon.edges (middle y))) := by
    funext c
    rw [fillPolygon, hv, if_neg Bool.false_ne_true]
  rw [e]
  refine Paints.forRows (fun row => ?_) _ _
  refine (paints_fillSpans row _ _).congr_rule fun x y p => ?_
  by_cases h : y = row
  · rw [if_pos h, if_pos h, h]
  · rw [if_neg h, if_neg h]

/-- In the rows of a canvas that is not too large, being inside is having passed an odd number of
crossings. -/
theorem iterate_cover {polygon : Polygon} {x y : ℕ} (hp : ∀ p ∈ polygon, p.IsBounded)
    (hx : x < 2 ^ 22) (hy : y < 2 ^ 22) (f : Color → Color) (p : Color) :
    f^[cover x (spans (crossings polygon.edges (middle y)))] p =
      if Odd (passed polygon x y) then f p else p := by
  rw [cover_crossings hp hy hx]
  by_cases h : Odd (passed polygon x y)
  · rw [if_pos h, Nat.odd_iff.mp h]
    rfl
  · rw [if_neg h, Nat.not_odd_iff.mp h]
    rfl

theorem passed_eq_zero {polygon : Polygon} {x y : ℕ} (hp : ∀ p ∈ polygon, p.IsBounded)
    (hy : y < 2 ^ 22) (h : ¬((rows polygon).1 ≤ y ∧ (y : ℤ) < (rows polygon).2)) :
    passed polygon x y = 0 := by
  have h0 : abscissas polygon (middle y) = [] := by
    rw [abscissas, List.map_eq_nil_iff, List.filter_eq_nil_iff]
    intro e he hc
    exact h (mem_rows_of_crosses (fun p hm => isNaN_of_isBounded (hp p hm)) hy he hc)
  rw [passed, h0, List.countP_nil]

theorem check_fillPolygon {polygon : Polygon} (paint : Paint) (hn : 3 ≤ polygon.length)
    (hp : ∀ p ∈ polygon, p.IsBounded) : (Command.fillPolygon polygon paint).check = .ok () := by
  have hf : polygon.all Point.isFinite = true := by
    rw [List.all_eq_true]
    intro p hm
    exact (isBounded_iff.mp (hp p hm)).1
  rw [Command.check, if_neg (by omega), hf]
  rfl

/-- What holds of a row in which a polygon is filled. -/
structure RowLaw (polygon : Polygon) (y : ℕ) : Prop where
  /-- The crossings are those of the edges. -/
  perm : (crossings polygon.edges (middle y)).Perm (abscissas polygon (middle y))
  /-- They come in pairs. -/
  even : Even (crossings polygon.edges (middle y)).length
  /-- No pixel is in two spans. -/
  cover_le : ∀ x < 2 ^ 22, cover x (spans (crossings polygon.edges (middle y))) ≤ 1
  /-- A row with a crossing is not left out. -/
  mem_rows : abscissas polygon (middle y) ≠ [] → (rows polygon).1 ≤ y ∧ (y : ℤ) < (rows polygon).2
  /-- No crossing divides by zero. -/
  divisor_ne : ∀ e ∈ polygon.edges, crosses (middle y) e = true → (e.2.y - e.1.y == 0) = false

/-- Filling a polygon changes exactly the pixels that have passed an odd number of crossings. -/
theorem draw_fillPolygon (c : Canvas) (polygon : Polygon) (paint : Paint)
    (hw : c.width < 2 ^ 22) (hh : c.height < 2 ^ 22) (hn : 3 ≤ polygon.length)
    (hp : ∀ p ∈ polygon, p.IsBounded) (hv : paint.isInvisible = false) :
    ∃ c', c.draw (.fillPolygon polygon paint) = (.ok (), c') ∧
      c'.width = c.width ∧ c'.height = c.height ∧
      (∀ x y, c'.get? x y = (c.get? x y).map fun below =>
        if Odd (passed polygon x y) then (paint.colorAt (middle y)).over below else below) ∧
      ∀ y < c.height, RowLaw polygon y := by
  have hd : c.draw (.fillPolygon polygon paint) = (.ok (), c.fillPolygon polygon paint) := by
    rw [draw, check_fillPolygon paint hn hp]
    rfl
  have hr := paints_fillPolygon polygon hv
  refine ⟨_, hd, hr.width_eq c, hr.height_eq c, fun x y => ?_, fun y hy => ?_⟩
  · refine (hr.get?_eq c x y).trans (map_get?_congr fun hx hy => funext fun p => ?_)
    by_cases h : (rows polygon).1 ≤ y ∧ (y : ℤ) < (rows polygon).2
    · rw [if_pos h, iterate_cover hp (by omega) (by omega)]
    · rw [if_neg h, passed_eq_zero hp (by omega) h, if_neg Nat.not_odd_zero]
  · have hy' : y < 2 ^ 22 := by omega
    refine ⟨crossings_perm_abscissas hp hy', even_length_crossings hp hy', fun x _ => ?_,
      fun h => ?_, fun e he hc => (edge_spec hp hy' he hc).1⟩
    · exact cover_le_one x (crossings_pairwise_column hp hy') (even_length_crossings hp hy')
    · obtain ⟨a, ha⟩ := List.exists_mem_of_ne_nil _ h
      obtain ⟨e, he, -⟩ := List.mem_map.mp ha
      obtain ⟨he, hc⟩ := List.mem_filter.mp he
      exact mem_rows_of_crosses (fun p hm => isNaN_of_isBounded (hp p hm)) hy' he hc

/-- A square around a smaller one, with a bridge between them that is gone over twice. -/
def ring : Polygon :=
  [⟨0, 0⟩, ⟨3, 0⟩, ⟨3, 3⟩, ⟨0, 3⟩, ⟨0, 0⟩, ⟨1, 1⟩, ⟨2, 1⟩, ⟨2, 2⟩, ⟨1, 2⟩, ⟨1, 1⟩]

/-- The inside of the smaller square is a hole. -/
theorem draw_fillPolygon_ring :
    ∃ c', (filled 3 3 (Palette.white 255)).draw
        (.fillPolygon ring (.solid (Palette.black 255))) = (.ok (), c') ∧
      c'.get? 0 1 = some (Palette.black 255) ∧ c'.get? 1 1 = some (Palette.white 255) := by
  obtain ⟨c', hd, -, -, hp, -⟩ := draw_fillPolygon (filled 3 3 (Palette.white 255)) ring
    (.solid (Palette.black 255)) (by decide) (by decide) (by decide) (by decide) (by decide)
  refine ⟨c', hd, ?_, ?_⟩
  · rw [hp]
    decide +kernel
  · rw [hp]
    decide +kernel

end Canvas

end DriveOverlay
