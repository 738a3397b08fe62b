import DriveOverlay.Proofs.Single.Extremes
import DriveOverlay.Surface.Scanline
import Mathlib.Algebra.Group.Nat.Even

/-! # Where a polygon crosses a row

An edge crosses a line when exactly one of its ends is on the line or above it.

* `even_length_abscissas`: a closed polygon crosses every line an even number of times, because a
  property changes an even number of times around a cycle;
* `filterMap_crossing?`: the crossings that are computed are these;
* `isNaN_abscissa`: they are numbers, and the division in them is never by zero;
* `mem_rows_of_crosses`: a row that is crossed is among the rows of the polygon;
* `rows_between`: these lie between the heights of its vertices. -/

namespace DriveOverlay

/-- Both coordinates have a magnitude of at most `10 ^ 18`; NaN and infinities have not. -/
def Point.IsBounded (p : Point) : Prop :=
  p.x.abs ≤ 1e18 ∧ p.y.abs ≤ 1e18

instance (p : Point) : Decidable p.IsBounded :=
  inferInstanceAs (Decidable (_ ∧ _))

/-! ### Changes around a polygon -/

namespace Polygon

/-- From one end of a path to the other the changes of a property are even in number exactly when
the ends agree. -/
theorem even_countP_path (p : Point → Bool) (a z : Point) (rest : List Point) :
    Even (((a :: rest).zip (rest ++ [z])).countP fun e => p e.1 != p e.2) ↔ p a = p z := by
  induction rest generalizing a with
  | nil => by_cases h : p a = p z <;> simp [h]
  | cons b rest ih =>
      rw [List.cons_append, List.zip_cons_cons, List.countP_cons, Nat.even_add, ih]
      by_cases hab : p a = p b
      · simp [hab]
      · have hz : p b = p z ↔ ¬p a = p z := by
          cases ha : p a <;> cases hb : p b <;> cases p z <;> simp_all
        simp [hab, hz]

theorem even_countP_edges (p : Point → Bool) (polygon : Polygon) :
    Even (polygon.edges.countP fun e => p e.1 != p e.2) := by
  cases polygon with
  | nil => exact Even.zero
  | cons first rest => exact (even_countP_path p first first rest).mpr rfl

theorem mem_of_mem_edges {polygon : Polygon} {e : Point × Point} (h : e ∈ polygon.edges) :
    e.1 ∈ polygon ∧ e.2 ∈ polygon := by
  cases polygon with
  | nil => cases h
  | cons first rest =>
      obtain ⟨h₁, h₂⟩ := List.of_mem_zip h
      rw [List.mem_append, List.mem_singleton] at h₂
      exact ⟨h₁, List.mem_cons.mpr h₂.symm⟩

end Polygon

namespace Scanline

open Single

/-! ### Edges across a line -/

/-- Exactly one end of the edge is on the line or above it. -/
def crosses (y : Float32) (edge : Point × Point) : Bool :=
  decide (edge.1.y ≤ y) != decide (edge.2.y ≤ y)

/-- Where an edge meets a line. -/
def abscissa (y : Float32) (edge : Point × Point) : Float32 :=
  edge.1.x + (y - edge.1.y) * (edge.2.x - edge.1.x) / (edge.2.y - edge.1.y)

/-- Where the edges of a polygon cross a line. -/
def abscissas (polygon : Polygon) (y : Float32) : List Float32 :=
  (polygon.edges.filter (crosses y)).map (abscissa y)

theorem crossing?_eq {y : Float32} {e : Point × Point} (hy : y.isNaN = false)
    (ha : e.1.y.isNaN = false) (hb : e.2.y.isNaN = false) :
    crossing? y e = if crosses y e then some (abscissa y e) else none := by
  obtain ⟨a, b⟩ := e
  have la : (y < a.y) = ¬(a.y ≤ y) := by
    rw [Single.lt_iff_value hy ha, Single.le_iff_value ha hy, not_le]
  have lb : (y < b.y) = ¬(b.y ≤ y) := by
    rw [Single.lt_iff_value hy hb, Single.le_iff_value hb hy, not_le]
  unfold crossing? crosses abscissa
  simp only [la, lb]
  by_cases h₁ : a.y ≤ y <;> by_cases h₂ : b.y ≤ y <;> simp [h₁, h₂]

theorem filterMap_crossing? {y : Float32} {polygon : Polygon} (hy : y.isNaN = false)
    (hp : ∀ p ∈ polygon, p.y.isNaN = false) :
    polygon.edges.filterMap (crossing? y) = abscissas polygon y := by
  have h : ∀ e ∈ polygon.edges,
      crossing? y e = if crosses y e then some (abscissa y e) else none := fun e he =>
    crossing?_eq hy (hp _ (Polygon.mem_of_mem_edges he).1) (hp _ (Polygon.mem_of_mem_edges he).2)
  rw [List.filterMap_congr h, ← List.filterMap_filter, abscissas]
  exact congrFun List.filterMap_eq_map _

/-- Every line is crossed an even number of times. -/
theorem even_length_abscissas (polygon : Polygon) (y : Float32) :
    Even (abscissas polygon y).length := by
  rw [abscissas, List.length_map, ← List.countP_eq_length_filter]
  exact Polygon.even_countP_edges (fun p => decide (p.y ≤ y)) polygon

/-! ### The middle of a row -/

theorem index_middle {i : ℕ} (h : i < 2 ^ 22) : index (middle i) = nearest (i + 1 / 2) := by
  rw [← value_ofNat (n := i) (by omega), ← value_half]
  exact index_add (isFinite_ofNat (by omega)) rfl

theorem isFinite_middle {i : ℕ} (h : i < 2 ^ 22) : (middle i).isFinite = true :=
  isFinite_of_onGrid (isNaN_add (isFinite_ofNat (by omega)) rfl) (index_middle h)
    (onGrid_add_half (by omega))

theorem value_middle {i : ℕ} (h : i < 2 ^ 22) : value (middle i) = i + 1 / 2 :=
  value_eq_of_onGrid (index_middle h) (onGrid_add_half (by omega))

/-! ### Crossings are numbers -/

theorem index_limit : index 1e18 = (185 * 2 ^ 23 + 14551915 : ℕ) := rfl

/-- The bound is rounded down in single precision, but nothing is lost: no single lies between. -/
theorem abs_le_limit_iff {x : Float32} :
    x.abs ≤ 1e18 ↔ x.isFinite = true ∧ |value x| ≤ 10 ^ 18 := by
  constructor
  · intro h
    have hn := (le_iff.mp h).1
    have hlim : value 1e18 ≤ 10 ^ 18 := by
      rw [value, index_limit, grid_natCast, units_of_mantissa (by norm_num) (.inl (by norm_num))]
      norm_num
    rw [le_iff_value hn rfl, value_abs] at h
    have hb := h.trans hlim
    exact ⟨isFinite_of_abs_le ((isNaN_abs x).symm.trans hn) (hb.trans (by norm_num)), hb⟩
  · rintro ⟨hf, hb⟩
    refine le_iff.mpr ⟨(isNaN_abs x).trans (isNaN_of_isFinite hf), rfl, ?_⟩
    by_contra hlt
    have hnext : ((185 * 2 ^ 23 + 14551916 : ℕ) : ℤ) ≤ index x.abs := by
      rw [index_limit] at hlt
      omega
    have hle := grid_strictMono.monotone hnext
    rw [grid_natCast, units_of_mantissa (by norm_num) (.inl (by norm_num)), ← value, value_abs]
      at hle
    have := hle.trans hb
    norm_num at this

theorem isBounded_iff {p : Point} :
    p.IsBounded ↔ p.isFinite = true ∧ |value p.x| ≤ 10 ^ 18 ∧ |value p.y| ≤ 10 ^ 18 := by
  rw [Point.IsBounded, abs_le_limit_iff, abs_le_limit_iff, Point.isFinite, Bool.and_eq_true]
  exact ⟨fun h => ⟨⟨h.1.1, h.2.1⟩, h.1.2, h.2.2⟩, fun h => ⟨⟨h.1.1, h.2.1⟩, h.1.2, h.2.2⟩⟩

/-- Where an edge between bounded points crosses a line of the picture, it does so at a number, and
the division is not by zero. -/
theorem isNaN_abscissa {y : Float32} {e : Point × Point} (hy : y.isFinite = true)
    (hy' : |value y| ≤ 10 ^ 18) (ha : e.1.IsBounded) (hb : e.2.IsBounded)
    (hc : crosses y e = true) :
    (e.2.y - e.1.y == 0) = false ∧ (abscissa y e).isNaN = false := by
  obtain ⟨a, b⟩ := e
  obtain ⟨hax, hax'⟩ := abs_le_limit_iff.mp ha.1
  obtain ⟨hay, hay'⟩ := abs_le_limit_iff.mp ha.2
  obtain ⟨hbx, hbx'⟩ := abs_le_limit_iff.mp hb.1
  obtain ⟨hby, hby'⟩ := abs_le_limit_iff.mp hb.2
  have hne : index b.y ≠ index a.y := by
    intro h
    have : (a.y ≤ y) = (b.y ≤ y) := by
      rw [le_iff, le_iff, h, isNaN_of_isFinite hay, isNaN_of_isFinite hby]
    simp [crosses, this] at hc
  have h126 : (10 : ℚ) ^ 18 ≤ 2 ^ 126 := by norm_num
  have hS := isFinite_sub hy hay (hy'.trans h126) (hay'.trans h126)
  have hX := isFinite_sub hbx hax (hbx'.trans h126) (hax'.trans h126)
  have hD := isFinite_sub hby hay (hby'.trans h126) (hay'.trans h126)
  have hD0 := index_sub_ne_zero hby hay hne
  refine ⟨?_, isNaN_add hax (isNaN_div (isNaN_mul hS hX) hD hD0)⟩
  rw [Bool.eq_false_iff]
  intro h
  exact hD0 (beq_iff.mp h).2.2

/-! ### The rows of a polygon -/

theorem mem_rows {polygon : Polygon} (hp : ∀ p ∈ polygon, p.y.isNaN = false) {i : ℕ}
    (hi : i < 2 ^ 22) {p q : Point} (hpm : p ∈ polygon) (hqm : q ∈ polygon)
    (hle : p.y ≤ middle i) (hlt : ¬q.y ≤ middle i) :
    (rows polygon).1 ≤ i ∧ (i : ℤ) < (rows polygon).2 := by
  obtain ⟨hln, -, hl⟩ := foldl_pick_spec lower_le Point.y polygon infinity rfl hp
  obtain ⟨hun, -, hu⟩ := foldl_pick_spec upper_ge Point.y polygon (-infinity) rfl hp
  have hm := isNaN_of_isFinite (isFinite_middle hi)
  rw [le_iff_value (hp p hpm) hm, value_middle hi] at hle
  rw [le_iff_value (hp q hqm) hm, value_middle hi, not_le] at hlt
  have h₁ := (hl p hpm).trans hle
  have h₂ := hlt.trans_le (hu q hqm)
  unfold rows
  dsimp only
  rw [toInt32_eq (floor_spec hln).1 (floor_spec hln).2,
    toInt32_eq (ceil_spec hun).1 (ceil_spec hun).2]
  have hf : ⌊value (polygon.foldl (fun least p => lower least p.y) infinity)⌋ < (i : ℤ) + 1 := by
    rw [Int.floor_lt]
    push_cast
    linarith
  have hc : (i : ℤ) < ⌈value (polygon.foldl (fun most p => upper most p.y) (-infinity))⌉ := by
    rw [Int.lt_ceil]
    push_cast
    linarith
  omega

/-- A row that is crossed is not left out. -/
theorem mem_rows_of_crosses {polygon : Polygon} (hp : ∀ p ∈ polygon, p.y.isNaN = false) {i : ℕ}
    (hi : i < 2 ^ 22) {e : Point × Point} (he : e ∈ polygon.edges)
    (hc : crosses (middle i) e = true) : (rows polygon).1 ≤ i ∧ (i : ℤ) < (rows polygon).2 := by
  obtain ⟨ha, hb⟩ := Polygon.mem_of_mem_edges he
  by_cases h : e.1.y ≤ middle i
  · exact mem_rows hp hi ha hb h (fun h' => by simp [crosses, h, h'] at hc)
  · exact mem_rows hp hi hb ha (by_contra fun h' => by simp [crosses, h, h'] at hc) h

/-- The rows of a polygon lie between the heights of two of its vertices. -/
theorem rows_between {polygon : Polygon} (hp : ∀ p ∈ polygon, p.y.isNaN = false) {y : ℕ}
    (h₁ : (rows polygon).1 ≤ y) (h₂ : (y : ℤ) < (rows polygon).2) :
    (∃ p ∈ polygon, ⌊value p.y⌋ ≤ y) ∧ ∃ p ∈ polygon, (y : ℤ) < ⌈value p.y⌉ := by
  have hlast := (toInt32_mem (ceil (polygon.foldl (fun most p => upper most p.y) (-infinity)))).2
  unfold rows at h₁ h₂
  dsimp only at h₁ h₂
  constructor
  · rcases foldl_pick_mem lower_eq_or Point.y polygon infinity with h | ⟨p, hm, h⟩
    · have hinf : toInt32 (floor infinity) = 2 ^ 31 - 1 := by decide +kernel
      rw [h] at h₁
      omega
    · obtain ⟨hn, hv⟩ := floor_spec (hp p hm)
      rw [h, toInt32_eq hn hv] at h₁
      exact ⟨p, hm, by omega⟩
  · rcases foldl_pick_mem upper_eq_or Point.y polygon (-infinity) with h | ⟨p, hm, h⟩
    · have hinf : toInt32 (ceil (-infinity)) = -2 ^ 31 := by decide +kernel
      rw [h] at h₂
      omega
    · obtain ⟨hn, hv⟩ := ceil_spec (hp p hm)
      rw [h, toInt32_eq hn hv] at h₂
      exact ⟨p, hm, by omega⟩

end Scanline

end DriveOverlay
