import DriveOverlay.Proofs.Single.Accuracy
import DriveOverlay.Proofs.Surface.EvenOdd

/-! # Triangles that stand on a row

An arrow is a triangle with a tip and, below it, a side along a row.  A row between has two
crossings, whose places come out of rounded vertices by four rounded operations.  For arrows of the
size of a marker all of that adds up to less than a pixel, so that an arrow that lies inside another
one by two pixels has no pixel that the other one has not.

* `abscissas_polygon`: the crossings of an arrow;
* `near_abscissa`: the error of a crossing;
* `Drawn`: an arrow drawn to measure; `Drawn.near_crossings`: its crossings;
* `Drawn.odd_passed_of_inside`: arrows inside each other. -/

namespace DriveOverlay

open Single Scanline

/-- A triangle with a tip, and below it a side along a row. -/
structure Arrow where
  left : Float32
  tip : Float32
  right : Float32
  top : Float32
  bottom : Float32

namespace Arrow

/-! ### Crossings -/

/-- The vertices of an arrow, from the right. -/
def polygon (s : Arrow) : Polygon :=
  [⟨s.right, s.bottom⟩, ⟨s.tip, s.top⟩, ⟨s.left, s.bottom⟩]

def rightEdge (s : Arrow) : Point × Point :=
  (⟨s.right, s.bottom⟩, ⟨s.tip, s.top⟩)

def leftEdge (s : Arrow) : Point × Point :=
  (⟨s.tip, s.top⟩, ⟨s.left, s.bottom⟩)

/-- A row crosses the two edges at the tip, or none. -/
theorem abscissas_polygon (s : Arrow) (y : Float32) : abscissas s.polygon y =
    if crosses y s.rightEdge then [abscissa y s.rightEdge, abscissa y s.leftEdge] else [] := by
  have hedges : s.polygon.edges =
      [s.rightEdge, s.leftEdge, (⟨s.left, s.bottom⟩, ⟨s.right, s.bottom⟩)] := rfl
  have hbase : crosses y (⟨s.left, s.bottom⟩, ⟨s.right, s.bottom⟩) = false := bne_self_eq_false _
  have hleft : crosses y s.leftEdge = crosses y s.rightEdge := bne_comm
  rw [abscissas, hedges]
  cases h : crosses y s.rightEdge with
  | true => simp [h, hleft, hbase]
  | false => simp [h, hleft, hbase]

theorem ceil_le_ofNat_iff {a : Float32} (ha : a.isNaN = false) {x : ℕ} (hx : x < 2 ^ 22) :
    ceil (a - 0.5) ≤ ofNat x ↔ value (a - 0.5) ≤ x := by
  have hhalf : (0.5 : Float32).isFinite = true := by decide
  obtain ⟨hn, hv⟩ := ceil_spec (isNaN_sub ha hhalf)
  have hwhole := isWhole_ofNat (n := x) (by omega)
  rw [le_iff_value hn hwhole.isNaN, hv, hwhole.value_eq, Int.cast_le, Int.ceil_le, Int.cast_natCast]

theorem value_sub_half_mono {a b : Float32} (ha : a.isNaN = false) (hb : b.isNaN = false)
    (h : value a ≤ value b) : value (a - 0.5) ≤ value (b - 0.5) :=
  grid_strictMono.monotone (index_sub_mono ha hb (by decide) (grid_strictMono.le_iff_le.mp h))

theorem odd_passed_iff {s : Arrow} {x y : ℕ} (hx : x < 2 ^ 22)
    (hright : (abscissa (middle y) s.rightEdge).isNaN = false)
    (hleft : (abscissa (middle y) s.leftEdge).isNaN = false) :
    Odd (passed s.polygon x y) ↔ crosses (middle y) s.rightEdge = true ∧
      ¬(value (abscissa (middle y) s.rightEdge - 0.5) ≤ x ↔
        value (abscissa (middle y) s.leftEdge - 0.5) ≤ x) := by
  rw [passed, abscissas_polygon]
  cases hc : crosses (middle y) s.rightEdge with
  | false => simp
  | true =>
      simp only [if_true, List.countP_cons, List.countP_nil, decide_eq_true_eq,
        ceil_le_ofNat_iff hright hx, ceil_le_ofNat_iff hleft hx]
      split_ifs with hl hr hr <;> simp [hl, hr]

theorem odd_passed_of_between {s s' : Arrow} {x y : ℕ} (hx : x < 2 ^ 22)
    (hrow : crosses (middle y) s'.rightEdge = true)
    (hr : (abscissa (middle y) s.rightEdge).isNaN = false)
    (hl : (abscissa (middle y) s.leftEdge).isNaN = false)
    (hr' : (abscissa (middle y) s'.rightEdge).isNaN = false)
    (hl' : (abscissa (middle y) s'.leftEdge).isNaN = false)
    (hright : value (abscissa (middle y) s'.leftEdge) ≤ value (abscissa (middle y) s.rightEdge) ∧
      value (abscissa (middle y) s.rightEdge) ≤ value (abscissa (middle y) s'.rightEdge))
    (hleft : value (abscissa (middle y) s'.leftEdge) ≤ value (abscissa (middle y) s.leftEdge) ∧
      value (abscissa (middle y) s.leftEdge) ≤ value (abscissa (middle y) s'.rightEdge))
    (h : Odd (passed s.polygon x y)) : Odd (passed s'.polygon x y) := by
  obtain ⟨-, hone⟩ := (odd_passed_iff hx hr hl).mp h
  refine (odd_passed_iff hx hr' hl').mpr ⟨hrow, ?_⟩
  intro hiff
  apply hone
  constructor
  · intro hp
    have hp' := (value_sub_half_mono hl' hr hright.1).trans hp
    exact (value_sub_half_mono hl hr' hleft.2).trans (hiff.mpr hp')
  · intro hp
    have hp' := (value_sub_half_mono hl' hl hleft.1).trans hp
    exact (value_sub_half_mono hr hr' hright.2).trans (hiff.mpr hp')

/-! ### Errors -/

/-- How far a vertex may be from where it should be. -/
def drift : ℚ := 1 / 32

/-- In an edge as steep and as short as those of markers, the error of a crossing is less than
one. -/
theorem near_abscissa {y : Float32} {a b : Point} {ax ay bx by' : ℚ} (hy : y.isFinite = true)
    (hax : Near a.x ax drift) (hay : Near a.y ay drift) (hbx : Near b.x bx drift)
    (hby : Near b.y by' drift) (hrise : 35 ≤ |by' - ay| ∧ |by' - ay| ≤ 93)
    (hrun : |bx - ax| ≤ 112) (hrow : |value y - ay| ≤ |by' - ay| + 1) (hx : |ax| ≤ 2 ^ 13) :
    Near (abscissa y (a, b)) (ax + (value y - ay) * (bx - ax) / (by' - ay)) 1 := by
  obtain ⟨hlow, hhigh⟩ := hrise
  have hu := (Near.self hy).sub hay (by norm_num [drift, roundingRange]; linarith)
  have hv := hbx.sub hax (by norm_num [drift, roundingRange]; linarith)
  have hw := hby.sub hay (by norm_num [drift, roundingRange]; linarith)
  have hproduct := hu.mul hv (m := 94) (by linarith) hrun
    (by norm_num [drift, roundingRange, roundingError])
  have hslope : |(value y - ay) * (bx - ax) / (by' - ay)| ≤ 116 := by
    rw [abs_div, abs_mul, div_le_iff₀ (by linarith)]
    calc |value y - ay| * |bx - ax| ≤ (|by' - ay| + 1) * 112 :=
          mul_le_mul hrow hrun (abs_nonneg _) (by positivity)
      _ ≤ 116 * |by' - ay| := by linarith
  have hquotient := hproduct.div hw (n := 34) (m := 116)
    (by norm_num [drift, roundingError]; linarith) (by norm_num) hslope
    (by norm_num [drift, roundingRange, roundingError])
  have hsum := hax.add hquotient (by
    have h := abs_add_le ax ((value y - ay) * (bx - ax) / (by' - ay))
    norm_num [drift, roundingRange, roundingError]
    linarith)
  exact hsum.mono (by norm_num [drift, roundingError])

/-- The arrow is drawn to measure: its axis, the height of its tip, half its side and how far that is
below the tip. -/
structure Drawn (s : Arrow) (x peak side height : ℚ) : Prop where
  left : Near s.left (x - side) drift
  tip : Near s.tip x drift
  right : Near s.right (x + side) drift
  top : Near s.top peak drift
  bottom : Near s.bottom (peak + height) drift
  x_mem : 0 ≤ x ∧ x ≤ 2 ^ 12
  side_mem : 0 ≤ side ∧ side ≤ 112
  height_mem : 35 ≤ height ∧ height ≤ 93

namespace Drawn

variable {s s' : Arrow} {x peak peak' side side' height height' : ℚ} {y : Float32}

theorem crosses_iff (h : s.Drawn x peak side height) (hy : y.isNaN = false) :
    crosses y s.rightEdge = true ↔ value s.top ≤ value y ∧ value y < value s.bottom := by
  have hlt : value s.top < value s.bottom := by
    have htop := h.top.bounds.2
    have hbottom := h.bottom.bounds.1
    have hheight := h.height_mem.1
    unfold drift at htop hbottom
    linarith
  change (decide (s.bottom ≤ y) != decide (s.top ≤ y)) = true ↔ _
  rw [bne_iff_ne, ne_eq, decide_eq_decide, le_iff_value h.bottom.isNaN hy,
    le_iff_value h.top.isNaN hy]
  constructor
  · intro hne
    by_contra hout
    apply hne
    constructor
    · intro hb
      exact hlt.le.trans hb
    · intro ht
      by_contra hb
      exact hout ⟨ht, not_le.mp hb⟩
  · rintro ⟨ht, hb⟩ hiff
    exact absurd (hiff.mpr ht) hb.not_ge

/-- In a row of an arrow the edges are as far from the axis as the row is from the tip, in
proportion. -/
theorem near_crossings (h : s.Drawn x peak side height) (hy : y.isFinite = true)
    (hrow : crosses y s.rightEdge = true) :
    Near (abscissa y s.rightEdge) (x + side / height * (value y - peak)) 1 ∧
      Near (abscissa y s.leftEdge) (x - side / height * (value y - peak)) 1 := by
  obtain ⟨ht, hb⟩ := (h.crosses_iff (isNaN_of_isFinite hy)).mp hrow
  obtain ⟨hx, hx'⟩ := h.x_mem
  obtain ⟨hs, hs'⟩ := h.side_mem
  obtain ⟨hh, hh'⟩ := h.height_mem
  have htop := h.top.bounds.1.trans ht
  have hbottom := hb.trans_le h.bottom.bounds.2
  have hne : height ≠ 0 := by linarith
  have hrise : |peak - (peak + height)| = height := by
    rw [abs_sub_comm, add_sub_cancel_left, abs_of_nonneg (by linarith)]
  have hrise' : |peak + height - peak| = height := by
    rw [abs_sub_comm, hrise]
  unfold drift at htop hbottom
  constructor
  · have hnear := near_abscissa (a := ⟨s.right, s.bottom⟩) (b := ⟨s.tip, s.top⟩) hy h.right h.bottom
      h.tip h.top (by rw [hrise]; exact ⟨hh, hh'⟩)
      (by rw [abs_le]; constructor <;> linarith) (by rw [hrise, abs_le]; constructor <;> linarith)
      (by rw [abs_le]; constructor <;> linarith)
    have hline : x + side +
        (value y - (peak + height)) * (x - (x + side)) / (peak - (peak + height)) =
          x + side / height * (value y - peak) := by
      rw [sub_add_cancel_left, sub_add_cancel_left]
      field_simp
      ring
    rwa [hline] at hnear
  · have hnear := near_abscissa (a := ⟨s.tip, s.top⟩) (b := ⟨s.left, s.bottom⟩) hy h.tip h.top h.left
      h.bottom (by rw [hrise']; exact ⟨hh, hh'⟩)
      (by rw [abs_le]; constructor <;> linarith) (by rw [hrise', abs_le]; constructor <;> linarith)
      (by rw [abs_le]; constructor <;> linarith)
    have hline : x + (value y - peak) * (x - side - x) / (peak + height - peak) =
        x - side / height * (value y - peak) := by
      rw [add_sub_cancel_left]
      field_simp
      ring
    rwa [hline] at hnear

/-- An arrow that is wider by two pixels in each row of another one, and goes up and down by as much
more, has all pixels of the other one. -/
theorem odd_passed_of_inside (h : s.Drawn x peak side height) (h' : s'.Drawn x peak' side' height')
    (htop : peak' + 1 ≤ peak) (hbottom : peak + height + 1 ≤ peak' + height')
    (hwide : ∀ t, peak - 1 ≤ t → t ≤ peak + height + 1 →
      |side / height * (t - peak)| + 2 ≤ side' / height' * (t - peak'))
    {i j : ℕ} (hi : i < 2 ^ 22) (hj : j < 2 ^ 22) (hodd : Odd (passed s.polygon i j)) :
    Odd (passed s'.polygon i j) := by
  have hy := isFinite_middle hj
  have hrow : crosses (middle j) s.rightEdge = true := by
    cases hc : crosses (middle j) s.rightEdge with
    | true => rfl
    | false =>
        rw [passed, abscissas_polygon, hc] at hodd
        exact absurd hodd Nat.not_odd_zero
  obtain ⟨ht, hb⟩ := (h.crosses_iff (isNaN_of_isFinite hy)).mp hrow
  have htips := h.top.bounds
  have htips' := h'.top.bounds
  have hsides := h.bottom.bounds
  have hsides' := h'.bottom.bounds
  unfold drift at htips htips' hsides hsides'
  have hrow' : crosses (middle j) s'.rightEdge = true :=
    (h'.crosses_iff (isNaN_of_isFinite hy)).mpr ⟨by linarith, by linarith⟩
  obtain ⟨hr, hl⟩ := h.near_crossings hy hrow
  obtain ⟨hr', hl'⟩ := h'.near_crossings hy hrow'
  have hgap := hwide (value (middle j)) (by linarith) (by linarith)
  obtain ⟨hneg, hpos⟩ := abs_le.mp (le_sub_iff_add_le.mpr hgap)
  have hrb := hr.bounds
  have hlb := hl.bounds
  have hrb' := hr'.bounds
  have hlb' := hl'.bounds
  exact odd_passed_of_between hi hrow' hr.isNaN hl.isNaN hr'.isNaN hl'.isNaN
    ⟨by linarith, by linarith⟩ ⟨by linarith, by linarith⟩ hodd

theorem isBounded (h : s.Drawn x peak side height) (htop : |peak| ≤ 2 ^ 13) :
    ∀ p ∈ s.polygon, p.IsBounded := by
  obtain ⟨hx, hx'⟩ := h.x_mem
  obtain ⟨hs, hs'⟩ := h.side_mem
  obtain ⟨hh, hh'⟩ := h.height_mem
  obtain ⟨htop, htop'⟩ := abs_le.mp htop
  have hnear {a : Float32} {q : ℚ} (ha : Near a q drift) (hq : -2 ^ 14 ≤ q) (hq' : q ≤ 2 ^ 14) :
      a.abs ≤ 1e18 := by
    refine abs_le_limit_iff.mpr ⟨ha.isFinite, (ha.abs_value_le (abs_le.mpr ⟨hq, hq'⟩)).trans ?_⟩
    norm_num [drift]
  have hbottom := hnear h.bottom (by linarith) (by linarith)
  simp only [polygon, List.forall_mem_cons, List.not_mem_nil, IsEmpty.forall_iff, implies_true,
    and_true]
  exact ⟨⟨hnear h.right (by linarith) (by linarith), hbottom⟩,
    ⟨hnear h.tip (by linarith) (by linarith), hnear h.top (by linarith) (by linarith)⟩,
    hnear h.left (by linarith) (by linarith), hbottom⟩

end Drawn

end Arrow

end DriveOverlay
