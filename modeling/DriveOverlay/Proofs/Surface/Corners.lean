import DriveOverlay.Proofs.Single.Extremes
import DriveOverlay.Proofs.Single.Order
import DriveOverlay.Proofs.Surface.Outcomes

/-! # Round corners that pass each other

The corners of a rectangle take at most half of its width and of its height.  The half is that of a
rounded difference, though, and when rounding made the difference larger, the middles of the corners
may pass each other, and the test of a point breaks down.

With whole edges every difference is exact, so that filling never breaks down.  The contours of an
outline are half a pen away from the edges and rounded themselves; they are exact for pens with few
binary places, whole ones and halves and quarters of moderate width among them.  Contours that are
whole numbers stay in order however far they are away, as long as the radius is moderate.

* `add_le_sub_of_le`: a radius of no more than the exact half leaves the middles in order;
* `Overfull`: the corners take more than the exact half;
* `overfull_of_mayBreakDown`: nothing else makes a test break down;
* `not_overfull_of_exact`: exact distances are never overfull;
* `not_mayBreakDown_of_whole`: whole contours of any size;
* `attempt_strokeRoundedRect_thinPen`: an outline that breaks down;
* `corners_law`: filling, outlines, and pens with few binary places. -/

namespace DriveOverlay

open Single

/-! ### Two edges -/

namespace Single

open Float.Model (Format UnpackedFloat)
open Float.Model.UnpackedFloat

/-- Two numbers that move inward by no more than half of their exact distance do not pass each
other. -/
theorem add_le_sub_of_le {a b r : Float32} (ha : a.isFinite = true) (hb : b.isFinite = true)
    (hr : r.isNaN = false) (h0 : 0 ≤ value r) (h : 2 * value r ≤ value b - value a) :
    a + r ≤ b - r := by
  have hfinite : r.isFinite = true := by
    have hzero : value 0 ≤ value r := value_zero.trans_le h0
    rcases le_total (-value a) (value b) with hle | hle
    · exact isFinite_of_between hr isFinite_zero hb hzero (by linarith)
    · have hle' : value r ≤ value (-a) := by
        rw [value_neg]
        linarith
      exact isFinite_of_between hr isFinite_zero ((isFinite_neg a).trans ha) hzero hle'
  refine le_iff.mpr ⟨isNaN_add ha hr, isNaN_sub (isNaN_of_isFinite hb) hfinite, ?_⟩
  rw [index_add ha hfinite, index_sub hb hfinite]
  exact nearest_mono (by linarith)

theorem add_opposite (a b : Float32) : a + -b = a - b := by
  have hb := isSingle_neg (isSingle_unpack b.toModel)
  have hu : (-b).toModel.unpack = b.toModel.unpack.neg :=
    (unpack_pack hb.canonical).trans hb.saturate_eq
  have hs : add Format.binary32 a.toModel.unpack (-b).toModel.unpack =
      sub Format.binary32 a.toModel.unpack b.toModel.unpack := by
    rw [hu, sub_eq_add_neg_unpacked]
  exact congrArg (fun x => Float32.ofModel (.pack x)) hs

theorem lower_le_second {a b : Float32} (hb : b.isNaN = false) :
    (lower a b).isNaN = false ∧ value (lower a b) ≤ value b := by
  cases ha : a.isNaN with
  | true =>
      rw [lower_of_isNaN ha hb]
      exact ⟨hb, le_rfl⟩
  | false => exact ⟨(lower_le ha hb).1, (lower_le ha hb).2.2⟩

theorem onGrid_dyadic {z : ℤ} {j : ℕ} (hz : z.natAbs ≤ 2 ^ 24) (hj : j ≤ 149) :
    OnGrid (z / 2 ^ j) := by
  have hnat {k : ℕ} (hk : k ≤ 2 ^ 24) : OnGrid (k / 2 ^ j) := by
    have hgrid := onGrid_of_mantissa hk (s := 149 - j) (by omega)
    have e : (k : ℚ) * 2 ^ (149 - j) / 2 ^ 149 = k / 2 ^ j := by
      rw [show (2 : ℚ) ^ 149 = 2 ^ (149 - j) * 2 ^ j by rw [← pow_add, Nat.sub_add_cancel hj]]
      field_simp
    rwa [e] at hgrid
  cases z with
  | ofNat k => exact hnat hz
  | negSucc k =>
      have hneg := (hnat (k := k + 1) hz).neg
      rwa [← neg_div, ← Int.cast_natCast, ← Int.cast_neg] at hneg

/-- What is rounded from a whole number is whole, also where not all whole numbers are singles. -/
theorem exists_int_of_nearest {x : Float32} {z : ℤ} (h : index x = nearest z) :
    ∃ w : ℤ, value x = w := by
  by_cases hz : z.natAbs ≤ 2 ^ 24
  · exact ⟨z, value_eq_of_onGrid h (onGrid_intCast hz)⟩
  · refine exists_int_of_large (le_abs.mpr ?_)
    rcases le_total 0 z with h0 | h0
    · have hlarge : ((2 ^ 24 : ℤ) : ℚ) ≤ z := by exact_mod_cast (by omega : 2 ^ 24 ≤ z)
      have hlow := le_rounded h (onGrid_intCast (z := 2 ^ 24) (by norm_num)) hlarge
      push_cast at hlow
      exact .inl (by linarith)
    · have hlarge : (z : ℚ) ≤ (-2 ^ 24 : ℤ) := by exact_mod_cast (by omega : z ≤ -2 ^ 24)
      have hhigh := rounded_le h (onGrid_intCast (z := -2 ^ 24) (by norm_num)) hlarge
      push_cast at hhigh
      exact .inr (by linarith)

theorem exists_isWhole_ofNat (n : ℕ) : ∃ z, IsWhole z (ofNat n) := by
  have hmod : ofNat n = ofNat (n % 2 ^ 64) :=
    congrArg UInt64.toFloat32 (UInt64.toNat_inj.mp (by simp))
  have hi : index (ofNat n) = nearest (n % 2 ^ 64 : ℕ) := by
    rw [hmod]
    exact index_ofNat (Nat.mod_lt _ (by norm_num))
  rw [← Int.cast_natCast] at hi
  obtain ⟨z, hz⟩ := exists_int_of_nearest hi
  exact ⟨z, (within_ofNat n).isFinite, hz⟩

theorem exists_isWhole_ofInt (z : ℤ) : ∃ w, IsWhole w (ofInt z) := by
  cases z with
  | ofNat n => exact exists_isWhole_ofNat n
  | negSucc n =>
      obtain ⟨w, hw⟩ := exists_isWhole_ofNat (n + 1)
      exact ⟨-w, hw.neg⟩

theorem IsWhole.exists_add {x y : Float32} {z w : ℤ} (hx : IsWhole z x) (hy : IsWhole w y)
    (h : (x + y).isFinite = true) : ∃ v, IsWhole v (x + y) := by
  have hi := index_add hx.isFinite hy.isFinite
  rw [hx.value_eq, hy.value_eq, ← Int.cast_add] at hi
  obtain ⟨v, hv⟩ := exists_int_of_nearest hi
  exact ⟨v, h, hv⟩

end Single

namespace Edges

variable {e : Edges} {radius x y : Float32}

/-- All edges are finite. -/
structure IsFinite (e : Edges) : Prop where
  left : e.left.isFinite = true
  top : e.top.isFinite = true
  right : e.right.isFinite = true
  bottom : e.bottom.isFinite = true

/-! ### The radius of the corners -/

/-- Half of the rounded distance of two edges. -/
def halfDistance (a b : Float32) : Float32 :=
  (b - a) / 2

theorem isNaN_halfDistance {a b : Float32} (ha : a.isFinite = true) (hb : b.isFinite = true) :
    (halfDistance a b).isNaN = false :=
  isNaN_div (isNaN_sub (isNaN_of_isFinite hb) ha) rfl (by decide)

theorem halfDistance_nonneg {a b : Float32} (ha : a.isFinite = true) (hb : b.isFinite = true)
    (h : value a ≤ value b) : 0 ≤ value (halfDistance a b) := by
  refine value_nonneg (index_div_nonneg (isNaN_sub (isNaN_of_isFinite hb) ha) rfl (by decide) ?_)
  exact rounded_nonneg (index_sub hb ha) (sub_nonneg.mpr h)

theorem cornerRadius_spec (he : e.IsFinite) (radius : Float32) :
    (e.cornerRadius radius).isNaN = false ∧ 0 ≤ value (e.cornerRadius radius) ∧
      value (e.cornerRadius radius) ≤ max (value (halfDistance e.left e.right)) 0 ∧
      value (e.cornerRadius radius) ≤ max (value (halfDistance e.top e.bottom)) 0 := by
  have hx := isNaN_halfDistance he.left he.right
  have hy := isNaN_halfDistance he.top he.bottom
  obtain ⟨hn, hlex⟩ := lower_le_second (a := radius) hx
  obtain ⟨hn', hle, hley⟩ := lower_le hn hy
  obtain ⟨hr, hvalue⟩ := upper_spec hn' (b := 0) rfl
  rw [value_zero] at hvalue
  refine ⟨hr, ?_, ?_, ?_⟩
  · exact (le_max_right _ _).trans hvalue.ge
  · exact hvalue.trans_le (max_le_max (hle.trans hlex) le_rfl)
  · exact hvalue.trans_le (max_le_max hley le_rfl)

/-- The corners take more than half of the exact width or height, though no more than half of the
rounded one. -/
def Overfull (e : Edges) (radius : Float32) : Prop :=
  let r := value (e.cornerRadius radius)
  (value e.right - value e.left < 2 * r ∧ r ≤ value (halfDistance e.left e.right)) ∨
    (value e.bottom - value e.top < 2 * r ∧ r ≤ value (halfDistance e.top e.bottom))

theorem isNaN_middle (i : ℕ) : (Scanline.middle i).isNaN = false :=
  isNaN_add_right (isNaN_ofNat i) rfl

theorem encloses_iff : e.encloses x y = true ↔
    (¬x < e.left ∧ ¬e.right ≤ x) ∧ ¬y < e.top ∧ ¬e.bottom ≤ y := by
  simp [encloses, and_assoc]

theorem value_le_of_between {a b x : Float32} (ha : a.isFinite = true) (hb : b.isFinite = true)
    (hx : x.isNaN = false) (h : ¬x < a ∧ ¬b ≤ x) : value a ≤ value b := by
  rw [lt_iff_value hx (isNaN_of_isFinite ha), le_iff_value (isNaN_of_isFinite hb) hx] at h
  linarith [h.1, h.2]

theorem cornersInOrder_of_fits (he : e.IsFinite)
    (hx : 2 * value (e.cornerRadius radius) ≤ value e.right - value e.left)
    (hy : 2 * value (e.cornerRadius radius) ≤ value e.bottom - value e.top) :
    e.cornersInOrder radius = true := by
  obtain ⟨hn, h0, -, -⟩ := cornerRadius_spec he radius
  simp only [cornersInOrder, Bool.and_eq_true, decide_eq_true_eq]
  exact ⟨add_le_sub_of_le he.left he.right hn h0 hx, add_le_sub_of_le he.top he.bottom hn h0 hy⟩

theorem of_mayBreakDown (he : e.IsFinite) (h : e.MayBreakDown radius) :
    (value e.left ≤ value e.right ∧ value e.top ≤ value e.bottom) ∧
      e.cornersInOrder radius = false := by
  obtain ⟨x, y, htest⟩ := h
  rw [breaksDown_eq, Bool.and_eq_true, Bool.not_eq_true', encloses_iff] at htest
  obtain ⟨⟨hacross, hdown⟩, horder⟩ := htest
  exact ⟨⟨value_le_of_between he.left he.right (isNaN_middle x) hacross,
    value_le_of_between he.top he.bottom (isNaN_middle y) hdown⟩, horder⟩

/-- A test only breaks down where the corners take too much. -/
theorem overfull_of_mayBreakDown (he : e.IsFinite) (h : e.MayBreakDown radius) :
    e.Overfull radius := by
  obtain ⟨⟨hwidth, hheight⟩, horder⟩ := of_mayBreakDown he h
  obtain ⟨hn, h0, hlex, hley⟩ := cornerRadius_spec he radius
  rw [max_eq_left (halfDistance_nonneg he.left he.right hwidth)] at hlex
  rw [max_eq_left (halfDistance_nonneg he.top he.bottom hheight)] at hley
  by_contra hfull
  obtain ⟨hnotx, hnoty⟩ := not_or.mp hfull
  have hfitx := not_lt.mp fun hlt => hnotx ⟨hlt, hlex⟩
  have hfity := not_lt.mp fun hlt => hnoty ⟨hlt, hley⟩
  rw [cornersInOrder_of_fits he hfitx hfity] at horder
  cases horder

/-! ### Exact distances -/

/-- Two edges are finite, and their distance has few enough binary places to be exact, also when it
is halved. -/
structure ExactlyApart (a b : Float32) : Prop where
  first : a.isFinite = true
  second : b.isFinite = true
  distance : ∃ (n : ℤ) (j : ℕ), n.natAbs ≤ 2 ^ 24 ∧ j < 149 ∧ value b - value a = n / 2 ^ j

theorem ExactlyApart.halfDistance_eq {a b : Float32} (h : ExactlyApart a b) :
    2 * value (halfDistance a b) = value b - value a := by
  obtain ⟨n, j, hn, hj, hdistance⟩ := h.distance
  have hi := index_sub h.second h.first
  rw [hdistance] at hi
  have hgrid := onGrid_dyadic hn hj.le
  have hfinite := isFinite_of_onGrid (isNaN_sub (isNaN_of_isFinite h.second) h.first) hi hgrid
  have hhalf := isWhole_two.index_div hfinite (by norm_num)
  rw [value_eq_of_onGrid hi hgrid, Int.cast_ofNat, div_div, ← pow_succ] at hhalf
  rw [halfDistance, value_eq_of_onGrid hhalf (onGrid_dyadic hn hj), hdistance, pow_succ]
  field_simp

theorem not_overfull_of_exact (hx : ExactlyApart e.left e.right)
    (hy : ExactlyApart e.top e.bottom) : ¬e.Overfull radius := by
  rintro (⟨hlt, hle⟩ | ⟨hlt, hle⟩)
  · linarith [hx.halfDistance_eq]
  · linarith [hy.halfDistance_eq]

/-! ### Whole edges -/

theorem cornerRadius_le (he : e.IsFinite) (hr : radius.isNaN = false) :
    value (e.cornerRadius radius) ≤ max (value radius) 0 := by
  have hx := isNaN_halfDistance he.left he.right
  have hy := isNaN_halfDistance he.top he.bottom
  obtain ⟨hn, hle, -⟩ := lower_le hr hx
  obtain ⟨hn', hle', -⟩ := lower_le hn hy
  obtain ⟨-, hvalue⟩ := upper_spec hn' (b := 0) rfl
  rw [value_zero] at hvalue
  exact hvalue.trans_le (max_le_max (hle'.trans hle) le_rfl)

/-- Whole edges are either near enough for their distance to be exact or too far apart for a radius of
23 bits. -/
theorem fits_of_whole {a b : Float32} {m n : ℤ} (ha : IsWhole m a) (hb : IsWhole n b)
    (hle : value a ≤ value b) {r : ℚ} (hr : r ≤ max (value (halfDistance a b)) 0)
    (hr' : r ≤ 2 ^ 23) : 2 * r ≤ value b - value a := by
  have hdistance : value b - value a = (n - m : ℤ) := by
    rw [ha.value_eq, hb.value_eq, Int.cast_sub]
  rcases le_or_gt (n - m) (2 ^ 24) with hnear | hfar
  · have hmn : m ≤ n := by
      rw [ha.value_eq, hb.value_eq] at hle
      exact_mod_cast hle
    have hexact : ExactlyApart a b :=
      ⟨ha.isFinite, hb.isFinite, n - m, 0, by omega, by norm_num, by rw [hdistance]; simp⟩
    rw [max_eq_left (halfDistance_nonneg ha.isFinite hb.isFinite hle)] at hr
    linarith [hexact.halfDistance_eq]
  · have hfar' : (2 ^ 24 : ℚ) < (n - m : ℤ) := by exact_mod_cast hfar
    linarith

/-- All edges are whole numbers. -/
structure AreWhole (e : Edges) : Prop where
  left : ∃ z, Single.IsWhole z e.left
  top : ∃ z, Single.IsWhole z e.top
  right : ∃ z, Single.IsWhole z e.right
  bottom : ∃ z, Single.IsWhole z e.bottom

/-- A number of no more than 23 bits. -/
def IsModerate (radius : Float32) : Prop :=
  radius.isNaN = false ∧ value radius ≤ 2 ^ 23

theorem not_mayBreakDown_of_whole (he : e.AreWhole) (hr : IsModerate radius) :
    ¬e.MayBreakDown radius := by
  obtain ⟨⟨_, hl⟩, ⟨_, ht⟩, ⟨_, hright⟩, ⟨_, hb⟩⟩ := he
  have hfinite : e.IsFinite := ⟨hl.isFinite, ht.isFinite, hright.isFinite, hb.isFinite⟩
  intro h
  obtain ⟨⟨hwidth, hheight⟩, horder⟩ := of_mayBreakDown hfinite h
  obtain ⟨-, -, hlex, hley⟩ := cornerRadius_spec hfinite radius
  have hmoderate := (cornerRadius_le hfinite hr.1).trans (max_le hr.2 (by norm_num))
  rw [cornersInOrder_of_fits hfinite (fits_of_whole hl hright hwidth hlex hmoderate)
    (fits_of_whole ht hb hheight hley hmoderate)] at horder
  cases horder

end Edges

/-! ### The contours of a rectangle -/

/-- All edges of a rectangle are less than `2 ^ 20` pixels away from the corner of the surface. -/
structure Rect.IsModerate (r : Rect) : Prop where
  left : r.x.natAbs < 2 ^ 20
  top : r.y.natAbs < 2 ^ 20
  right : r.right.natAbs < 2 ^ 20
  bottom : r.bottom.natAbs < 2 ^ 20

/-- A width with few binary places, for an outline around a moderate rectangle. -/
def HasFewPlaces (pen : Float32) : Prop :=
  ∃ m j : ℕ, value pen = m / 2 ^ j ∧ 2 ^ 21 * 2 ^ j + m ≤ 2 ^ 24

theorem places_lt {m j : ℕ} (h : 2 ^ 21 * 2 ^ j + m ≤ 2 ^ 24) : j < 4 := by
  by_contra hj
  have := Nat.pow_le_pow_right two_pos (not_lt.mp hj)
  omega

namespace Edges

variable {r : Rect} {d : Float32}

theorem shrink_eq_grow (e : Edges) (d : Float32) : e.shrink d = e.grow (-d) := by
  simp only [shrink, grow, sub_opposite, add_opposite]

theorem areWhole_ofRect (r : Rect) : (ofRect r).AreWhole where
  left := exists_isWhole_ofInt r.x
  top := exists_isWhole_ofInt r.y
  right := exists_isWhole_ofInt r.right
  bottom := exists_isWhole_ofInt r.bottom

theorem areWhole_grow (r : Rect) {z : ℤ} (hd : Single.IsWhole z d) (hd' : Within 64 d) :
    ((ofRect r).grow d).AreWhole := by
  have moved (a : ℤ) {d : Float32} {z : ℤ} (hd : Single.IsWhole z d) (hd' : Within 64 d) :
      ∃ w, Single.IsWhole w (ofInt a + d) := by
    obtain ⟨w, hw⟩ := exists_isWhole_ofInt a
    exact hw.exists_add hd ((within_ofInt a).add hd' (by norm_num)).isFinite
  have back (a : ℤ) : ∃ w, Single.IsWhole w (ofInt a - d) := by
    rw [← add_opposite]
    exact moved a hd.neg (hd'.neg (by norm_num))
  exact ⟨back r.x, back r.y, moved r.right hd hd', moved r.bottom hd hd'⟩

theorem isFinite_grow (h : r.IsModerate) (hd : d.isFinite = true) :
    ((ofRect r).grow d).IsFinite := by
  have hsum {z : ℤ} (hz : z.natAbs < 2 ^ 20) {x : Float32} (hx : x.isFinite = true) :
      (ofInt z + x).isFinite = true :=
    isFinite_add_of_small ((within_ofInt_of_le hz.le (by norm_num)).mono (by norm_num)) hx
  have hneg := (isFinite_neg d).trans hd
  constructor
  · exact (congrArg Float32.isFinite (add_opposite _ d)).symm.trans (hsum h.left hneg)
  · exact (congrArg Float32.isFinite (add_opposite _ d)).symm.trans (hsum h.top hneg)
  · exact hsum h.right hd
  · exact hsum h.bottom hd

theorem exactlyApart_ofInt {a b : ℤ} (ha : a.natAbs < 2 ^ 20) (hb : b.natAbs < 2 ^ 20) :
    ExactlyApart (ofInt a) (ofInt b) := by
  have hwa := isWhole_ofInt (z := a) (by omega)
  have hwb := isWhole_ofInt (z := b) (by omega)
  refine ⟨hwa.isFinite, hwb.isFinite, b - a, 0, by omega, by norm_num, ?_⟩
  rw [hwa.value_eq, hwb.value_eq]
  push_cast
  ring

/-- Edges that are moved outward by a number with few binary places are exact, and so is their
distance. -/
theorem exactlyApart_grow {a b m : ℤ} {j : ℕ} (ha : a.natAbs < 2 ^ 20) (hb : b.natAbs < 2 ^ 20)
    (hd : d.isFinite = true) (hv : value d = m / 2 ^ (j + 1))
    (hm : 2 ^ 21 * 2 ^ j + m.natAbs ≤ 2 ^ 24) : ExactlyApart (ofInt a - d) (ofInt b + d) := by
  have hwa := isWhole_ofInt (z := a) (by omega)
  have hwb := isWhole_ofInt (z := b) (by omega)
  have hj := places_lt hm
  have hscaled {z : ℤ} {k : ℕ} (hz : z.natAbs ≤ k) : (z * 2 ^ j).natAbs ≤ k * 2 ^ j := by
    rw [Int.natAbs_mul, Int.natAbs_pow]
    exact Nat.mul_le_mul_right _ hz
  have hpa := hscaled ha.le
  have hpb := hscaled hb.le
  have hpd := hscaled (z := b - a) (k := 2 ^ 21) (by omega)
  have hia := index_sub hwa.isFinite hd
  have hib := index_add hwb.isFinite hd
  have hea : value (ofInt a) - value d = (2 * (a * 2 ^ j) - m : ℤ) / 2 ^ (j + 1) := by
    rw [hwa.value_eq, hv, pow_succ]
    push_cast
    field_simp
  have heb : value (ofInt b) + value d = (2 * (b * 2 ^ j) + m : ℤ) / 2 ^ (j + 1) := by
    rw [hwb.value_eq, hv, pow_succ]
    push_cast
    field_simp
  have hga := onGrid_dyadic (z := 2 * (a * 2 ^ j) - m) (j := j + 1) (by omega) (by omega)
  have hgb := onGrid_dyadic (z := 2 * (b * 2 ^ j) + m) (j := j + 1) (by omega) (by omega)
  rw [← hea] at hga
  rw [← heb] at hgb
  refine ⟨isFinite_of_onGrid (isNaN_sub hwa.isNaN hd) hia hga,
    isFinite_of_onGrid (isNaN_add hwb.isFinite (isNaN_of_isFinite hd)) hib hgb,
    (b - a) * 2 ^ j + m, j, by omega, by omega, ?_⟩
  rw [value_eq_of_onGrid hia hga, value_eq_of_onGrid hib hgb, hea, heb]
  push_cast
  field_simp
  ring

end Edges

theorem HasFewPlaces.value_half {pen : Float32} (hp : pen.isFinite = true) (h : HasFewPlaces pen) :
    ∃ m j : ℕ, value (pen / 2) = m / 2 ^ (j + 1) ∧ 2 ^ 21 * 2 ^ j + m ≤ 2 ^ 24 := by
  obtain ⟨m, j, hv, hm⟩ := h
  have hj := places_lt hm
  have hi := isWhole_two.index_div hp (by norm_num)
  rw [hv, Int.cast_ofNat, div_div, ← pow_succ] at hi
  refine ⟨m, j, value_eq_of_onGrid hi ?_, hm⟩
  exact onGrid_dyadic (z := m) (by omega) (by omega)

theorem not_overfull_contours {r : Rect} (h : r.IsModerate) {pen : Float32}
    (hp : pen.isFinite = true) (hfew : HasFewPlaces pen) (radius : Float32) :
    ¬((Edges.ofRect r).grow (pen / 2)).Overfull radius ∧
      ¬((Edges.ofRect r).shrink (pen / 2)).Overfull radius := by
  obtain ⟨m, j, hv, hm⟩ := hfew.value_half hp
  have hd : (pen / 2).isFinite = true := isFinite_half hp
  have hneg : value (-(pen / 2)) = (-m : ℤ) / 2 ^ (j + 1) := by
    rw [value_neg, hv]
    push_cast
    ring
  have hm' : 2 ^ 21 * 2 ^ j + (-m : ℤ).natAbs ≤ 2 ^ 24 := by
    rwa [Int.natAbs_neg, Int.natAbs_natCast]
  rw [Edges.shrink_eq_grow]
  have hd' := (isFinite_neg (pen / 2)).trans hd
  exact ⟨Edges.not_overfull_of_exact
      (Edges.exactlyApart_grow h.left h.right hd (m := m) hv hm)
      (Edges.exactlyApart_grow h.top h.bottom hd (m := m) hv hm),
    Edges.not_overfull_of_exact
      (Edges.exactlyApart_grow h.left h.right hd' hneg hm')
      (Edges.exactlyApart_grow h.top h.bottom hd' hneg hm')⟩

/-! ### Commands -/

namespace Command

variable {r : Rect} {radius pen : Float32} {color : Color}

theorem not_mayBreakDown_fillRoundedRect (h : r.IsModerate) :
    ¬(fillRoundedRect r radius color).MayBreakDown := by
  intro hbreaks
  have hx := Edges.exactlyApart_ofInt h.left h.right
  have hy := Edges.exactlyApart_ofInt h.top h.bottom
  have hfinite : (Edges.ofRect r).IsFinite := ⟨hx.first, hy.first, hx.second, hy.second⟩
  exact Edges.not_overfull_of_exact hx hy (Edges.overfull_of_mayBreakDown hfinite hbreaks)

/-- An outline breaks down on its outer or on its inner contour. -/
theorem overfull_of_mayBreakDown (h : r.IsModerate) (hp : pen.isFinite = true)
    (hbreaks : (strokeRoundedRect r radius pen color).MayBreakDown) :
    ((Edges.ofRect r).grow (pen / 2)).Overfull (radius + pen / 2) ∨
      ((Edges.ofRect r).shrink (pen / 2)).Overfull (upper (radius - pen / 2) 0) := by
  have hd : (pen / 2).isFinite = true := isFinite_half hp
  have hinner : ((Edges.ofRect r).shrink (pen / 2)).IsFinite := by
    rw [Edges.shrink_eq_grow]
    exact Edges.isFinite_grow h ((isFinite_neg _).trans hd)
  exact hbreaks.imp (Edges.overfull_of_mayBreakDown (Edges.isFinite_grow h hd))
    (Edges.overfull_of_mayBreakDown hinner)

theorem not_mayBreakDown_fillRoundedRect_of_moderate (hr : Edges.IsModerate radius) :
    ¬(fillRoundedRect r radius color).MayBreakDown :=
  Edges.not_mayBreakDown_of_whole (Edges.areWhole_ofRect r) hr

theorem not_mayBreakDown_strokeRoundedRect_of_moderate {z : ℤ} (hp : IsWhole z (pen / 2))
    (hp' : Within 64 (pen / 2)) (hr : Edges.IsModerate (radius + pen / 2))
    (hr' : Edges.IsModerate (upper (radius - pen / 2) 0)) :
    ¬(strokeRoundedRect r radius pen color).MayBreakDown := by
  rintro (hout | hin)
  · exact Edges.not_mayBreakDown_of_whole (Edges.areWhole_grow r hp hp') hr hout
  · rw [Edges.shrink_eq_grow] at hin
    exact Edges.not_mayBreakDown_of_whole (Edges.areWhole_grow r hp.neg (hp'.neg (by norm_num)))
      hr' hin

end Command

namespace Canvas

/-- Around a single pixel, with corners as round as can be and a pen of two fifths of a pixel, the
outer contour is 1.4 pixels wide before rounding and a little wider after it. -/
theorem attempt_strokeRoundedRect_thinPen :
    (Canvas.filled 1 1 ⟨0, 0, 0, 255⟩).attempt?
      (.strokeRoundedRect ⟨0, 0, 1, 1⟩ 1 0.4 ⟨255, 0, 0, 255⟩) = none := by
  refine attempt?_of_breaksDown ?_
  decide +kernel

/-- For every canvas and every rectangle whose edges are less than `2 ^ 20` pixels away, with any
radius: filling never breaks down; an outline with any finite pen only breaks down when on one of
its two contours the corners, though held to half of the rounded width or height, take more than
half of the exact one; and with a pen of few binary places an outline does not break down
either. -/
theorem corners_law (c : Canvas) (r : Rect) (radius : Float32) (color : Color)
    (hr : r.IsModerate) :
    c.attempt? (.fillRoundedRect r radius color) =
        some (c.draw (.fillRoundedRect r radius color)) ∧
      ∀ pen : Float32, pen.isFinite = true →
        (c.attempt? (.strokeRoundedRect r radius pen color) = none →
          ((Edges.ofRect r).grow (pen / 2)).Overfull (radius + pen / 2) ∨
            ((Edges.ofRect r).shrink (pen / 2)).Overfull (upper (radius - pen / 2) 0)) ∧
        (HasFewPlaces pen → c.attempt? (.strokeRoundedRect r radius pen color) =
          some (c.draw (.strokeRoundedRect r radius pen color))) := by
  refine ⟨attempt?_of_steady (Command.not_mayBreakDown_fillRoundedRect hr) c,
    fun pen hp => ⟨fun hnone => ?_, fun hfew => attempt?_of_steady (fun hbreaks => ?_) c⟩⟩
  · exact Command.overfull_of_mayBreakDown hr hp
      (mayBreakDown_of_breaksDown (breaksDown_of_attempt? hnone))
  · rcases Command.overfull_of_mayBreakDown hr hp hbreaks with hout | hin
    · exact (not_overfull_contours hr hp hfew _).1 hout
    · exact (not_overfull_contours hr hp hfew _).2 hin

/-- A pen of two and a half pixels, around a panel that reaches over the left edge of the canvas. -/
theorem corners_law_halfPixel :
    HasFewPlaces 2.5 ∧
      (Canvas.filled 320 180 ⟨0, 0, 0, 255⟩).attempt?
          (.strokeRoundedRect ⟨-30, 20, 315, 140⟩ 20 2.5 ⟨255, 255, 255, 100⟩) =
        some ((Canvas.filled 320 180 ⟨0, 0, 0, 255⟩).draw
          (.strokeRoundedRect ⟨-30, 20, 315, 140⟩ 20 2.5 ⟨255, 255, 255, 100⟩)) := by
  have hpen : HasFewPlaces 2.5 := by
    refine ⟨5, 1, ?_, by norm_num⟩
    rw [value_of_mantissa (m := 5 * 2 ^ 21) (s := 127) rfl (by norm_num) (by norm_num)]
    norm_num
  have hpanel : Rect.IsModerate ⟨-30, 20, 315, 140⟩ := by constructor <;> decide
  exact ⟨hpen, ((corners_law _ _ 20 ⟨255, 255, 255, 100⟩ hpanel).2 2.5 (by decide)).2 hpen⟩

end Canvas

end DriveOverlay
