import DriveOverlay.Proofs.Single.Overflow

/-! # How much rounding adds up to

Among numbers of at most `2 ^ 14` singles are no further apart than `2 ^ -10`, so that rounding is not
further off either.  `Near x q e` says that a single `x` stands for the number `q` up to an error of
`e`; each operation adds the error of rounding to what its operands bring along.

* `near_of_index`: the error of rounding;
* `Near.add`, `Near.sub`, `Near.mul`, `Near.div`, `Near.div_whole`: the errors of the operations. -/

namespace DriveOverlay.Single

variable {x y : Float32} {p q d e m n : ℚ}

/-! ### Rounding -/

/-- How far rounding is off at most, for numbers of at most `roundingRange`. -/
def roundingError : ℚ := 1 / 2 ^ 10

/-- Larger numbers than this may be rounded by more. -/
def roundingRange : ℚ := 2 ^ 14

theorem onGrid_mul_roundingError {z : ℤ} (hz : z.natAbs ≤ 2 ^ 24) : OnGrid (z * roundingError) := by
  have hgrid {k : ℕ} (hk : k ≤ 2 ^ 24) : OnGrid (k * roundingError) := by
    have h := onGrid_of_mantissa hk (s := 139) (by norm_num)
    have e : (k : ℚ) * 2 ^ 139 / 2 ^ 149 = k * roundingError := by
      unfold roundingError
      ring
    rwa [e] at h
  obtain ⟨k, rfl | rfl⟩ := z.eq_nat_or_neg
  · exact hgrid (by omega)
  · have e : ((-(k : ℤ) : ℤ) : ℚ) * roundingError = -(k * roundingError) := by
      push_cast
      ring
    rw [e]
    exact (hgrid (by omega)).neg

/-- The single is finite, and no further than `e` from the number. -/
structure Near (x : Float32) (q e : ℚ) : Prop where
  isFinite : x.isFinite = true
  dist_le : |value x - q| ≤ e

theorem near_of_index (hx : x.isNaN = false) (hi : index x = nearest q) (hq : |q| ≤ roundingRange) :
    Near x q roundingError := by
  have hr : (0 : ℚ) < roundingError := by norm_num [roundingError]
  have hlo := Int.floor_le (q / roundingError)
  have hlo' := Int.lt_floor_add_one (q / roundingError)
  have hhi := Int.le_ceil (q / roundingError)
  have hhi' := Int.ceil_lt_add_one (q / roundingError)
  have hquotient : |q / roundingError| ≤ (2 ^ 24 : ℤ) := by
    rw [abs_div, abs_of_pos hr, div_le_iff₀ hr]
    exact hq.trans (by norm_num [roundingRange, roundingError])
  obtain ⟨hneg, hpos⟩ := abs_le.mp hquotient
  have hfloor : -2 ^ 24 ≤ ⌊q / roundingError⌋ := Int.le_floor.mpr (by exact_mod_cast hneg)
  have hceil : ⌈q / roundingError⌉ ≤ 2 ^ 24 := Int.ceil_le.mpr (by exact_mod_cast hpos)
  have hle := Int.floor_le_ceil (q / roundingError)
  have hbelow := le_rounded hi
    (onGrid_mul_roundingError (z := ⌊q / roundingError⌋) (by omega)) ((le_div_iff₀ hr).mp hlo)
  have habove := rounded_le hi
    (onGrid_mul_roundingError (z := ⌈q / roundingError⌉) (by omega)) ((div_le_iff₀ hr).mp hhi)
  rw [div_lt_iff₀ hr] at hlo'
  rw [← sub_lt_iff_lt_add, lt_div_iff₀ hr] at hhi'
  refine ⟨isFinite_of_abs_le hx ?_, abs_le.mpr ⟨by linarith, by linarith⟩⟩
  rw [abs_le] at hq ⊢
  unfold roundingRange roundingError at *
  constructor <;> linarith

namespace Near

theorem self (hx : x.isFinite = true) : Near x (value x) 0 :=
  ⟨hx, by rw [sub_self, abs_zero]⟩

theorem isNaN (h : Near x q e) : x.isNaN = false :=
  isNaN_of_isFinite h.isFinite

theorem mono (h : Near x q d) (hde : d ≤ e) : Near x q e :=
  ⟨h.isFinite, h.dist_le.trans hde⟩

theorem abs_value_le (h : Near x q e) (hq : |q| ≤ m) : |value x| ≤ m + e :=
  calc |value x| = |q + (value x - q)| := by rw [add_sub_cancel]
    _ ≤ |q| + |value x - q| := abs_add_le _ _
    _ ≤ m + e := add_le_add hq h.dist_le

theorem bounds (h : Near x q e) : q - e ≤ value x ∧ value x ≤ q + e := by
  obtain ⟨hlo, hhi⟩ := abs_le.mp h.dist_le
  exact ⟨by linarith, by linarith⟩

theorem of_index (hx : x.isNaN = false) (hi : index x = nearest p) (hp : |p - q| ≤ e)
    (hq : |q| + e ≤ roundingRange) : Near x q (e + roundingError) := by
  have hrange : |p| ≤ roundingRange :=
    calc |p| = |q + (p - q)| := by rw [add_sub_cancel]
      _ ≤ |q| + |p - q| := abs_add_le _ _
      _ ≤ roundingRange := by linarith
  have h := near_of_index hx hi hrange
  refine ⟨h.isFinite, ?_⟩
  calc |value x - q| ≤ |value x - p| + |p - q| := abs_sub_le _ _ _
    _ ≤ e + roundingError := by linarith [h.dist_le]

/-! ### Operations -/

theorem add (hx : Near x p d) (hy : Near y q e) (h : |p + q| + (d + e) ≤ roundingRange) :
    Near (x + y) (p + q) (d + e + roundingError) := by
  refine of_index (isNaN_add hx.isFinite hy.isNaN) (index_add hx.isFinite hy.isFinite) ?_ h
  calc |value x + value y - (p + q)| = |(value x - p) + (value y - q)| := by rw [add_sub_add_comm]
    _ ≤ |value x - p| + |value y - q| := abs_add_le _ _
    _ ≤ d + e := add_le_add hx.dist_le hy.dist_le

theorem sub (hx : Near x p d) (hy : Near y q e) (h : |p - q| + (d + e) ≤ roundingRange) :
    Near (x - y) (p - q) (d + e + roundingError) := by
  refine of_index (isNaN_sub hx.isNaN hy.isFinite) (index_sub hx.isFinite hy.isFinite) ?_ h
  calc |value x - value y - (p - q)| = |(value x - p) - (value y - q)| := by rw [sub_sub_sub_comm]
    _ ≤ |value x - p| + |value y - q| := abs_sub _ _
    _ ≤ d + e := add_le_add hx.dist_le hy.dist_le

theorem mul (hx : Near x p d) (hy : Near y q e) (hp : |p| ≤ m) (hq : |q| ≤ n)
    (h : m * n + (d * n + m * e + d * e) ≤ roundingRange) :
    Near (x * y) (p * q) (d * n + m * e + d * e + roundingError) := by
  have hd : 0 ≤ d := (abs_nonneg _).trans hx.dist_le
  have hm : 0 ≤ m := (abs_nonneg _).trans hp
  have hproduct : |p * q| ≤ m * n := by
    rw [abs_mul]
    exact mul_le_mul hp hq (abs_nonneg _) hm
  refine of_index (isNaN_mul hx.isFinite hy.isFinite) (index_mul hx.isFinite hy.isFinite) ?_
    (by linarith)
  calc |value x * value y - p * q|
      = |(value x - p) * q + p * (value y - q) + (value x - p) * (value y - q)| := by
        congr 1
        ring
    _ ≤ |(value x - p) * q| + |p * (value y - q)| + |(value x - p) * (value y - q)| :=
        abs_add_three _ _ _
    _ ≤ d * n + m * e + d * e := by
        simp only [abs_mul]
        gcongr
        · exact hx.dist_le
        · exact hy.dist_le
        · exact hx.dist_le
        · exact hy.dist_le

/-- The divisor is far from zero, and the quotient at most `m`. -/
theorem div (hx : Near x p d) (hy : Near y q e) (hq : n + e ≤ |q|) (hn : 0 < n)
    (hm : |p / q| ≤ m) (h : m + (d + m * e) / n ≤ roundingRange) :
    Near (x / y) (p / q) ((d + m * e) / n + roundingError) := by
  have hd : 0 ≤ d := (abs_nonneg _).trans hx.dist_le
  have he : 0 ≤ e := (abs_nonneg _).trans hy.dist_le
  have hq0 : q ≠ 0 := abs_pos.mp (lt_of_lt_of_le (by linarith) hq)
  have hlow : n ≤ |value y| := by
    have hsum : |q| ≤ |value y| + |value y - q| :=
      calc |q| = |value y - (value y - q)| := by rw [sub_sub_cancel]
        _ ≤ |value y| + |value y - q| := abs_sub _ _
    linarith [hy.dist_le]
  have hy0 : value y ≠ 0 := abs_pos.mp (hn.trans_le hlow)
  have hi := index_ne_zero hy0
  refine of_index (isNaN_div hx.isNaN hy.isFinite hi) (index_div hx.isFinite hy.isFinite hi) ?_
    (by linarith)
  calc |value x / value y - p / q| = |(value x - p) - p / q * (value y - q)| / |value y| := by
        rw [← abs_div]
        congr 1
        field_simp
        ring
    _ ≤ (|value x - p| + |p / q| * |value y - q|) / |value y| := by
        gcongr
        rw [← abs_mul]
        exact abs_sub _ _
    _ ≤ (d + m * e) / n := by
        have hm0 : 0 ≤ m := (abs_nonneg _).trans hm
        gcongr
        · exact hx.dist_le
        · exact hy.dist_le

/-- A quotient by a whole number. -/
theorem div_whole (hx : Near x p e) {z : ℤ} (hy : IsWhole z y) (hz : 1 ≤ z)
    (h : |p| + e ≤ roundingRange) : Near (x / y) (p / z) (e + roundingError) := by
  have hz' : (1 : ℚ) ≤ z := by exact_mod_cast hz
  have hshrink (q : ℚ) : |q / z| ≤ |q| := by
    rw [abs_div, abs_of_nonneg (a := (z : ℚ)) (by linarith)]
    exact div_le_self (abs_nonneg q) hz'
  have hy0 := index_ne_zero (x := y) (by rw [hy.value_eq]; linarith)
  refine of_index (isNaN_div hx.isNaN hy.isFinite hy0) (hy.index_div hx.isFinite (by omega)) ?_ ?_
  · rw [← sub_div]
    exact (hshrink _).trans hx.dist_le
  · linarith [hshrink p]

end Near

end DriveOverlay.Single
