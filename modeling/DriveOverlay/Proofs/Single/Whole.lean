import DriveOverlay.Proofs.Single.Arithmetic
import DriveOverlay.Single.Rounding

/-! # Whole numbers among the singles

Conversions between singles and integers, and the rounding functions that are built from them.

* `value_ofNat`: whole numbers of 24 bits are exact;
* `index_ofInt_mono`: integers keep their order, also where they are rounded;
* `IsWhole z x`: the single `x` is the whole number `z`; sums, differences and products of such are
  such (`IsWhole.add`, `IsWhole.sub`, `IsWhole.mul`);
* `toNat_toUInt8`, `toNat_toUInt32`, `toNat_toUInt64`: a conversion cuts the fraction off, up to the
  largest integer;
* `trunc_spec`, `floor_spec`, `ceil_spec`: the rounding functions give the whole number they should,
  and leave infinities as they are;
* `rounded_between`, `round_between`: rounding does not go beyond a whole number;
* `value_round`: where a number goes when it is rounded to a whole one;
* `clamp_spec`, `clamp_between`: clamping gives the middle one of three numbers;
* `toInt32_eq`: whole values become the integer, up to the ends of the 32-bit range;
* `ceil_of_isNaN`, `toInt32_of_isNaN`: what becomes of NaN. -/

namespace DriveOverlay.Single

open Float.Model (Format UnpackedFloat)
open Float.Model.UnpackedFloat

/-! ### From whole numbers -/

theorem ofNat_packsTo (n : ℕ) : PacksTo (UnpackedFloat.ofNat Format.binary32 n) (nearest n) :=
  normalize_spec n 0 .positive (by rw [zpow_zero, mul_one, Int.cast_natCast])

theorem index_toFloat32 (n : UInt32) : index n.toFloat32 = nearest n.toNat :=
  (ofNat_packsTo n.toNat).index_eq

theorem isNaN_toFloat32 (n : UInt32) : n.toFloat32.isNaN = false :=
  (isNaN_ofModel_pack _).trans (ofNat_packsTo n.toNat).isNaN_eq

theorem index_ofNat {n : ℕ} (h : n < 2 ^ 64) : index (ofNat n) = nearest n := by
  refine (ofNat_packsTo (UInt64.ofNat n).toNat).index_eq.trans ?_
  rw [UInt64.toNat_ofNat_of_lt' h]

theorem isNaN_ofNat (n : ℕ) : (ofNat n).isNaN = false :=
  (isNaN_ofModel_pack _).trans (ofNat_packsTo _).isNaN_eq

theorem isNaN_ofInt (z : ℤ) : (ofInt z).isNaN = false := by
  cases z with
  | ofNat n => exact isNaN_ofNat n
  | negSucc n => exact (isNaN_neg _).trans (isNaN_ofNat _)

theorem index_ofInt {z : ℤ} (h : z.natAbs < 2 ^ 64) : index (ofInt z) = nearest z := by
  cases z with
  | ofNat n => exact index_ofNat h
  | negSucc n =>
      have hv : ((Int.negSucc n : ℤ) : ℚ) = -((n + 1 : ℕ) : ℚ) := by
        rw [Int.cast_negSucc]
      rw [hv, nearest_neg, ← index_ofNat (n := n + 1) h]
      exact index_neg _

/-- Rounding integers to singles keeps their order. -/
theorem index_ofInt_mono {z w : ℤ} (hz : z.natAbs < 2 ^ 64) (hw : w.natAbs < 2 ^ 64)
    (h : z ≤ w) : index (ofInt z) ≤ index (ofInt w) := by
  rw [index_ofInt hz, index_ofInt hw]
  exact nearest_mono (Int.cast_le.mpr h)

section

variable {n m : ℕ}

theorem value_ofNat_mono (h : n ≤ m) (hm : m < 2 ^ 64) : value (ofNat n) ≤ value (ofNat m) :=
  rounded_mono (index_ofNat (h.trans_lt hm)) (index_ofNat hm) (Nat.cast_le.mpr h)

theorem value_ofNat_nonneg (hn : n < 2 ^ 64) : 0 ≤ value (ofNat n) :=
  value_nonneg (rounded_nonneg (index_ofNat hn) (Nat.cast_nonneg n))

theorem value_ofNat_pos (h : 0 < n) (hn : n < 2 ^ 64) : 0 < value (ofNat n) := by
  have hone : (1 : ℕ) ≤ value (ofNat n) :=
    le_rounded (index_ofNat hn) (onGrid_natCast (by norm_num)) (Nat.cast_le.mpr h)
  rw [Nat.cast_one] at hone
  exact zero_lt_one.trans_le hone

end

/-! ### To whole numbers -/

theorem roundToInt_eq (s : Sign) (m : ℕ) (e : ℤ) :
    roundToInt s m e = s.apply (⌊(m : ℚ) * (2 : ℚ) ^ e⌋₊ : ℕ) := by
  unfold roundToInt decreaseExponent shiftToExponent
  dsimp only
  obtain ⟨k, hk⟩ : ∃ k : ℕ, (e - 0).toNat = k := ⟨_, rfl⟩
  obtain ⟨j, hj⟩ : ∃ j : ℕ, (0 - (e - (k : ℕ))).toNat = j := ⟨_, rfl⟩
  have hv : (m : ℚ) * 2 ^ e = (m <<< k : ℕ) / 2 ^ j := by
    rw [Nat.shiftLeft_eq, eq_div_iff (by positivity), Nat.cast_mul, Nat.cast_pow, Nat.cast_two,
      ← zpow_natCast, ← zpow_natCast, mul_assoc, ← zpow_add₀ two_ne_zero]
    congr 2
    omega
  rw [hk, hj, hv, ((describes_exact (m <<< k)).shiftRight j).floor_eq]

theorem toInt_unpacked {x : UnpackedFloat} (hx : IsSingle x) (hn : x.isNaN = false) {M : ℕ}
    (hM : M ≤ 2 ^ 64) : min M (x.toInt 0 M).toNat = min M ⌊grid (indexOf x)⌋₊ := by
  cases x with
  | notANumber => cases hn
  | infinity s =>
      cases s with
      | positive =>
          have hle : M ≤ ⌊grid (indexOf (.infinity .positive))⌋₊ := by
            apply Nat.le_floor
            rw [indexOf_infinity, Sign.apply, grid_infinityIndex]
            calc (M : ℚ) ≤ (2 ^ 64 : ℕ) := by exact_mod_cast hM
              _ ≤ 2 ^ 128 := by norm_num
          rw [min_eq_left hle]
          exact min_eq_left le_rfl
      | negative =>
          have h0 : grid (indexOf (.infinity .negative)) ≤ 0 := by
            rw [indexOf_infinity, Sign.apply, grid_neg, grid_infinityIndex]
            norm_num
          rw [Nat.floor_of_nonpos h0]
          rfl
  | zero s =>
      rw [indexOf_zero, grid_zero, Nat.floor_zero]
      rfl
  | finite s m e h =>
      rw [grid_indexOf_finite hx.canonical]
      change min M (roundToInt s m e).toNat = _
      rw [roundToInt_eq]
      cases s with
      | positive => rfl
      | negative =>
          have h0 : ((Sign.apply .negative m : ℤ) : ℚ) * 2 ^ e ≤ 0 := by
            rw [Sign.apply, Int.cast_neg, Int.cast_natCast, neg_mul]
            exact neg_nonpos.mpr (mul_nonneg (Nat.cast_nonneg m) (zpow_pos two_pos e).le)
          rw [Nat.floor_of_nonpos h0, Sign.apply]
          congr 1
          omega

theorem toNat_ofNatClamp8 (n : ℕ) : (UInt8.ofNatClamp n).toNat = min (2 ^ 8 - 1) n := by
  unfold UInt8.ofNatClamp
  split
  · rename_i h
    exact (min_eq_right (Nat.le_pred_of_lt h)).symm
  · rename_i h
    exact (min_eq_left (le_trans (Nat.pred_le _) (Nat.le_of_not_lt h))).symm

theorem toNat_ofNatClamp32 (n : ℕ) : (UInt32.ofNatClamp n).toNat = min (2 ^ 32 - 1) n := by
  unfold UInt32.ofNatClamp
  split
  · rename_i h
    exact (min_eq_right (Nat.le_pred_of_lt h)).symm
  · rename_i h
    exact (min_eq_left (le_trans (Nat.pred_le _) (Nat.le_of_not_lt h))).symm

theorem toNat_ofNatClamp64 (n : ℕ) : (UInt64.ofNatClamp n).toNat = min (2 ^ 64 - 1) n := by
  unfold UInt64.ofNatClamp
  split
  · rename_i h
    exact (min_eq_right (Nat.le_pred_of_lt h)).symm
  · rename_i h
    exact (min_eq_left (le_trans (Nat.pred_le _) (Nat.le_of_not_lt h))).symm

theorem toNat_toUInt8 {x : Float32} (h : x.isNaN = false) :
    x.toUInt8.toNat = min (2 ^ 8 - 1) ⌊value x⌋₊ :=
  (toNat_ofNatClamp8 _).trans (toInt_unpacked (isSingle_unpack x.toModel) h (by norm_num))

theorem toNat_toUInt32 {x : Float32} (h : x.isNaN = false) :
    x.toUInt32.toNat = min (2 ^ 32 - 1) ⌊value x⌋₊ :=
  (toNat_ofNatClamp32 _).trans (toInt_unpacked (isSingle_unpack x.toModel) h (by norm_num))

theorem toNat_toUInt64 {x : Float32} (h : x.isNaN = false) :
    x.toUInt64.toNat = min (2 ^ 64 - 1) ⌊value x⌋₊ :=
  (toNat_ofNatClamp64 _).trans (toInt_unpacked (isSingle_unpack x.toModel) h (by norm_num))

theorem toUInt8_mono {x y : Float32} (hx : x.isNaN = false) (hy : y.isNaN = false)
    (h : value x ≤ value y) : x.toUInt8 ≤ y.toUInt8 := by
  rw [UInt8.le_iff_toNat_le, toNat_toUInt8 hx, toNat_toUInt8 hy]
  exact min_le_min le_rfl (Nat.floor_mono h)

/-! ### Exact whole numbers -/

/-- Whole numbers of 24 bits are exact. -/
theorem value_ofNat {n : ℕ} (h : n ≤ 2 ^ 24) : value (ofNat n) = n :=
  value_eq_of_onGrid (index_ofNat (by omega)) (onGrid_natCast h)

theorem isFinite_ofNat {n : ℕ} (h : n ≤ 2 ^ 24) : (ofNat n).isFinite = true :=
  isFinite_of_onGrid (isNaN_ofNat n) (index_ofNat (by omega)) (onGrid_natCast h)

theorem value_zero : value 0 = 0 := value_ofNat (n := 0) (by norm_num)

theorem isFinite_zero : (0 : Float32).isFinite = true := rfl

theorem value_one : value 1 = 1 := by
  have := value_ofNat (n := 1) (by norm_num)
  rwa [Nat.cast_one] at this

theorem value_zero_le_one : value 0 ≤ value 1 := by
  rw [value_zero, value_one]
  exact zero_le_one

theorem value_wholeLimit : value 8388608 = 2 ^ 23 := by
  have := value_ofNat (n := 8388608) (by norm_num)
  norm_num at this ⊢
  exact this

theorem value_of_mantissa {x : Float32} {m s : ℕ} (hi : index x = (s * 2 ^ 23 + m : ℕ))
    (hm : m < 2 ^ 24) (hn : 2 ^ 23 ≤ m) : value x = m * 2 ^ s / 2 ^ 149 := by
  rw [value, hi, grid_natCast, units_of_mantissa hm (.inl hn)]
  push_cast
  rfl

theorem value_half : value 0.5 = 1 / 2 := by
  rw [value_of_mantissa (m := 2 ^ 23) (s := 125) rfl (by norm_num) le_rfl]
  norm_num

theorem value_threeQuarters : value 0.75 = 3 / 4 := by
  rw [value_of_mantissa (m := 3 * 2 ^ 22) (s := 125) rfl (by norm_num) (by norm_num)]
  norm_num

theorem lt_zero_iff {x : Float32} (h : x.isNaN = false) : x < 0 ↔ value x < 0 := by
  rw [lt_iff_value h rfl, value_zero]

theorem zero_lt_of_index_pos {x : Float32} (h : x.isNaN = false) (h0 : 0 < index x) : 0 < x :=
  lt_iff.mpr ⟨rfl, h, h0⟩

/-- Whole values become the integer, up to the ends of the 32-bit range. -/
theorem toInt32_eq {x : Float32} (h : x.isNaN = false) {z : ℤ} (hz : value x = z) :
    toInt32 x = max (-2 ^ 31) (min (2 ^ 31 - 1) z) := by
  have hn : ∀ w : ℤ, ⌊(w : ℚ)⌋₊ = w.toNat := fun w => by
    rw [← Int.floor_toNat, Int.floor_intCast]
  unfold toInt32 toInt
  by_cases h0 : x < 0
  · have hlt : z < 0 := by
      rw [lt_zero_iff h, hz] at h0
      exact_mod_cast h0
    have hneg : value (-x) = ((-z : ℤ) : ℚ) := by rw [value_neg, hz, Int.cast_neg]
    rw [if_pos h0, toNat_toUInt64 ((isNaN_neg x).trans h), hneg, hn]
    omega
  · have hle : 0 ≤ z := by
      rw [lt_zero_iff h, hz] at h0
      exact_mod_cast not_lt.mp h0
    rw [if_neg h0, toNat_toUInt64 h, hz, hn]
    omega

theorem toInt32_of_nonneg {x : Float32} (h : x.isNaN = false) (h0 : 0 ≤ value x) :
    toInt32 x = (min (2 ^ 31 - 1) ⌊value x⌋₊ : ℕ) := by
  have hlt : ¬x < 0 := by
    rw [lt_zero_iff h]
    exact h0.not_gt
  unfold toInt32 toInt
  rw [if_neg hlt, toNat_toUInt64 h]
  omega

theorem toInt32_mem (x : Float32) : -2 ^ 31 ≤ toInt32 x ∧ toInt32 x ≤ 2 ^ 31 - 1 := by
  unfold toInt32 toInt
  split
  · omega
  · omega

/-! ### Whole singles -/

/-- The single is a whole number. -/
structure IsWhole (z : ℤ) (x : Float32) : Prop where
  isFinite : x.isFinite = true
  value_eq : value x = z

theorem isWhole_of_index {x : Float32} {z : ℤ} (hn : x.isNaN = false)
    (hi : index x = nearest z) (hz : z.natAbs ≤ 2 ^ 24) : IsWhole z x where
  isFinite := isFinite_of_onGrid hn hi (onGrid_intCast hz)
  value_eq := value_eq_of_onGrid hi (onGrid_intCast hz)

theorem isWhole_ofNat {n : ℕ} (h : n ≤ 2 ^ 24) : IsWhole n (ofNat n) where
  isFinite := isFinite_ofNat h
  value_eq := by rw [value_ofNat h, Int.cast_natCast]

theorem isWhole_toFloat32 (n : UInt8) : IsWhole n.toNat n.toFloat32 := by
  have hp := ofNat_packsTo n.toNat
  have hlt := n.toNat_lt
  exact isWhole_of_index ((isNaN_ofModel_pack _).trans hp.isNaN_eq)
    (by rw [Int.cast_natCast]; exact hp.index_eq) (by omega)

theorem isWhole_one : IsWhole 1 1 := isWhole_ofNat (n := 1) (by norm_num)

theorem isWhole_two : IsWhole 2 2 := isWhole_ofNat (n := 2) (by norm_num)

theorem isWhole_of_value {x : Float32} {z : ℤ} (h : x.isNaN = false) (hz : value x = z)
    (hb : z.natAbs ≤ 2 ^ 23) : IsWhole z x where
  value_eq := hz
  isFinite := by
    have hq : |(z : ℚ)| ≤ 2 ^ 23 := by
      rw [← Int.cast_abs, Int.abs_eq_natAbs]
      exact_mod_cast hb
    refine isFinite_of_abs_le h ?_
    rw [hz]
    exact hq.trans (by norm_num)

namespace IsWhole

variable {x y : Float32} {z w : ℤ}

theorem isNaN (hx : IsWhole z x) : x.isNaN = false :=
  isNaN_of_isFinite hx.isFinite

theorem neg (hx : IsWhole z x) : IsWhole (-z) (-x) where
  isFinite := by
    rw [isFinite_iff, isNaN_neg, index_neg, Int.natAbs_neg]
    exact isFinite_iff.mp hx.isFinite
  value_eq := by rw [value_neg, hx.value_eq, Int.cast_neg]

theorem add (hx : IsWhole z x) (hy : IsWhole w y) (h : (z + w).natAbs ≤ 2 ^ 24) :
    IsWhole (z + w) (x + y) := by
  refine isWhole_of_index (isNaN_add hx.isFinite hy.isNaN) ?_ h
  rw [index_add hx.isFinite hy.isFinite, hx.value_eq, hy.value_eq, Int.cast_add]

theorem sub (hx : IsWhole z x) (hy : IsWhole w y) (h : (z - w).natAbs ≤ 2 ^ 24) :
    IsWhole (z - w) (x - y) := by
  refine isWhole_of_index (isNaN_sub hx.isNaN hy.isFinite) ?_ h
  rw [index_sub hx.isFinite hy.isFinite, hx.value_eq, hy.value_eq, Int.cast_sub]

theorem mul (hx : IsWhole z x) (hy : IsWhole w y) (h : (z * w).natAbs ≤ 2 ^ 24) :
    IsWhole (z * w) (x * y) := by
  refine isWhole_of_index (isNaN_mul hx.isFinite hy.isFinite) ?_ h
  rw [index_mul hx.isFinite hy.isFinite, hx.value_eq, hy.value_eq, Int.cast_mul]

end IsWhole

theorem isWhole_ofInt {z : ℤ} (h : z.natAbs ≤ 2 ^ 24) : IsWhole z (ofInt z) := by
  cases z with
  | ofNat n => exact isWhole_ofNat h
  | negSucc n => exact (isWhole_ofNat (n := n + 1) h).neg

/-- What lies between whole numbers lies between them when it is rounded. -/
theorem rounded_between {x : Float32} {q : ℚ} (hx : x.isNaN = false) (hi : index x = nearest q)
    {n m : ℤ} (hn : n ≤ q) (hm : q ≤ m) (hn' : n.natAbs ≤ 2 ^ 24) (hm' : m.natAbs ≤ 2 ^ 24) :
    x.isFinite = true ∧ n ≤ value x ∧ value x ≤ m := by
  have hlo := le_rounded hi (onGrid_intCast hn') hn
  have hhi := rounded_le hi (onGrid_intCast hm') hm
  have hlow : (-2 ^ 24 : ℚ) ≤ n := by exact_mod_cast (by omega : -2 ^ 24 ≤ n)
  have hhigh : (m : ℚ) ≤ 2 ^ 24 := by exact_mod_cast (by omega : m ≤ 2 ^ 24)
  refine ⟨isFinite_of_abs_le hx (abs_le.mpr ?_), hlo, hhi⟩
  constructor <;> linarith

/-! ### Cutting the fraction off -/

theorem exists_int_of_large {x : Float32} (h : 2 ^ 23 ≤ |value x|) : ∃ z : ℤ, value x = z := by
  obtain ⟨m, s, hm, hn, hk⟩ := exists_mantissa (index x).natAbs
  have hu : (units (index x).natAbs : ℚ) = m * 2 ^ s := by
    rw [hk, units_of_mantissa hm hn, Nat.cast_mul, Nat.cast_pow, Nat.cast_two]
  have hs : 149 ≤ s := by
    by_contra hs
    rw [value, abs_grid, hu, le_div_iff₀ (by positivity)] at h
    have hm' : (m : ℚ) < 2 ^ 24 := by exact_mod_cast hm
    have hs' : (2 : ℚ) ^ s ≤ 2 ^ 148 := pow_le_pow_right₀ (by norm_num) (by omega)
    have : (m : ℚ) * 2 ^ s < 2 ^ 24 * 2 ^ 148 :=
      mul_lt_mul_of_lt_of_le_of_nonneg_of_pos hm' hs' (Nat.cast_nonneg m) (by positivity)
    linarith
  obtain ⟨j, rfl⟩ := Nat.exists_eq_add_of_le hs
  refine ⟨(index x).sign * (m * 2 ^ j), ?_⟩
  rw [value, grid, hu, pow_add]
  push_cast
  field_simp

theorem isNegative_iff (x : Float32) : isNegative x = true ↔ 2 ^ 31 ≤ x.toBits.toNat := by
  unfold isNegative
  rw [decide_eq_true_iff, UInt32.le_iff_toNat_le]
  rfl

theorem value_withSignOf (x y : Float32) :
    value (withSignOf x y) = if isNegative x then -value y else value y := by
  unfold withSignOf
  split
  · exact value_neg y
  · rfl

theorem isNaN_withSignOf (x y : Float32) : (withSignOf x y).isNaN = y.isNaN := by
  unfold withSignOf
  split
  · exact isNaN_neg y
  · rfl

theorem value_of_isNegative {x : Float32} (h : x.isNaN = false) :
    if isNegative x then value x ≤ 0 else 0 ≤ value x := by
  have hb := x.toBits.toNat_lt
  rw [value, index_eq_toBits h, ← grid_zero]
  split
  · rename_i hs
    rw [isNegative_iff] at hs
    rw [if_neg (by omega)]
    exact grid_strictMono.monotone (by omega)
  · rename_i hs
    rw [isNegative_iff] at hs
    rw [if_pos (by omega)]
    exact grid_strictMono.monotone (by omega)

theorem trunc_of_large {x : Float32} (h : x.isNaN = false) (hl : 2 ^ 23 ≤ |value x|) :
    trunc x = x := by
  have hn : ¬x.abs < 8388608 := by
    rw [lt_iff_value ((isNaN_abs x).trans h) rfl, value_wholeLimit, value_abs]
    exact not_lt.mpr hl
  rw [trunc, if_neg hn]

/-- Cutting off the fraction rounds towards zero. -/
theorem trunc_spec {x : Float32} (h : x.isNaN = false) :
    (trunc x).isNaN = false ∧ ∃ z : ℤ, value (trunc x) = z ∧
      (0 ≤ value x → z = ⌊value x⌋) ∧ (value x ≤ 0 → z = ⌈value x⌉) := by
  by_cases hl : 2 ^ 23 ≤ |value x|
  · obtain ⟨z, hz⟩ := exists_int_of_large hl
    rw [trunc_of_large h hl, hz, Int.floor_intCast, Int.ceil_intCast]
    exact ⟨h, z, rfl, fun _ => rfl, fun _ => rfl⟩
  · have ha : x.abs < 8388608 := by
      rw [lt_iff_value ((isNaN_abs x).trans h) rfl, value_wholeLimit, value_abs]
      exact not_le.mp hl
    have hb : ⌊|value x|⌋₊ < 2 ^ 23 := by
      rw [Nat.floor_lt (abs_nonneg _)]
      exact_mod_cast not_le.mp hl
    have hu : x.abs.toUInt32.toNat = ⌊|value x|⌋₊ := by
      rw [toNat_toUInt32 ((isNaN_abs x).trans h), value_abs]
      omega
    have hv : value x.abs.toUInt32.toFloat32 = ⌊|value x|⌋₊ := by
      have hi := index_toFloat32 x.abs.toUInt32
      rw [hu] at hi
      exact value_eq_of_onGrid hi (onGrid_natCast (by omega))
    have hsign := value_of_isNegative h
    rw [trunc, if_pos ha, isNaN_withSignOf, value_withSignOf, hv]
    refine ⟨isNaN_toFloat32 _, ?_⟩
    cases hs : isNegative x with
    | true =>
        rw [hs, if_pos rfl] at hsign
        have hf : ((⌊|value x|⌋₊ : ℕ) : ℤ) = -⌈value x⌉ := by
          rw [abs_of_nonpos hsign, Int.natCast_floor_eq_floor (neg_nonneg.mpr hsign), Int.floor_neg]
        refine ⟨⌈value x⌉, ?_, fun h0 => ?_, fun _ => rfl⟩
        · rw [if_pos rfl, ← Int.cast_natCast, hf, Int.cast_neg, neg_neg]
        · rw [le_antisymm hsign h0, Int.ceil_zero, Int.floor_zero]
    | false =>
        rw [hs, if_neg Bool.false_ne_true] at hsign
        have hf : ((⌊|value x|⌋₊ : ℕ) : ℤ) = ⌊value x⌋ := by
          rw [abs_of_nonneg hsign, Int.natCast_floor_eq_floor hsign]
        refine ⟨⌊value x⌋, ?_, fun _ => rfl, fun h0 => ?_⟩
        · rw [if_neg Bool.false_ne_true, ← Int.cast_natCast, hf]
        · rw [le_antisymm h0 hsign, Int.ceil_zero, Int.floor_zero]

/-! ### Whole neighbours -/

theorem abs_trunc_le {x : Float32} (h : x.isNaN = false) (hne : value (trunc x) ≠ value x) {z : ℤ}
    (hz : value (trunc x) = z) : z.natAbs ≤ 2 ^ 23 := by
  have hl : |value x| < 2 ^ 23 := by
    by_contra hl
    exact hne (congrArg value (trunc_of_large h (not_lt.mp hl)))
  obtain ⟨-, w, hw, hpos, hneg⟩ := trunc_spec h
  obtain rfl : z = w := by exact_mod_cast hz.symm.trans hw
  obtain ⟨hlo, hhi⟩ := abs_lt.mp hl
  rcases le_total 0 (value x) with h0 | h0
  · have h1 : 0 ≤ z := (hpos h0) ▸ Int.floor_nonneg.mpr h0
    have h2 : z < 2 ^ 23 := (hpos h0) ▸ Int.floor_lt.mpr (by exact_mod_cast hhi)
    omega
  · have h1 : z ≤ 0 := (hneg h0) ▸ Int.ceil_le.mpr (by exact_mod_cast h0)
    have h2 : -2 ^ 23 < z := (hneg h0) ▸ Int.lt_ceil.mpr (by exact_mod_cast hlo)
    omega

/-- The smallest whole number not below; infinities stay. -/
theorem ceil_spec {x : Float32} (h : x.isNaN = false) :
    (ceil x).isNaN = false ∧ value (ceil x) = (⌈value x⌉ : ℤ) := by
  obtain ⟨ht, z, hz, hpos, hneg⟩ := trunc_spec h
  unfold ceil
  dsimp only
  by_cases hlt : value (trunc x) < value x
  · rw [if_pos ((lt_iff_value ht h).mpr hlt)]
    have hb := abs_trunc_le h hlt.ne hz
    rw [hz] at hlt
    have hc : ⌈value x⌉ = z + 1 := by
      have h0 : 0 ≤ value x := by
        by_contra h0
        rw [hneg (not_le.mp h0).le] at hlt
        exact absurd (Int.le_ceil (value x)) (not_le.mpr hlt)
      have hu := Int.lt_floor_add_one (value x)
      rw [← hpos h0] at hu
      rw [Int.ceil_eq_iff]
      push_cast
      exact ⟨by linarith, hu.le⟩
    have hw := (isWhole_of_value ht hz hb).add isWhole_one (by omega)
    rw [hc]
    exact ⟨hw.isNaN, hw.value_eq⟩
  · rw [if_neg (mt (lt_iff_value ht h).mp hlt), hz]
    refine ⟨ht, congrArg Int.cast ?_⟩
    rw [hz, not_lt] at hlt
    rcases le_total (value x) 0 with h0 | h0
    · exact hneg h0
    · have hle := Int.floor_le (value x)
      rw [← hpos h0] at hle
      rw [le_antisymm hlt hle, Int.ceil_intCast]

/-- The largest whole number not above; infinities stay. -/
theorem floor_spec {x : Float32} (h : x.isNaN = false) :
    (floor x).isNaN = false ∧ value (floor x) = (⌊value x⌋ : ℤ) := by
  obtain ⟨ht, z, hz, hpos, hneg⟩ := trunc_spec h
  unfold floor
  dsimp only
  by_cases hlt : value x < value (trunc x)
  · rw [if_pos ((lt_iff_value h ht).mpr hlt)]
    have hb := abs_trunc_le h hlt.ne' hz
    rw [hz] at hlt
    have hc : ⌊value x⌋ = z - 1 := by
      have h0 : value x ≤ 0 := by
        by_contra h0
        rw [hpos (not_le.mp h0).le] at hlt
        exact absurd (Int.floor_le (value x)) (not_le.mpr hlt)
      have hu := Int.ceil_lt_add_one (value x)
      rw [← hneg h0] at hu
      rw [Int.floor_eq_iff]
      push_cast
      exact ⟨by linarith, by linarith⟩
    have hw := (isWhole_of_value ht hz hb).sub isWhole_one (by omega)
    rw [hc]
    exact ⟨hw.isNaN, hw.value_eq⟩
  · rw [if_neg (mt (lt_iff_value h ht).mp hlt), hz]
    refine ⟨ht, congrArg Int.cast ?_⟩
    rw [hz, not_lt] at hlt
    rcases le_total 0 (value x) with h0 | h0
    · exact hpos h0
    · have hle := Int.le_ceil (value x)
      rw [← hneg h0] at hle
      rw [le_antisymm hle hlt, Int.floor_intCast]

theorem trunc_between {x : Float32} (h : x.isNaN = false) {n m z : ℤ} (hn : n ≤ value x)
    (hm : value x ≤ m) (hz : value (trunc x) = z) : n ≤ z ∧ z ≤ m := by
  obtain ⟨-, w, hw, hpos, hneg⟩ := trunc_spec h
  obtain rfl : z = w := by exact_mod_cast hz.symm.trans hw
  rcases le_total 0 (value x) with h0 | h0
  · rw [hpos h0]
    exact ⟨Int.le_floor.mpr hn, Int.cast_le.mp ((Int.floor_le _).trans hm)⟩
  · rw [hneg h0]
    exact ⟨Int.cast_le.mp (hn.trans (Int.le_ceil _)), Int.ceil_le.mpr hm⟩

theorem isFinite_trunc {x : Float32} (h : x.isFinite = true) : (trunc x).isFinite = true := by
  have hx := isNaN_of_isFinite h
  obtain ⟨ht, z, hz, -⟩ := trunc_spec hx
  by_cases he : value (trunc x) = value x
  · have hi : index (trunc x) = index x := grid_strictMono.injective he
    rw [isFinite_iff, hi]
    exact ⟨ht, (isFinite_iff.mp h).2⟩
  · exact (isWhole_of_value ht hz (abs_trunc_le hx he hz)).isFinite

theorem trunc_ne_of_half {x : Float32} (h : x.isFinite = true)
    (hhalf : 1 / 2 ≤ |value (x - trunc x)|) : value (trunc x) ≠ value x := by
  intro he
  have h0 : value (x - trunc x) = 0 := by
    rw [value, index_sub h (isFinite_trunc h), he, sub_self, nearest_zero, grid_zero]
  rw [h0] at hhalf
  norm_num at hhalf

/-- The step that rounding goes away from the whole part. -/
def roundStep (x : Float32) : ℤ :=
  if 1 / 2 ≤ |value (x - trunc x)| then (if isNegative x then -1 else 1) else 0

/-- A number is rounded to its whole part or one step away from it. -/
theorem value_round {x : Float32} (h : x.isFinite = true) {z : ℤ} (hz : value (trunc x) = z) :
    (round x).isNaN = false ∧ value (round x) = (z + roundStep x : ℤ) := by
  have hx := isNaN_of_isFinite h
  have hf := isFinite_trunc h
  have hn : (x - trunc x).abs.isNaN = false := (isNaN_abs _).trans (isNaN_sub hx hf)
  have hiff : 0.5 ≤ (x - trunc x).abs ↔ 1 / 2 ≤ |value (x - trunc x)| := by
    rw [le_iff_value rfl hn, value_half, value_abs]
  unfold round roundStep withSignOf
  dsimp only
  by_cases hhalf : 1 / 2 ≤ |value (x - trunc x)|
  · have hb := abs_trunc_le hx (trunc_ne_of_half h hhalf) hz
    have hw := isWhole_of_value (isNaN_of_isFinite hf) hz hb
    rw [if_pos (hiff.mpr hhalf), if_pos hhalf]
    cases isNegative x with
    | true =>
        have hdown := hw.add isWhole_one.neg (by omega)
        exact ⟨hdown.isNaN, hdown.value_eq⟩
    | false =>
        have hup := hw.add isWhole_one (by omega)
        exact ⟨hup.isNaN, hup.value_eq⟩
  · rw [if_neg (mt hiff.mp hhalf), if_neg hhalf, add_zero]
    exact ⟨isNaN_of_isFinite hf, hz⟩

/-- Rounding does not go beyond a whole number. -/
theorem round_between {x : Float32} (h : x.isFinite = true) {n m : ℤ} (hn : n ≤ value x)
    (hm : value x ≤ m) :
    (round x).isNaN = false ∧ ∃ z : ℤ, value (round x) = z ∧ n ≤ z ∧ z ≤ m := by
  have hx := isNaN_of_isFinite h
  obtain ⟨-, z, hz, hpos, hneg⟩ := trunc_spec hx
  obtain ⟨hnz, hzm⟩ := trunc_between hx hn hm hz
  obtain ⟨hr, hv⟩ := value_round h hz
  refine ⟨hr, _, hv, ?_⟩
  unfold roundStep
  by_cases hhalf : 1 / 2 ≤ |value (x - trunc x)|
  · have hne := trunc_ne_of_half h hhalf
    have hsign := value_of_isNegative hx
    rw [hz] at hne
    rw [if_pos hhalf]
    cases hs : isNegative x with
    | true =>
        rw [hs, if_pos rfl] at hsign
        have hlt : value x < z := lt_of_le_of_ne (hneg hsign ▸ Int.le_ceil _) hne.symm
        have hnz : n < z := Int.cast_lt.mp (hn.trans_lt hlt)
        rw [if_pos rfl]
        omega
    | false =>
        rw [hs, if_neg Bool.false_ne_true] at hsign
        have hlt : z < value x := lt_of_le_of_ne (hpos hsign ▸ Int.floor_le _) hne
        have hzm : z < m := Int.cast_lt.mp (hlt.trans_le hm)
        rw [if_neg Bool.false_ne_true]
        omega
  · rw [if_neg hhalf]
    omega

theorem IsWhole.toInt32_round {x : Float32} {z : ℤ} (h : IsWhole z x) (hz : z.natAbs < 2 ^ 31) :
    toInt32 (round x) = z := by
  obtain ⟨hn, w, hw, hlo, hhi⟩ := round_between h.isFinite h.value_eq.ge h.value_eq.le
  obtain rfl : w = z := le_antisymm hhi hlo
  rw [toInt32_eq hn hw]
  omega

/-- A whole number of columns or rows is not below the rounded-up value exactly when it is not below
the integer made of that. -/
theorem toInt32_ceil_le_iff {x : Float32} (h : x.isNaN = false) {n : ℕ} (hn : n ≤ 2 ^ 24) :
    toInt32 (ceil x) ≤ n ↔ ceil x ≤ ofNat n := by
  obtain ⟨hc, hv⟩ := ceil_spec h
  have hq : ((⌈value x⌉ : ℤ) : ℚ) ≤ (n : ℕ) ↔ ⌈value x⌉ ≤ n := by
    rw [← Int.cast_natCast, Int.cast_le]
  rw [toInt32_eq hc hv, le_iff_value hc (isNaN_ofNat n), hv, value_ofNat hn, hq]
  omega

/-! ### NaN -/

/-- NaN counts as zero. -/
theorem toInt32_of_isNaN {x : Float32} (h : x.isNaN = true) : toInt32 x = 0 := by
  have h0 : x.toUInt64.toNat = 0 := by
    refine (toNat_ofNatClamp64 _).trans ?_
    rw [unpack_of_isNaN h]
    rfl
  unfold toInt32 toInt
  rw [if_neg (not_lt_of_isNaN (.inl h)), h0]
  rfl

/-- NaN is not rounded. -/
theorem ceil_of_isNaN {x : Float32} (h : x.isNaN = true) : ceil x = x := by
  have ht : trunc x = x := by
    unfold trunc
    rw [if_neg (not_lt_of_isNaN (.inl ((isNaN_abs x).trans h)))]
  unfold ceil
  dsimp only
  rw [ht, if_neg (not_lt_of_isNaN (.inl h))]

theorem clamp_of_isNaN {x : Float32} (h : x.isNaN = true) (lo hi : Float32) : clamp x lo hi = x := by
  unfold clamp
  dsimp only
  rw [if_neg (not_lt_of_isNaN (.inl h)), if_neg (not_lt_of_isNaN (.inr h))]

theorem isNaN_of_isNaN_clamp {x lo hi : Float32} (h : (clamp x lo hi).isNaN = false) :
    x.isNaN = false := by
  cases hx : x.isNaN with
  | false => rfl
  | true => rwa [clamp_of_isNaN hx, hx] at h

theorem lower_of_isNaN {a b : Float32} (ha : a.isNaN = true) (hb : b.isNaN = false) :
    lower a b = b := by
  have hlt : ¬a < b := not_lt_of_isNaN (.inl ha)
  unfold lower
  rw [decide_eq_false hlt, hb]
  rfl

/-! ### Choosing between singles -/

theorem lower_spec {a b : Float32} (ha : a.isNaN = false) (hb : b.isNaN = false) :
    (lower a b).isNaN = false ∧ value (lower a b) = min (value a) (value b) := by
  unfold lower
  rw [hb, Bool.or_false]
  by_cases h : a < b
  · rw [if_pos (decide_eq_true h)]
    exact ⟨ha, (min_eq_left ((lt_iff_value ha hb).mp h).le).symm⟩
  · rw [if_neg (by rwa [decide_eq_true_iff])]
    exact ⟨hb, (min_eq_right (not_lt.mp (mt (lt_iff_value ha hb).mpr h))).symm⟩

theorem upper_spec {a b : Float32} (ha : a.isNaN = false) (hb : b.isNaN = false) :
    (upper a b).isNaN = false ∧ value (upper a b) = max (value a) (value b) := by
  unfold upper
  rw [hb, Bool.or_false]
  by_cases h : b < a
  · rw [if_pos (decide_eq_true h)]
    exact ⟨ha, (max_eq_left ((lt_iff_value hb ha).mp h).le).symm⟩
  · rw [if_neg (by rwa [decide_eq_true_iff])]
    exact ⟨hb, (max_eq_right (not_lt.mp (mt (lt_iff_value hb ha).mpr h))).symm⟩

theorem lower_eq_or (a b : Float32) : lower a b = a ∨ lower a b = b := by
  unfold lower
  split
  · exact .inl rfl
  · exact .inr rfl

theorem upper_eq_or (a b : Float32) : upper a b = a ∨ upper a b = b := by
  unfold upper
  split
  · exact .inl rfl
  · exact .inr rfl

/-- Clamping gives the middle one of three numbers. -/
theorem clamp_spec {x lo hi : Float32} (hx : x.isNaN = false) (hlo : lo.isNaN = false)
    (hhi : hi.isNaN = false) (h : value lo ≤ value hi) :
    (clamp x lo hi).isNaN = false ∧
      value (clamp x lo hi) = max (value lo) (min (value x) (value hi)) := by
  unfold clamp
  dsimp only
  by_cases hl : x < lo
  · have hle : ¬hi < lo := by
      rw [lt_iff_value hhi hlo]
      exact h.not_gt
    have hl := (lt_iff_value hx hlo).mp hl
    rw [if_pos ‹x < lo›, if_neg hle, min_eq_left (hl.le.trans h), max_eq_left hl.le]
    exact ⟨hlo, rfl⟩
  · have hl' := mt (lt_iff_value hx hlo).mpr hl
    rw [if_neg hl]
    by_cases hh : hi < x
    · have hh' := (lt_iff_value hhi hx).mp hh
      rw [if_pos hh, min_eq_right hh'.le, max_eq_right h]
      exact ⟨hhi, rfl⟩
    · have hh' := mt (lt_iff_value hhi hx).mpr hh
      rw [if_neg hh, min_eq_left (not_lt.mp hh'), max_eq_right (not_lt.mp hl')]
      exact ⟨hx, rfl⟩

theorem clamp_of_between {x lo hi : Float32} (hlo : ¬x < lo) (hhi : ¬hi < x) :
    clamp x lo hi = x := by
  unfold clamp
  dsimp only
  rw [if_neg hlo, if_neg hhi]

/-- Between finite bounds clamping gives a finite number between them. -/
theorem clamp_between {x lo hi : Float32} (hx : x.isNaN = false) (hlo : lo.isFinite = true)
    (hhi : hi.isFinite = true) (h : value lo ≤ value hi) :
    (clamp x lo hi).isFinite = true ∧ value lo ≤ value (clamp x lo hi) ∧
      value (clamp x lo hi) ≤ value hi := by
  obtain ⟨hn, hv⟩ := clamp_spec hx (isNaN_of_isFinite hlo) (isNaN_of_isFinite hhi) h
  have hl : value lo ≤ value (clamp x lo hi) := hv ▸ le_max_left _ _
  have hu : value (clamp x lo hi) ≤ value hi := hv ▸ max_le h (min_le_right _ _)
  exact ⟨isFinite_of_between hn hlo hhi hl hu, hl, hu⟩

end DriveOverlay.Single
