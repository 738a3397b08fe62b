import DriveOverlay.Proofs.Single.Rounding

/-! # Arithmetic of singles

Sums, differences and products of finite singles are rounded to the nearest single.  Of quotients it
is only said when they are numbers.

* `index_add`, `index_sub`, `index_mul`: the result is the nearest single to the exact one;
* `index_sub_mono`: subtracting a finite number keeps the order, also that of infinities;
* `index_sub_le_sub`: differences of finite numbers keep the order of both operands;
* `index_sub_ne_zero`: different numbers do not have the difference zero;
* `isNaN_add`, `isNaN_mul`, `isNaN_div`: where NaN cannot come from. -/

namespace DriveOverlay.Single

open Float.Model (Format UnpackedFloat totalExponent)
open Float.Model.UnpackedFloat

/-! ### Unpacked sums -/

theorem grid_indexOf_finite {s : Sign} {m : ℕ} {e : ℤ} {h : 0 < m}
    (hx : Canonical (.finite s m e h)) :
    grid (indexOf (.finite s m e h)) = (s.apply m : ℤ) * (2 : ℚ) ^ e := by
  obtain ⟨hm, he, hn⟩ := hx
  have hu : grid ((e + 149).toNat * 2 ^ 23 + m : ℕ) = m * (2 : ℚ) ^ e := by
    have hp : (2 : ℚ) ^ e = 2 ^ (e + 149).toNat / 2 ^ 149 := by
      rw [← zpow_natCast, ← zpow_natCast, ← zpow_sub₀ two_ne_zero]
      congr 1
      omega
    rw [grid_natCast, units_of_mantissa hm (by omega), hp]
    push_cast
    ring
  cases s with
  | positive => exact hu
  | negative =>
      rw [indexOf_finite, Sign.apply, Sign.apply, grid_neg, hu, Int.cast_neg, Int.cast_natCast, neg_mul]

theorem shiftLeft_value (s : Sign) (m : ℕ) {e t : ℤ} (h : t ≤ e) :
    ((s.apply (m <<< (e - t).toNat : ℕ) : ℤ) : ℚ) * 2 ^ t = (s.apply m : ℤ) * 2 ^ e := by
  have hp : (2 : ℚ) ^ e = 2 ^ (e - t).toNat * 2 ^ t := by
    rw [← zpow_natCast, ← zpow_add₀ two_ne_zero]
    congr 1
    omega
  rw [hp, Nat.shiftLeft_eq]
  cases s <;>
  · simp only [Sign.apply]
    push_cast
    ring

theorem IsSingle.packsTo {x : UnpackedFloat} (hx : IsSingle x) (hn : x.isNaN = false) :
    PacksTo x (nearest (grid (indexOf x))) := by
  refine ⟨hx.canonical, hn, ?_⟩
  rw [hx.saturate_eq, nearest_grid hx.natAbs_indexOf_le]

theorem add_packsTo {x y : UnpackedFloat} (hx : IsSingle x) (hy : IsSingle y)
    (fx : x.isFinite = true) (fy : y.isFinite = true) :
    PacksTo (add Format.binary32 x y) (nearest (grid (indexOf x) + grid (indexOf y))) := by
  cases x with
  | notANumber => cases fx
  | infinity s => cases fx
  | zero s =>
      rw [indexOf_zero, grid_zero, zero_add]
      cases y with
      | notANumber => cases fy
      | infinity t => cases fy
      | zero t =>
          rw [indexOf_zero, grid_zero, nearest_zero]
          cases s <;> cases t <;> exact packsTo_zero _
      | finite t n f h => exact hy.packsTo rfl
  | finite s m e h =>
      cases y with
      | notANumber => cases fy
      | infinity t => cases fy
      | zero t =>
          rw [indexOf_zero t, grid_zero, add_zero]
          exact hx.packsTo rfl
      | finite t n f h' =>
          refine normalize_spec _ (min e f) .positive ?_
          rw [Int.cast_add, add_mul, shiftLeft_value s m (min_le_left e f),
            shiftLeft_value t n (min_le_right e f), grid_indexOf_finite hx.canonical,
            grid_indexOf_finite hy.canonical]

/-! ### Unpacked signs -/

theorem canonical_neg {x : UnpackedFloat} (hx : Canonical x) : Canonical x.neg := by
  cases x <;> exact hx

theorem isSingle_neg {x : UnpackedFloat} (hx : IsSingle x) : IsSingle x.neg := by
  refine ⟨canonical_neg hx.canonical, ?_⟩
  cases x with
  | finite s m e h =>
      have := hx.index_lt
      have hn := hx.canonical.2.2
      unfold infinityIndex at this
      exact saturate_of_le (by omega)
  | _ => rfl

@[simp] theorem isNaN_unpacked_neg (x : UnpackedFloat) : x.neg.isNaN = x.isNaN := by
  cases x <;> rfl

@[simp] theorem isFinite_unpacked_neg (x : UnpackedFloat) : x.neg.isFinite = x.isFinite := by
  cases x <;> rfl

theorem indexOf_neg (x : UnpackedFloat) : indexOf x.neg = -indexOf x := by
  cases x with
  | infinity s => cases s <;> rfl
  | finite s m e h =>
      cases s with
      | negative => exact (neg_neg _).symm
      | positive => rfl
  | _ => rfl

theorem sub_eq_add_neg_unpacked {f : Format} (x y : UnpackedFloat) :
    sub f x y = add f x y.neg := by
  have flip (t : Sign) (k l : ℤ) : k - t.apply l = k + (-t).apply l := by
    cases t with
    | negative => exact sub_neg_eq_add k l
    | positive => exact sub_eq_add_neg k l
  cases x with
  | finite s m e h =>
      cases y with
      | finite t n f h' => exact congrArg (UnpackedFloat.normalize _ · _ _) (flip t _ _)
      | _ => rfl
  | _ => cases y <;> rfl

/-! ### Signs of singles -/

@[simp] theorem isNaN_neg (x : Float32) : (-x).isNaN = x.isNaN :=
  (isNaN_ofModel_pack _).trans (isNaN_unpacked_neg _)

theorem index_neg (x : Float32) : index (-x) = -index x := by
  have hx := isSingle_neg (isSingle_unpack x.toModel)
  refine (index_ofModel_pack hx.canonical).trans ?_
  rw [hx.saturate_eq, indexOf_neg]
  rfl

theorem value_neg (x : Float32) : value (-x) = -value x := by
  rw [value, index_neg, grid_neg, value]

theorem isSingle_abs {x : UnpackedFloat} (hx : IsSingle x) : IsSingle x.abs := by
  cases x with
  | finite s m e h =>
      cases s with
      | positive => exact hx
      | negative => exact isSingle_neg hx
  | _ => exact ⟨trivial, rfl⟩

theorem indexOf_abs (x : UnpackedFloat) : indexOf x.abs = |indexOf x| := by
  rw [Int.abs_eq_natAbs]
  cases x with
  | infinity s => cases s <;> rfl
  | finite s m e h => rw [indexOf_finite, natAbs_apply]; rfl
  | _ => rfl

@[simp] theorem isNaN_abs (x : Float32) : x.abs.isNaN = x.isNaN := by
  refine (isNaN_ofModel_pack _).trans ?_
  change _ = x.toModel.unpack.isNaN
  cases x.toModel.unpack <;> rfl

theorem index_abs (x : Float32) : index x.abs = |index x| := by
  have hx := isSingle_abs (isSingle_unpack x.toModel)
  refine (index_ofModel_pack hx.canonical).trans ?_
  rw [hx.saturate_eq, indexOf_abs]
  rfl

theorem value_abs (x : Float32) : value x.abs = |value x| := by
  rw [value, index_abs]
  rcases le_total 0 (index x) with h | h
  · have := grid_strictMono.monotone h
    rw [abs_of_nonneg h, value, abs_of_nonneg (by rwa [grid_zero] at this)]
  · have := grid_strictMono.monotone h
    rw [abs_of_nonpos h, grid_neg, value, abs_of_nonpos (by rwa [grid_zero] at this)]

/-! ### Comparisons -/

theorem lt_iff_value {a b : Float32} (ha : a.isNaN = false) (hb : b.isNaN = false) :
    a < b ↔ value a < value b := by
  rw [lt_iff, value, value, grid_strictMono.lt_iff_lt]
  exact ⟨fun h => h.2.2, fun h => ⟨ha, hb, h⟩⟩

theorem le_iff_value {a b : Float32} (ha : a.isNaN = false) (hb : b.isNaN = false) :
    a ≤ b ↔ value a ≤ value b := by
  rw [le_iff, value, value, grid_strictMono.le_iff_le]
  exact ⟨fun h => h.2.2, fun h => ⟨ha, hb, h⟩⟩

theorem not_lt_of_isNaN {x y : Float32} (h : x.isNaN = true ∨ y.isNaN = true) : ¬x < y := by
  intro hlt
  obtain ⟨hx, hy, -⟩ := lt_iff.mp hlt
  rcases h with h | h
  · rw [hx] at h
    cases h
  · rw [hy] at h
    cases h

theorem isFinite_of_abs_le {x : Float32} (h : x.isNaN = false) (hx : |value x| ≤ 2 ^ 127) :
    x.isFinite = true := by
  have hlt : (units (index x).natAbs : ℚ) < units infinityIndex := by
    rw [value, abs_grid, div_le_iff₀ (by positivity)] at hx
    rw [units_infinityIndex]
    push_cast
    linarith
  exact isFinite_iff.mpr ⟨h, units_strictMono.lt_iff_lt.mp (by exact_mod_cast hlt)⟩

theorem isFinite_of_between {x lo hi : Float32} (hx : x.isNaN = false) (hlo : lo.isFinite = true)
    (hhi : hi.isFinite = true) (hl : value lo ≤ value x) (hu : value x ≤ value hi) :
    x.isFinite = true := by
  have hl := grid_strictMono.le_iff_le.mp hl
  have hu := grid_strictMono.le_iff_le.mp hu
  have hlo := (isFinite_iff.mp hlo).2
  have hhi := (isFinite_iff.mp hhi).2
  exact isFinite_iff.mpr ⟨hx, by omega⟩

theorem index_ne_zero {x : Float32} (h : value x ≠ 0) : index x ≠ 0 := by
  intro h0
  rw [value, h0, grid_zero] at h
  exact h rfl

theorem value_nonneg {a : Float32} (h : 0 ≤ index a) : 0 ≤ value a :=
  grid_nonneg h

/-! ### Rounded results -/

section

variable {x y : Float32} {q r : ℚ}

theorem rounded_mono (hx : index x = nearest q) (hy : index y = nearest r) (h : q ≤ r) :
    value x ≤ value y := by
  rw [value, value, hx, hy]
  exact grid_strictMono.monotone (nearest_mono h)

theorem le_rounded (hx : index x = nearest q) (hr : OnGrid r) (h : r ≤ q) : r ≤ value x := by
  have := grid_strictMono.monotone (nearest_mono h)
  rwa [hr.grid_nearest, ← hx] at this

theorem rounded_le (hx : index x = nearest q) (hr : OnGrid r) (h : q ≤ r) : value x ≤ r := by
  have := grid_strictMono.monotone (nearest_mono h)
  rwa [hr.grid_nearest, ← hx] at this

theorem rounded_nonneg (hx : index x = nearest q) (h : 0 ≤ q) : 0 ≤ index x := by
  rw [hx, ← nearest_zero]
  exact nearest_mono h

end

/-! ### Sums and differences -/

/-- A sum is rounded to the nearest single. -/
theorem index_add {a b : Float32} (ha : a.isFinite = true) (hb : b.isFinite = true) :
    index (a + b) = nearest (value a + value b) :=
  (add_packsTo (isSingle_unpack _) (isSingle_unpack _) ha hb).index_eq

/-- A difference is rounded to the nearest single. -/
theorem index_sub {a b : Float32} (ha : a.isFinite = true) (hb : b.isFinite = true) :
    index (a - b) = nearest (value a - value b) := by
  have h := add_packsTo (isSingle_unpack a.toModel) (isSingle_neg (isSingle_unpack b.toModel)) ha
    ((isFinite_unpacked_neg _).trans hb)
  rw [← sub_eq_add_neg_unpacked, indexOf_neg, grid_neg, ← sub_eq_add_neg] at h
  exact h.index_eq

theorem value_eq_of_onGrid {x : Float32} {q : ℚ} (h : index x = nearest q) (hq : OnGrid q) :
    value x = q := by
  rw [value, h, hq.grid_nearest]

theorem isFinite_of_onGrid {x : Float32} {q : ℚ} (hn : x.isNaN = false) (h : index x = nearest q)
    (hq : OnGrid q) : x.isFinite = true := by
  rw [isFinite_iff, h]
  exact ⟨hn, hq.natAbs_nearest_lt⟩

/-! ### Products -/

theorem nearest_apply (s : Sign) {q r : ℚ} (hr : 0 ≤ r) (hq : q = (s.apply 1 : ℤ) * r) :
    nearest q = s.apply (min infinityIndex (nearestIndex (r * 2 ^ 149)) : ℕ) := by
  subst hq
  cases s with
  | positive => rw [Sign.apply, Int.cast_one, one_mul, nearest_of_nonneg hr, Sign.apply]
  | negative =>
      rw [Sign.apply, Int.cast_neg, Int.cast_one, neg_one_mul, nearest_neg, nearest_of_nonneg hr,
        Sign.apply]

theorem apply_mul_one (s t : Sign) : (s * t).apply 1 = s.apply 1 * t.apply 1 := by
  cases s <;> cases t <;> rfl

theorem apply_eq_one_mul (s : Sign) (m : ℤ) : s.apply m = s.apply 1 * m := by
  cases s <;> simp [Sign.apply]

theorem mul_exponent_le {s t : Sign} {m n : ℕ} {e f : ℤ} {hm : 0 < m} {hn : 0 < n}
    (hx : Canonical (.finite s m e hm)) (hy : Canonical (.finite t n f hn)) :
    e + f ≤ Format.binary32.targetExponent (totalExponent (m * n) (e + f)) := by
  obtain ⟨-, -, hx⟩ := hx
  obtain ⟨-, -, hy⟩ := hy
  rw [targetExponent_eq, totalExponent]
  by_cases h : 2 ^ 23 ≤ m * n
  · have := (Nat.le_log2 (Nat.mul_pos hm hn).ne').mpr h
    omega
  · have := Nat.le_mul_of_pos_right m hn
    have := Nat.le_mul_of_pos_left n hm
    omega

theorem mul_packsTo {x y : UnpackedFloat} (hx : IsSingle x) (hy : IsSingle y)
    (fx : x.isFinite = true) (fy : y.isFinite = true) :
    PacksTo (mul Format.binary32 x y) (nearest (grid (indexOf x) * grid (indexOf y))) := by
  cases x with
  | notANumber => cases fx
  | infinity s => cases fx
  | zero s =>
      rw [indexOf_zero, grid_zero, zero_mul, nearest_zero]
      cases y with
      | notANumber => cases fy
      | infinity t => cases fy
      | _ => exact packsTo_zero _
  | finite s m e h =>
      cases y with
      | notANumber => cases fy
      | infinity t => cases fy
      | zero t =>
          rw [indexOf_zero t, grid_zero, mul_zero, nearest_zero]
          exact packsTo_zero _
      | finite t n f h' =>
          have hq : grid (indexOf (.finite s m e h)) * grid (indexOf (.finite t n f h')) =
              ((s * t).apply 1 : ℤ) * ((m * n : ℕ) * (2 : ℚ) ^ (e + f)) := by
            rw [grid_indexOf_finite hx.canonical, grid_indexOf_finite hy.canonical,
              apply_eq_one_mul s, apply_eq_one_mul t, apply_mul_one, zpow_add₀ two_ne_zero]
            push_cast
            ring
          have hpos : (0 : ℚ) ≤ (m * n : ℕ) * (2 : ℚ) ^ (e + f) :=
            mul_nonneg (Nat.cast_nonneg _) (zpow_pos two_pos _).le
          rw [nearest_apply (s * t) hpos hq]
          refine roundWithAccuracy_spec (s * t) (describes_exact _)
            (mul_exponent_le hx.canonical hy.canonical) ?_
          rw [zpow_add₀ two_ne_zero (e + f), mul_assoc]
          rfl

/-- A product is rounded to the nearest single. -/
theorem index_mul {a b : Float32} (ha : a.isFinite = true) (hb : b.isFinite = true) :
    index (a * b) = nearest (value a * value b) :=
  (mul_packsTo (isSingle_unpack _) (isSingle_unpack _) ha hb).index_eq

/-! ### Numbers -/

theorem isNaN_add_unpacked {x y : UnpackedFloat} (hx : x.isNaN = false) (hy : y.isNaN = false)
    (hf : x.isFinite = true ∨ y.isFinite = true) : (add Format.binary32 x y).isNaN = false := by
  cases x with
  | notANumber => cases hx
  | infinity s =>
      cases y with
      | notANumber => cases hy
      | infinity t => rcases hf with hf | hf <;> cases hf
      | _ => rfl
  | zero s =>
      cases y with
      | notANumber => cases hy
      | zero t => cases s <;> cases t <;> rfl
      | _ => rfl
  | finite s m e h =>
      cases y with
      | notANumber => cases hy
      | finite t n f h' => exact (normalize_spec _ _ _ rfl).isNaN_eq
      | _ => rfl

theorem isNaN_of_isFinite {x : Float32} (h : x.isFinite = true) : x.isNaN = false :=
  (isFinite_iff.mp h).1

theorem unpack_of_isNaN {x : Float32} (h : x.isNaN = true) : x.toModel.unpack = .notANumber := by
  change x.toModel.unpack.isNaN = true at h
  cases hx : x.toModel.unpack with
  | notANumber => rfl
  | infinity s => rw [hx] at h; cases h
  | zero s => rw [hx] at h; cases h
  | finite s m e hm => rw [hx] at h; cases h

theorem isNaN_add {a b : Float32} (ha : a.isFinite = true) (hb : b.isNaN = false) :
    (a + b).isNaN = false :=
  (isNaN_ofModel_pack _).trans (isNaN_add_unpacked (isNaN_of_isFinite ha) hb (.inl ha))

theorem isNaN_sub {a b : Float32} (ha : a.isNaN = false) (hb : b.isFinite = true) :
    (a - b).isNaN = false := by
  refine (isNaN_ofModel_pack _).trans ?_
  rw [sub_eq_add_neg_unpacked]
  refine isNaN_add_unpacked ha ?_ (.inr ?_)
  · rw [isNaN_unpacked_neg]
    exact isNaN_of_isFinite hb
  · rw [isFinite_unpacked_neg]
    exact hb

theorem isNaN_roundWithAccuracy (s : Sign) (m : ℕ) (e : ℤ) (acc : Accuracy) :
    (roundWithAccuracy Format.binary32 s m e acc).isNaN = false := by
  unfold roundWithAccuracy
  dsimp only
  generalize shiftToTargetExponent Format.binary32 _ _ .exact = r
  by_cases h : r.1.mantissa = 0
  · rw [dif_pos h]
    rfl
  · rw [dif_neg h]
    rfl

theorem isNaN_mul_unpacked {x y : UnpackedFloat} (hx : x.isFinite = true)
    (hy : y.isFinite = true) : (mul Format.binary32 x y).isNaN = false := by
  cases x with
  | notANumber => cases hx
  | infinity s => cases hx
  | zero s =>
      cases y with
      | notANumber => cases hy
      | infinity t => cases hy
      | _ => rfl
  | finite s m e h =>
      cases y with
      | notANumber => cases hy
      | infinity t => cases hy
      | zero t => rfl
      | finite t n f h' => exact isNaN_roundWithAccuracy _ _ _ _

theorem isNaN_mul {a b : Float32} (ha : a.isFinite = true) (hb : b.isFinite = true) :
    (a * b).isNaN = false :=
  (isNaN_ofModel_pack _).trans (isNaN_mul_unpacked ha hb)

theorem isNaN_div_unpacked {x y : UnpackedFloat} (hx : x.isNaN = false) (hy : y.isFinite = true)
    (h0 : indexOf y ≠ 0) : (div Format.binary32 x y).isNaN = false := by
  cases y with
  | notANumber => cases hy
  | infinity t => cases hy
  | zero t => exact absurd rfl h0
  | finite t n f h' =>
      cases x with
      | notANumber => cases hx
      | finite s m e h => exact isNaN_roundWithAccuracy _ _ _ _
      | _ => rfl

/-- A number divided by one that is finite and not zero is a number. -/
theorem isNaN_div {a b : Float32} (ha : a.isNaN = false) (hb : b.isFinite = true)
    (h0 : index b ≠ 0) : (a / b).isNaN = false :=
  (isNaN_ofModel_pack _).trans (isNaN_div_unpacked ha hb h0)

/-! ### Infinities and bounds -/

theorem natAbs_index_of_infinite {x : Float32} (h : x.isNaN = false) (h' : x.isFinite = false) :
    (index x).natAbs = infinityIndex := by
  have hle := natAbs_index_le x
  have hn : ¬(index x).natAbs < infinityIndex := fun hlt => by
    rw [isFinite_iff.mpr ⟨h, hlt⟩] at h'
    cases h'
  omega

theorem sub_of_infinite {x y : UnpackedFloat} (hx : x.isNaN = false) (hx' : x.isFinite = false)
    (hy : y.isFinite = true) : sub Format.binary32 x y = x := by
  cases x with
  | infinity s =>
      cases y with
      | notANumber => cases hy
      | infinity t => cases hy
      | _ => rfl
  | notANumber => cases hx
  | zero s => cases hx'
  | finite s m e h => cases hx'

theorem index_sub_of_infinite {a b : Float32} (ha : a.isNaN = false) (ha' : a.isFinite = false)
    (hb : b.isFinite = true) : index (a - b) = index a := by
  have hs := isSingle_unpack a.toModel
  have e : a - b = .ofModel (.pack a.toModel.unpack) :=
    congrArg (fun x => Float32.ofModel (.pack x)) (sub_of_infinite ha ha' hb)
  rw [e, index_ofModel_pack hs.canonical, hs.saturate_eq]
  rfl

theorem index_mono_of_finite {g : Float32 → Float32}
    (hinf : ∀ x : Float32, x.isNaN = false → x.isFinite = false → index (g x) = index x)
    (hfin : ∀ x y : Float32, x.isFinite = true → y.isFinite = true → index x ≤ index y →
      index (g x) ≤ index (g y))
    {a b : Float32} (ha : a.isNaN = false) (hb : b.isNaN = false) (h : index a ≤ index b) :
    index (g a) ≤ index (g b) := by
  have hal := natAbs_index_le (g a)
  have hbl := natAbs_index_le (g b)
  cases ha' : a.isFinite with
  | true =>
      cases hb' : b.isFinite with
      | true => exact hfin a b ha' hb' h
      | false =>
          have hlt := (isFinite_iff.mp ha').2
          have heq := natAbs_index_of_infinite hb hb'
          rw [hinf b hb hb']
          omega
  | false =>
      have heq := natAbs_index_of_infinite ha ha'
      have hle := natAbs_index_le b
      rw [hinf a ha ha']
      cases hb' : b.isFinite with
      | true =>
          have hlt := (isFinite_iff.mp hb').2
          omega
      | false => rwa [hinf b hb hb']

/-- Subtracting a finite number keeps the order. -/
theorem index_sub_mono {a b c : Float32} (ha : a.isNaN = false) (hb : b.isNaN = false)
    (hc : c.isFinite = true) (h : index a ≤ index b) : index (a - c) ≤ index (b - c) := by
  refine index_mono_of_finite (g := fun x => x - c) ?_ ?_ ha hb h
  · intro x hx hx'
    exact index_sub_of_infinite hx hx' hc
  · intro x y hx hy hxy
    rw [index_sub hx hc, index_sub hy hc]
    exact nearest_mono (sub_le_sub_right (grid_strictMono.monotone hxy) _)

/-- Differences of finite numbers keep the order of both operands. -/
theorem index_sub_le_sub {a a' b b' : Float32} (ha : a.isFinite = true) (ha' : a'.isFinite = true)
    (hb : b.isFinite = true) (hb' : b'.isFinite = true) (h : value a ≤ value a')
    (h' : value b' ≤ value b) : index (a - b) ≤ index (a' - b') := by
  rw [index_sub ha hb, index_sub ha' hb']
  exact nearest_mono (sub_le_sub h h')

theorem isFinite_sub {a b : Float32} (ha : a.isFinite = true) (hb : b.isFinite = true)
    (ha' : |value a| ≤ 2 ^ 126) (hb' : |value b| ≤ 2 ^ 126) : (a - b).isFinite = true := by
  rw [isFinite_iff, index_sub ha hb]
  refine ⟨isNaN_sub (isNaN_of_isFinite ha) hb, natAbs_nearest_lt ?_⟩
  have := abs_sub (value a) (value b)
  linarith

/-- Different numbers do not have the difference zero. -/
theorem index_sub_ne_zero {a b : Float32} (ha : a.isFinite = true) (hb : b.isFinite = true)
    (h : index a ≠ index b) : index (a - b) ≠ 0 := by
  rw [index_sub ha hb, value, value]
  rcases lt_or_gt_of_ne h with hlt | hgt
  · have := nearest_sub_pos hlt
    rw [← neg_sub, nearest_neg]
    omega
  · have := nearest_sub_pos hgt
    omega

end DriveOverlay.Single
