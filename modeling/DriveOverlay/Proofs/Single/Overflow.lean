import DriveOverlay.Proofs.Single.Division
import DriveOverlay.Proofs.Single.Magnitude

/-! # Results that may be infinite

Finite operands can have an infinite result, and the next operation then starts from an infinity.
What is said of the operations here holds for infinities as well, which count as the first values
that are too large.

* `isNaN_add_right`, `isNaN_mul_left`: what makes no NaN of a number, finite or not;
* `isFinite_of_add`, `isFinite_of_sub`, `isFinite_of_mul`: finite results have finite operands;
* `within_of_index`, `Within.div`, `IsWhole.within_div`: a bound on an exact result bounds the rounded
  one, and with it quotients;
* `index_add_of_nonneg`: a sum of numbers without a minus sign is rounded to the nearest single, also
  when it overflows. -/

namespace DriveOverlay.Single

open Float.Model (Format UnpackedFloat)
open Float.Model.UnpackedFloat

variable {j k : ℤ} {q : ℚ}

/-! ### Numbers -/

/-- A finite number added to a number. -/
theorem isNaN_add_right {a b : Float32} (ha : a.isNaN = false) (hb : b.isFinite = true) :
    (a + b).isNaN = false :=
  (isNaN_ofModel_pack _).trans (isNaN_add_unpacked ha (isNaN_of_isFinite hb) (.inr hb))

theorem isNaN_mul_unpacked_of_ne_zero {x y : UnpackedFloat} (hx : x.isNaN = false)
    (hy : y.isFinite = true) (h0 : indexOf y ≠ 0) : (mul Format.binary32 x y).isNaN = false := by
  cases y with
  | notANumber => cases hy
  | infinity t => cases hy
  | zero t => exact absurd rfl h0
  | finite t n f h' =>
      cases x with
      | notANumber => cases hx
      | finite s m e h => exact isNaN_roundWithAccuracy _ _ _ _
      | _ => rfl

/-- A number times one that is finite and not zero. -/
theorem isNaN_mul_left {a b : Float32} (ha : a.isNaN = false) (hb : b.isFinite = true)
    (h0 : index b ≠ 0) : (a * b).isNaN = false :=
  (isNaN_ofModel_pack _).trans (isNaN_mul_unpacked_of_ne_zero ha hb h0)

/-! ### Finite results -/

theorem isFinite_of_isFinite_pack {x : UnpackedFloat}
    (h : (Float32.ofModel (.pack x)).isFinite = true) : x.isFinite = true := by
  change (Float32.Model.pack x).unpack.isFinite = true at h
  cases x with
  | notANumber => rw [unpack_pack (x := .notANumber) trivial] at h; cases h
  | infinity s => rw [unpack_pack (x := .infinity s) trivial] at h; cases h
  | zero s => rfl
  | finite s m e hm => rfl

theorem isFinite_of_add_unpacked {x y : UnpackedFloat}
    (h : (add Format.binary32 x y).isFinite = true) : x.isFinite = true ∧ y.isFinite = true := by
  cases x with
  | notANumber => cases h
  | infinity s =>
      cases y with
      | infinity t =>
          unfold add at h
          dsimp only at h
          split at h <;> cases h
      | _ => cases h
  | _ =>
      cases y with
      | notANumber => cases h
      | infinity t => cases h
      | _ => exact ⟨rfl, rfl⟩

theorem isFinite_of_mul_unpacked {x y : UnpackedFloat}
    (h : (mul Format.binary32 x y).isFinite = true) : x.isFinite = true ∧ y.isFinite = true := by
  cases x with
  | notANumber => cases h
  | infinity s => cases y <;> cases h
  | _ =>
      cases y with
      | notANumber => cases h
      | infinity t => cases h
      | _ => exact ⟨rfl, rfl⟩

section

variable {a b : Float32}

/-- A sum is only finite when its summands are. -/
theorem isFinite_of_add (h : (a + b).isFinite = true) :
    a.isFinite = true ∧ b.isFinite = true :=
  isFinite_of_add_unpacked (isFinite_of_isFinite_pack h)

theorem isFinite_of_sub (h : (a - b).isFinite = true) :
    a.isFinite = true ∧ b.isFinite = true := by
  have hsub := isFinite_of_isFinite_pack h
  rw [sub_eq_add_neg_unpacked] at hsub
  obtain ⟨ha, hb⟩ := isFinite_of_add_unpacked hsub
  exact ⟨ha, (isFinite_unpacked_neg _).symm.trans hb⟩

/-- A product is only finite when its factors are. -/
theorem isFinite_of_mul (h : (a * b).isFinite = true) :
    a.isFinite = true ∧ b.isFinite = true :=
  isFinite_of_mul_unpacked (isFinite_of_isFinite_pack h)

end

theorem isFinite_of_index_between {lo x hi : Float32} (hx : x.isNaN = false)
    (hlo : lo.isFinite = true) (hhi : hi.isFinite = true) (hl : index lo ≤ index x)
    (hu : index x ≤ index hi) : x.isFinite = true :=
  isFinite_of_between hx hlo hhi (grid_strictMono.monotone hl) (grid_strictMono.monotone hu)

/-! ### Bounds -/

theorem onGrid_two_zpow (hlo : -149 ≤ k) (hhi : k ≤ 127) : OnGrid ((2 : ℚ) ^ k) := by
  obtain ⟨i, s, hs, hi, e⟩ : ∃ i s : ℕ, s ≤ 252 ∧ i ≤ 24 ∧ k = i + s - 149 :=
    ⟨(k + 149).toNat - min 252 (k + 149).toNat, min 252 (k + 149).toNat, by omega, by omega, by omega⟩
  have hp : (2 : ℚ) ^ k = (2 ^ i : ℕ) * 2 ^ s / 2 ^ 149 := by
    rw [e, zpow_sub₀ two_ne_zero, zpow_add₀ two_ne_zero]
    push_cast
    rfl
  rw [hp]
  exact onGrid_of_mantissa (Nat.pow_le_pow_right two_pos hi) hs

/-- A bound on the exact result bounds the rounded one. -/
theorem within_of_index {x : Float32} (hx : x.isNaN = false) (hi : index x = nearest q)
    (hq : |q| ≤ 2 ^ k) (hlo : -149 ≤ k) (hhi : k ≤ 127) : Within k x := by
  have hg := onGrid_two_zpow hlo hhi
  obtain ⟨hl, hu⟩ := abs_le.mp hq
  refine within_iff_abs_value_le.mpr
    ⟨isFinite_iff.mpr ⟨hx, ?_⟩, abs_le.mpr ⟨le_rounded hi hg.neg hl, rounded_le hi hg hu⟩⟩
  rw [hi]
  exact natAbs_nearest_lt_of_abs_le hq hg.natAbs_nearest_lt

/-- A quotient, by how large the one number is at most and the other at least. -/
theorem Within.div {x y : Float32} (hx : Within j x) (hy : y.isFinite = true)
    (h : 2 ^ k ≤ |value y|) (hlo : -149 ≤ j - k) (hhi : j - k ≤ 127) : Within (j - k) (x / y) := by
  obtain ⟨hf, hv⟩ := within_iff_abs_value_le.mp hx
  have hk : (0 : ℚ) < 2 ^ k := zpow_pos two_pos k
  have h0 : index y ≠ 0 := index_ne_zero (abs_pos.mp (hk.trans_le h))
  refine within_of_index (isNaN_div (isNaN_of_isFinite hf) hy h0) (index_div hf hy h0) ?_ hlo hhi
  rw [abs_div, zpow_sub₀ two_ne_zero]
  exact div_le_div₀ (zpow_pos two_pos j).le hv hk h

section

variable {x y : Float32} {z : ℤ}

theorem IsWhole.index_div (hy : IsWhole z y) (hx : x.isFinite = true) (h : z ≠ 0) :
    index (x / y) = nearest (value x / z) := by
  have h0 : index y ≠ 0 := by
    refine index_ne_zero ?_
    rw [hy.value_eq]
    exact_mod_cast h
  rw [Single.index_div hx hy.isFinite h0, hy.value_eq]

/-- A whole number of at least `2 ^ k` takes a divided number `k` binary places down. -/
theorem IsWhole.within_div (hy : IsWhole z y) (hx : x.isFinite = true) {k : ℕ}
    (h : 2 ^ k ≤ z.natAbs) (hk : 1 ≤ k) (hk' : k ≤ 23) : Within (128 - k) (x / y) := by
  have hle : (2 : ℚ) ^ (k : ℤ) ≤ |value y| := by
    rw [hy.value_eq, zpow_natCast, ← Int.cast_abs, Int.abs_eq_natAbs]
    exact_mod_cast h
  exact (within_of_isFinite hx).div hy.isFinite hle (by omega) (by omega)

theorem isFinite_half (hx : x.isFinite = true) : (x / 2).isFinite = true :=
  (isWhole_two.within_div hx (k := 1) (by norm_num) le_rfl (by norm_num)).isFinite

end

/-! ### Sums that overflow -/

theorem nearest_le_infinityIndex (h : 0 ≤ q) : nearest q ≤ infinityIndex := by
  rw [nearest_of_nonneg h]
  exact Int.ofNat_le.mpr (min_le_left _ _)

theorem nearest_of_large (h : 2 ^ 128 ≤ q) : nearest q = infinityIndex := by
  refine le_antisymm (nearest_le_infinityIndex (le_trans (by norm_num) h)) ?_
  rw [← grid_infinityIndex] at h
  have hle := nearest_mono h
  rwa [nearest_grid (by rw [Int.natAbs_natCast])] at hle

theorem packsTo_infinity (s : Sign) : PacksTo (.infinity s) (s.apply infinityIndex) :=
  ⟨trivial, rfl, rfl⟩

theorem eq_infinity {x : UnpackedFloat} (hx : x.isNaN = false) (hx' : x.isFinite = false)
    (h0 : 0 ≤ indexOf x) : x = .infinity .positive := by
  cases x with
  | notANumber => cases hx
  | zero s => cases hx'
  | finite s m e h => cases hx'
  | infinity s =>
      cases s with
      | positive => rfl
      | negative => exact absurd h0 (by decide)

theorem add_packsTo_of_nonneg {x y : UnpackedFloat} (hx : IsSingle x) (hy : IsSingle y)
    (nx : x.isNaN = false) (ny : y.isNaN = false) (px : 0 ≤ indexOf x) (py : 0 ≤ indexOf y) :
    PacksTo (add Format.binary32 x y) (nearest (grid (indexOf x) + grid (indexOf y))) := by
  have hvx := grid_nonneg px
  have hvy := grid_nonneg py
  have hinf : grid (indexOf (.infinity .positive)) = 2 ^ 128 := grid_infinityIndex
  cases fx : x.isFinite with
  | false =>
      obtain rfl := eq_infinity nx fx px
      rw [nearest_of_large (by linarith)]
      cases fy : y.isFinite with
      | false =>
          obtain rfl := eq_infinity ny fy py
          exact packsTo_infinity .positive
      | true =>
          cases y with
          | notANumber => cases fy
          | infinity t => cases fy
          | _ => exact packsTo_infinity .positive
  | true =>
      cases fy : y.isFinite with
      | false =>
          obtain rfl := eq_infinity ny fy py
          rw [nearest_of_large (by linarith)]
          cases x with
          | notANumber => cases fx
          | infinity s => cases fx
          | _ => exact packsTo_infinity .positive
      | true => exact add_packsTo hx hy fx fy

/-- A sum of numbers without a minus sign is rounded to the nearest single, also when it
overflows. -/
theorem index_add_of_nonneg {a b : Float32} (ha : a.isNaN = false) (hb : b.isNaN = false)
    (ha0 : 0 ≤ index a) (hb0 : 0 ≤ index b) :
    (a + b).isNaN = false ∧ index (a + b) = nearest (value a + value b) := by
  have h := add_packsTo_of_nonneg (isSingle_unpack a.toModel) (isSingle_unpack b.toModel) ha hb
    ha0 hb0
  exact ⟨(isNaN_ofModel_pack _).trans h.isNaN_eq, h.index_eq⟩

end DriveOverlay.Single
