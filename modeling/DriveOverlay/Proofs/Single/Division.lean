import DriveOverlay.Proofs.Single.Arithmetic

/-! # Quotients of singles

Two mantissas are divided in whole numbers, after the first has been made long enough, and what the
rest amounts to is kept as the accuracy of the result.

* `describes_quotient`: the accuracy is right;
* `divCore_spec`: the quotient is long enough to be rounded as it is;
* `index_div`: a quotient is rounded to the nearest single;
* `index_div_nonneg`: a quotient of numbers without a minus sign has none. -/

namespace DriveOverlay.Single

open Float.Model (Format UnpackedFloat totalExponent)
open Float.Model.UnpackedFloat

/-! ### Mantissas -/

/-- The residual bits of a quotient of mantissas are right. -/
theorem describes_quotient (m : ℕ) {n : ℕ} (hn : 0 < n) :
    Describes (.ofMantissaAndAccuracy (m / n) (accuracyOfFraction (m % n) n)) (m / n : ℚ) := by
  have hq : (m / n : ℚ) = (m / n : ℕ) + (m % n : ℕ) / n := by
    rw [div_eq_iff (by positivity), add_mul, div_mul_cancel₀ _ (by positivity)]
    exact_mod_cast (Nat.div_add_mod' m n).symm
  have hn' : (0 : ℚ) < n := by exact_mod_cast hn
  have hr : (m % n : ℕ) < (n : ℚ) := by exact_mod_cast Nat.mod_lt m hn
  rw [hq]
  generalize m % n = r at hr
  generalize m / n = q
  unfold accuracyOfFraction
  split
  · subst r
    simp [Describes, ExtendedMantissa.ofMantissaAndAccuracy]
  · rename_i h0
    have hpos : (0 : ℚ) < r / n := div_pos (by exact_mod_cast Nat.pos_of_ne_zero h0) hn'
    have hlt : (r : ℚ) / n < 1 := (div_lt_one hn').mpr hr
    rcases lt_trichotomy (2 * r) n with h | h | h
    · have : (r : ℚ) / n < 1 / 2 := by
        rw [div_lt_div_iff₀ hn' two_pos]
        exact_mod_cast (by omega : r * 2 < 1 * n)
      rw [compare_lt_iff_lt.mpr h]
      simp only [Describes, ExtendedMantissa.ofMantissaAndAccuracy]
      constructor <;> linarith
    · have : (r : ℚ) / n = 1 / 2 := by
        rw [div_eq_div_iff hn'.ne' two_ne_zero]
        exact_mod_cast (by omega : r * 2 = 1 * n)
      rw [compare_eq_iff_eq.mpr h]
      simp only [Describes, ExtendedMantissa.ofMantissaAndAccuracy]
      linarith
    · have : 1 / 2 < (r : ℚ) / n := by
        rw [div_lt_div_iff₀ two_pos hn']
        exact_mod_cast (by omega : 1 * n < r * 2)
      rw [compare_gt_iff_gt.mpr h]
      simp only [Describes, ExtendedMantissa.ofMantissaAndAccuracy]
      constructor <;> linarith

theorem log2_le_log2_div {m n : ℕ} (hm : 0 < m) (hn : 0 < n) :
    m.log2 ≤ (m / n).log2 + n.log2 + 1 := by
  have h₁ : m / n < 2 ^ ((m / n).log2 + 1) := Nat.lt_log2_self
  have h₂ : n < 2 ^ (n.log2 + 1) := Nat.lt_log2_self
  have h₃ : m < 2 ^ ((m / n).log2 + 1) * n := (Nat.div_lt_iff_lt_mul hn).mp h₁
  have h₄ : m < 2 ^ ((m / n).log2 + n.log2 + 2) := by
    calc m < 2 ^ ((m / n).log2 + 1) * n := h₃
      _ ≤ 2 ^ ((m / n).log2 + 1) * 2 ^ (n.log2 + 1) := Nat.mul_le_mul_left _ h₂.le
      _ = 2 ^ ((m / n).log2 + n.log2 + 2) := by rw [← pow_add]; congr 1; omega
  have := (Nat.log2_lt hm.ne').mpr h₄
  omega

/-- The mantissas are divided after the first one has been made so long that the quotient can be
rounded as it is. -/
theorem divCore_spec {m n : ℕ} (hm : 0 < m) (hn : 0 < n) (e f : ℤ) :
    ∃ (k : ℕ) (t : ℤ), divCore Format.binary32 m e n f =
        (m * 2 ^ k / n, t, accuracyOfFraction (m * 2 ^ k % n) n) ∧ t + k = e - f ∧
      t ≤ Format.binary32.targetExponent (totalExponent (m * 2 ^ k / n) t) := by
  obtain ⟨t, ht⟩ : ∃ t, min (e - f) (Format.binary32.targetExponent
      (totalExponent m e - totalExponent n f)) = t := ⟨_, rfl⟩
  obtain ⟨k, hk⟩ : ∃ k : ℕ, (e - f - t).toNat = k := ⟨_, rfl⟩
  have hc : divCore Format.binary32 m e n f =
      (m <<< k / n, t, accuracyOfFraction (m <<< k % n) n) := by
    rw [← hk, ← ht]
    rfl
  have hl := log2_le_log2_div (m := m * 2 ^ k) (by positivity) hn
  rw [log2_mul_pow hm] at hl
  rw [Nat.shiftLeft_eq] at hc
  refine ⟨k, t, hc, ?_, ?_⟩
  · omega
  · rw [targetExponent_eq, totalExponent, totalExponent] at ht
    rw [targetExponent_eq, totalExponent]
    omega

/-! ### Singles -/

theorem apply_div_one (s t : Sign) : ((s / t).apply 1 : ℤ) = s.apply 1 * t.apply 1 := by
  cases s <;> cases t <;> rfl

theorem quotient_eq (s t : Sign) (m : ℕ) {n k : ℕ} (hn : 0 < n) {e f d : ℤ} (hk : d + k = e - f) :
    (s.apply m : ℤ) * (2 : ℚ) ^ e / ((t.apply n : ℤ) * (2 : ℚ) ^ f) =
      ((s / t).apply 1 : ℤ) * ((m * 2 ^ k : ℕ) / n * (2 : ℚ) ^ d) := by
  have hn' : (n : ℚ) ≠ 0 := by exact_mod_cast hn.ne'
  have hd : (2 : ℚ) ^ e = 2 ^ k * 2 ^ d * 2 ^ f := by
    rw [← zpow_natCast, ← zpow_add₀ two_ne_zero, ← zpow_add₀ two_ne_zero]
    congr 1
    omega
  have ht : ((t.apply 1 : ℤ) : ℚ) * (t.apply 1 : ℤ) = 1 := by cases t <;> simp [Sign.apply]
  have ht' := left_ne_zero_of_mul_eq_one ht
  rw [apply_eq_one_mul s, apply_eq_one_mul t, apply_div_one, hd]
  push_cast
  field_simp
  rw [pow_two, ht, mul_one]

theorem div_packsTo {x y : UnpackedFloat} (hx : IsSingle x) (hy : IsSingle y)
    (fx : x.isFinite = true) (fy : y.isFinite = true) (h0 : indexOf y ≠ 0) :
    PacksTo (div Format.binary32 x y) (nearest (grid (indexOf x) / grid (indexOf y))) := by
  cases y with
  | notANumber => cases fy
  | infinity t => cases fy
  | zero t => exact absurd rfl h0
  | finite t n f h' =>
      cases x with
      | notANumber => cases fx
      | infinity s => cases fx
      | zero s =>
          rw [indexOf_zero, grid_zero, zero_div, nearest_zero]
          exact packsTo_zero _
      | finite s m e h =>
          obtain ⟨k, d, hc, hk, he⟩ := divCore_spec h h' e f
          have hq : grid (indexOf (.finite s m e h)) / grid (indexOf (.finite t n f h')) =
              ((s / t).apply 1 : ℤ) * ((m * 2 ^ k : ℕ) / n * (2 : ℚ) ^ d) := by
            rw [grid_indexOf_finite hx.canonical, grid_indexOf_finite hy.canonical]
            exact quotient_eq s t m h' hk
          have hpos : (0 : ℚ) ≤ (m * 2 ^ k : ℕ) / n * (2 : ℚ) ^ d :=
            mul_nonneg (div_nonneg (Nat.cast_nonneg _) (Nat.cast_nonneg _)) (zpow_pos two_pos _).le
          rw [nearest_apply (s / t) hpos hq]
          have hdiv : div Format.binary32 (.finite s m e h) (.finite t n f h') =
              roundWithAccuracy Format.binary32 (s / t) (divCore Format.binary32 m e n f).1
                (divCore Format.binary32 m e n f).2.1 (divCore Format.binary32 m e n f).2.2 := rfl
          rw [hdiv, hc]
          refine roundWithAccuracy_spec (s / t) (describes_quotient (m * 2 ^ k) h') he ?_
          rw [zpow_add₀ two_ne_zero d, mul_assoc]
          rfl

/-- A quotient is rounded to the nearest single. -/
theorem index_div {a b : Float32} (ha : a.isFinite = true) (hb : b.isFinite = true)
    (h0 : index b ≠ 0) : index (a / b) = nearest (value a / value b) :=
  (div_packsTo (isSingle_unpack _) (isSingle_unpack _) ha hb h0).index_eq

/-! ### NaN, infinities and signs -/

theorem isNaN_div_of_isNaN {a : Float32} (h : a.isNaN = true) (b : Float32) :
    (a / b).isNaN = true := by
  have e : a / b = .ofModel (.pack (div Format.binary32 a.toModel.unpack b.toModel.unpack)) := rfl
  rw [e, isNaN_ofModel_pack, unpack_of_isNaN h]
  cases b.toModel.unpack <;> rfl

theorem div_of_infinite {x y : UnpackedFloat} (hx : x.isNaN = false) (hx' : x.isFinite = false)
    (hy : y.isFinite = true) (h0 : 0 < indexOf y) : div Format.binary32 x y = x := by
  cases x with
  | infinity s =>
      cases y with
      | notANumber => cases hy
      | infinity t => cases hy
      | zero t => exact absurd h0 (lt_irrefl 0)
      | finite t n f h =>
          cases t with
          | negative => exact absurd h0 (indexOf_negative h).not_gt
          | positive => cases s <;> rfl
  | notANumber => cases hx
  | zero s => cases hx'
  | finite s m e h => cases hx'

theorem index_div_of_infinite {a b : Float32} (ha : a.isNaN = false) (ha' : a.isFinite = false)
    (hb : b.isFinite = true) (h0 : 0 < index b) : index (a / b) = index a := by
  have hs := isSingle_unpack a.toModel
  have e : a / b = .ofModel (.pack a.toModel.unpack) :=
    congrArg (fun x => Float32.ofModel (.pack x)) (div_of_infinite ha ha' hb h0)
  rw [e, index_ofModel_pack hs.canonical, hs.saturate_eq]
  rfl

/-- A quotient of numbers without a minus sign has none. -/
theorem index_div_nonneg {a b : Float32} (ha : a.isNaN = false) (hb : b.isFinite = true)
    (h0 : 0 < index b) (h : 0 ≤ index a) : 0 ≤ index (a / b) := by
  cases ha' : a.isFinite with
  | true =>
      exact rounded_nonneg (index_div ha' hb h0.ne')
        (div_nonneg (value_nonneg h) (value_nonneg h0.le))
  | false => rwa [index_div_of_infinite ha ha' hb h0]

end DriveOverlay.Single
