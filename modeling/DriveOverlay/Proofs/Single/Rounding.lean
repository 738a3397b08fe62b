import DriveOverlay.Proofs.Single.Decode

/-! # Rounding to the grid

A result that is known by its mantissa and exponent is shifted to the exponent that leaves at most
24 bits of mantissa.  What is shifted out survives in two bits, and they suffice to round to the
nearest mantissa, a tie going to the even one.

* `Describes.shiftRight`: a shift keeps the two bits right;
* `Describes.roundedMantissa`: rounding by them is rounding to the nearest whole number;
* `normalize_spec`: a signed mantissa at an exponent is rounded to the nearest single. -/

namespace DriveOverlay.Single

open Float.Model (Format UnpackedFloat totalExponent)
open Float.Model.UnpackedFloat

/-! ### Mantissas with residual bits -/

/-- What a mantissa says with its round bit and its sticky bit. -/
def Describes (em : ExtendedMantissa) (t : ℚ) : Prop :=
  match em.roundBit, em.stickyBit with
  | false, false => t = em.mantissa
  | false, true => em.mantissa < t ∧ t < em.mantissa + 1 / 2
  | true, false => t = em.mantissa + 1 / 2
  | true, true => em.mantissa + 1 / 2 < t ∧ t < em.mantissa + 1

theorem mantissa_ofMantissaAndAccuracy (m : ℕ) (acc : Accuracy) :
    (ExtendedMantissa.ofMantissaAndAccuracy m acc).mantissa = m := by
  cases acc with
  | exact => rfl
  | inexact o => cases o <;> rfl

theorem describes_exact (m : ℕ) : Describes (.ofMantissaAndAccuracy m .exact) m := rfl

theorem Describes.shiftRightOne {em : ExtendedMantissa} {t : ℚ} (h : Describes em t) :
    Describes em.shiftRightOne (t / 2) := by
  obtain ⟨m, r, s⟩ := em
  obtain ⟨n, rfl | rfl⟩ := Nat.even_or_odd' m
  · have hd : 2 * n / 2 = n := by omega
    have hr : (2 * n % 2 != 0) = false := by simp
    cases r <;> cases s <;>
      simp only [Describes, ExtendedMantissa.shiftRightOne, hd, hr, Bool.or_false, Bool.or_true,
        Nat.cast_mul, Nat.cast_ofNat] at h ⊢
    · linarith
    · constructor <;> linarith
    · constructor <;> linarith
    · constructor <;> linarith
  · have hd : (2 * n + 1) / 2 = n := by omega
    have hr : ((2 * n + 1) % 2 != 0) = true := by simp
    cases r <;> cases s <;>
      simp only [Describes, ExtendedMantissa.shiftRightOne, hd, hr, Bool.or_false, Bool.or_true,
        Nat.cast_add, Nat.cast_one, Nat.cast_mul, Nat.cast_ofNat] at h ⊢
    · linarith
    · constructor <;> linarith
    · constructor <;> linarith
    · constructor <;> linarith

theorem Describes.shiftRight {em : ExtendedMantissa} {t : ℚ} (h : Describes em t) (n : ℕ) :
    Describes (em >>> n) (t / 2 ^ n) := by
  change Describes (n.repeat ExtendedMantissa.shiftRightOne em) _
  induction n with
  | zero => rwa [pow_zero, div_one]
  | succ n ih =>
      rw [pow_succ, ← div_div]
      exact ih.shiftRightOne

theorem Describes.bounds {em : ExtendedMantissa} {t : ℚ} (h : Describes em t) :
    em.mantissa ≤ t ∧ t < em.mantissa + 1 := by
  obtain ⟨m, r, s⟩ := em
  cases r <;> cases s <;> simp only [Describes] at h ⊢ <;> constructor <;> linarith

theorem Describes.floor_eq {em : ExtendedMantissa} {t : ℚ} (h : Describes em t) :
    ⌊t⌋₊ = em.mantissa := by
  obtain ⟨hle, hlt⟩ := h.bounds
  exact (Nat.floor_eq_iff (le_trans (Nat.cast_nonneg _) hle)).mpr ⟨hle, hlt⟩

/-- The rounded mantissa is the nearest whole number. -/
theorem Describes.roundedMantissa {em : ExtendedMantissa} {t : ℚ} (h : Describes em t) :
    em.roundedMantissa = nearestEven t := by
  unfold nearestEven
  rw [h.floor_eq]
  obtain ⟨m, r, s⟩ := em
  cases r <;> cases s <;> simp only [Describes] at h
  · rw [if_pos (by linarith)]
    rfl
  · rw [if_pos (by linarith)]
    rfl
  · rw [if_neg (by linarith), if_neg (by linarith)]
    rfl
  · rw [if_neg (by linarith), if_pos (by linarith)]
    rfl

/-! ### Shifts -/

theorem targetExponent_eq (t : ℤ) : Format.binary32.targetExponent t = max (t - 24) (-149) := rfl

theorem doublings_eq {u : ℚ} {d : ℕ} (h : u / 2 ^ d < 2 ^ 24) (h' : 2 ^ 23 ≤ u / 2 ^ d ∨ d = 0) :
    doublings u = d := by
  have half : ∀ {a b : ℕ}, a < b → u / 2 ^ a < 2 ^ 24 → u / 2 ^ b < 2 ^ 23 := by
    intro a b hab ha
    obtain ⟨k, rfl⟩ := Nat.exists_eq_add_of_lt hab
    have hk : (1 : ℚ) ≤ 2 ^ k := one_le_pow₀ (by norm_num)
    rw [div_lt_iff₀ (by positivity)] at ha ⊢
    rw [pow_succ 2 (a + k), pow_add]
    have : (2 : ℚ) ^ 24 * 2 ^ a * 1 ≤ 2 ^ 24 * 2 ^ a * 2 ^ k := by gcongr
    linarith
  rcases lt_trichotomy (doublings u) d with hlt | heq | hgt
  · have := half hlt (div_doublings_lt u)
    rcases h' with h' | h'
    · linarith
    · omega
  · exact heq
  · have := half hgt h
    have := le_div_doublings (u := u) (by omega)
    linarith

theorem shiftToTargetExponent_spec {m : ℕ} {e : ℤ} {acc : Accuracy} {t u : ℚ}
    (ht : Describes (.ofMantissaAndAccuracy m acc) t)
    (he : e ≤ Format.binary32.targetExponent (totalExponent m e))
    (hu : u = t * (2 : ℚ) ^ (e + 149)) :
    (shiftToTargetExponent Format.binary32 m e acc).2 = doublings u - 149 ∧
      (shiftToTargetExponent Format.binary32 m e acc).1.roundedMantissa =
        nearestEven (u / 2 ^ doublings u) := by
  unfold shiftToTargetExponent shiftToExponent
  dsimp only
  rw [targetExponent_eq, totalExponent] at he ⊢
  obtain ⟨d, hd⟩ : ∃ d : ℕ, max ((m.log2 : ℤ) + 1 + e - 24) (-149) = d - 149 :=
    ⟨(max ((m.log2 : ℤ) + 1 + e - 24) (-149) + 149).toNat, by omega⟩
  rw [hd] at he ⊢
  obtain ⟨k, hk⟩ : ∃ k : ℕ, (d : ℤ) - 149 - e = k := ⟨_, (Int.toNat_of_nonneg (by omega)).symm⟩
  rw [hk, Int.toNat_natCast]
  obtain ⟨hle, hlt⟩ := ht.bounds
  rw [mantissa_ofMantissaAndAccuracy] at hle hlt
  have hs : u / 2 ^ d = t / 2 ^ k := by
    rw [hu, ← zpow_natCast, ← zpow_natCast, ← hk, mul_div_assoc, ← zpow_sub₀ two_ne_zero,
      div_eq_mul_inv, ← zpow_neg]
    congr 2
    ring
  have hlt : u / 2 ^ d < 2 ^ 24 := by
    rw [hs, div_lt_iff₀ (by positivity), ← pow_add]
    have : m + 1 ≤ 2 ^ (24 + k) := by
      rcases Nat.eq_zero_or_pos m with rfl | hm
      · exact Nat.one_le_two_pow
      · exact (Nat.log2_lt (k := 24 + k) hm.ne').mp (by omega)
    exact hlt.trans_le (by exact_mod_cast this)
  have hge : 2 ^ 23 ≤ u / 2 ^ d ∨ d = 0 := by
    rcases Nat.eq_zero_or_pos m with rfl | hm
    · rw [Nat.log2_zero] at hd
      exact .inr (by omega)
    · by_cases h0 : d = 0
      · exact .inr h0
      · have := (Nat.le_log2 (k := 23 + k) hm.ne').mp (by omega)
        rw [hs, le_div_iff₀ (by positivity), ← pow_add]
        exact .inl (le_trans (by exact_mod_cast this) hle)
  rw [doublings_eq hlt hge, hs]
  exact ⟨by omega, (ht.shiftRight k).roundedMantissa⟩

theorem shiftToTargetExponent_of_fits {m : ℕ} {e : ℤ} (hm : m < 2 ^ 24) (he : -149 ≤ e) :
    shiftToTargetExponent Format.binary32 m e .exact = (⟨m, false, false⟩, e) := by
  have hl : m.log2 < 24 := by
    rcases Nat.eq_zero_or_pos m with rfl | h
    · decide
    · exact (Nat.log2_lt h.ne').mpr hm
  have hz : (max ((m.log2 : ℤ) + 1 + e - 24) (-149) - e).toNat = 0 := by omega
  unfold shiftToTargetExponent shiftToExponent
  dsimp only
  rw [targetExponent_eq, totalExponent, hz]
  exact congrArg _ (add_zero e)

theorem shiftToTargetExponent_of_carry {e : ℤ} (he : -149 ≤ e) :
    shiftToTargetExponent Format.binary32 (2 ^ 24) e .exact = (⟨2 ^ 23, false, false⟩, e + 1) := by
  have hz : (max (((2 ^ 24 : ℕ).log2 : ℤ) + 1 + e - 24) (-149) - e).toNat = 1 := by
    rw [Nat.log2_two_pow]
    omega
  unfold shiftToTargetExponent shiftToExponent
  dsimp only
  rw [targetExponent_eq, totalExponent, hz]
  rfl

/-! ### The nearest single -/

/-- `x` packs to the number with index `k`. -/
structure PacksTo (x : UnpackedFloat) (k : ℤ) : Prop where
  canonical : Canonical x
  isNaN_eq : x.isNaN = false
  indexOf_eq : indexOf (saturate x) = k

theorem PacksTo.index_eq {x : UnpackedFloat} {k : ℤ} (h : PacksTo x k) :
    index (.ofModel (.pack x)) = k := by
  rw [index_ofModel_pack h.canonical, h.indexOf_eq]

theorem packsTo_zero (s : Sign) : PacksTo (.zero s) 0 := ⟨trivial, rfl, rfl⟩

theorem packsTo_finite (s : Sign) {m : ℕ} {e : ℤ} {n : ℕ} {h : 0 < m}
    (hx : Canonical (.finite s m e h)) (hn : n = (e + 149).toNat * 2 ^ 23 + m) :
    PacksTo (.finite s m e h) (s.apply (min infinityIndex n : ℕ)) :=
  ⟨hx, rfl, by rw [indexOf_saturate s h hx, hn]⟩

theorem roundWithAccuracy_spec (s : Sign) {m : ℕ} {e : ℤ} {acc : Accuracy} {t u : ℚ}
    (ht : Describes (.ofMantissaAndAccuracy m acc) t)
    (he : e ≤ Format.binary32.targetExponent (totalExponent m e))
    (hu : u = t * (2 : ℚ) ^ (e + 149)) :
    PacksTo (roundWithAccuracy Format.binary32 s m e acc)
      (s.apply (min infinityIndex (nearestIndex u) : ℕ)) := by
  obtain ⟨h₂, h₁⟩ := shiftToTargetExponent_spec ht he hu
  have hle : nearestEven (u / 2 ^ doublings u) ≤ 2 ^ 24 :=
    nearestEven_le (by exact_mod_cast (div_doublings_lt u).le)
  have hge : 2 ^ 23 ≤ nearestEven (u / 2 ^ doublings u) ∨ doublings u = 0 := by
    by_cases h : doublings u = 0
    · exact .inr h
    · exact .inl (le_nearestEven (by exact_mod_cast le_div_doublings h))
  have hi : nearestIndex u = doublings u * 2 ^ 23 + nearestEven (u / 2 ^ doublings u) := rfl
  unfold roundWithAccuracy
  dsimp only
  rw [h₁, h₂]
  generalize nearestEven (u / 2 ^ doublings u) = r at hle hge hi
  generalize doublings u = d at hge hi
  rcases hle.lt_or_eq with hlt | rfl
  · rw [shiftToTargetExponent_of_fits hlt (by omega)]
    dsimp only
    by_cases h0 : r = 0
    · have hz : nearestIndex u = 0 := by omega
      rw [dif_pos h0, hz]
      cases s <;> exact packsTo_zero _
    · rw [dif_neg h0]
      refine packsTo_finite s ⟨hlt, by omega, by omega⟩ ?_
      rw [hi]
      omega
  · rw [shiftToTargetExponent_of_carry (by omega)]
    refine packsTo_finite s (m := 2 ^ 23) ⟨by norm_num, by omega, .inl le_rfl⟩ ?_
    rw [hi]
    omega

theorem log2_mul_pow {m : ℕ} (hm : 0 < m) (k : ℕ) : (m * 2 ^ k).log2 = m.log2 + k := by
  induction k with
  | zero => rw [pow_zero, Nat.mul_one, Nat.add_zero]
  | succ k ih =>
      have h0 : m * 2 ^ k ≠ 0 := (Nat.mul_pos hm (by positivity)).ne'
      rw [pow_succ', Nat.mul_left_comm, Nat.log2_two_mul h0, ih, Nat.add_assoc]

theorem round_spec (s : Sign) {m : ℕ} (e : ℤ) {u : ℚ} (hm : 0 < m)
    (hu : u = m * (2 : ℚ) ^ (e + 149)) :
    PacksTo (UnpackedFloat.round Format.binary32 s m e)
      (s.apply (min infinityIndex (nearestIndex u) : ℕ)) := by
  unfold UnpackedFloat.round decreaseExponent
  dsimp only
  generalize ht : Format.binary32.targetExponent (totalExponent m e) = t
  obtain ⟨k, hk⟩ : ∃ k : ℕ, (e - t).toNat = k := ⟨_, rfl⟩
  rw [hk, Nat.shiftLeft_eq]
  have hl := log2_mul_pow hm k
  refine roundWithAccuracy_spec s (describes_exact _) ?_ ?_
  · rw [targetExponent_eq, totalExponent] at ht ⊢
    omega
  · rw [hu]
    push_cast
    rw [← zpow_natCast, mul_assoc, ← zpow_add₀ two_ne_zero]
    congr 2
    ring

/-- A mantissa with a sign, at an exponent, is rounded to the nearest single. -/
theorem normalize_spec (m : ℤ) (e : ℤ) (z : Sign) {q : ℚ} (hq : q = m * (2 : ℚ) ^ e) :
    PacksTo (UnpackedFloat.normalize Format.binary32 m e z) (nearest q) := by
  have hp : (2 : ℚ) ^ (e + 149) = 2 ^ e * 2 ^ 149 := by
    rw [zpow_add₀ two_ne_zero]
    rfl
  unfold UnpackedFloat.normalize
  rcases lt_trichotomy m 0 with h | rfl | h
  · have hq0 : q < 0 := by
      rw [hq]
      exact mul_neg_of_neg_of_pos (by exact_mod_cast h) (zpow_pos two_pos e)
    have hm : (((-m).toNat : ℕ) : ℚ) = -m := by
      rw [← Int.cast_natCast, Int.toNat_of_nonneg (by omega), Int.cast_neg]
    have hr := round_spec .negative (m := (-m).toNat) e (by omega) rfl
    rw [hm, hp, neg_mul, ← mul_assoc, ← hq, ← neg_mul] at hr
    rw [compare_lt_iff_lt.mpr h, nearest, if_pos hq0]
    exact hr
  · rw [compare_eq_iff_eq.mpr rfl, hq, Int.cast_zero, zero_mul, nearest_zero]
    exact packsTo_zero z
  · have hq0 : 0 ≤ q := by
      rw [hq]
      exact mul_nonneg (by exact_mod_cast h.le) (zpow_pos two_pos e).le
    have hm : ((m.toNat : ℕ) : ℚ) = m := by
      rw [← Int.cast_natCast, Int.toNat_of_nonneg (by omega)]
    have hr := round_spec .positive (m := m.toNat) e (by omega) rfl
    rw [hm, hp, ← mul_assoc, ← hq] at hr
    rw [compare_gt_iff_gt.mpr h, nearest_of_nonneg hq0]
    exact hr

end DriveOverlay.Single
