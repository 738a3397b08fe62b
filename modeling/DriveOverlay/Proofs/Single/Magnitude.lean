import DriveOverlay.Proofs.Single.Whole

/-! # Magnitudes

How large the result of an operation can be, by powers of two, in single and in double precision
alike.  A bound on the exact result is a bound on the rounded one, since powers of two are not
rounded.

* `AtMost k m e`: the mantissa `m` at the exponent `e` makes no more than `2 ^ k`;
* `Bounded f k x`: `x` is finite and no more than `2 ^ k`, with an exponent of the format `f`;
* `bounded_roundWithAccuracy`, `bounded_unpack_pack`: rounding and packing keep a bound;
* `Bounded.add`, `Bounded.mul`: a sum doubles the bound, a product multiplies the bounds;
* `isFinite_add_of_small`: what is small compared to the range can be added to any finite single. -/

namespace DriveOverlay.Single

open Float.Model (Format UnpackedFloat totalExponent)
open Float.Model.UnpackedFloat

variable {f : Format} {j k l e e' : ℤ} {m n : ℕ}

/-! ### Mantissas and exponents -/

/-- `m * 2 ^ e` is at most `2 ^ k`. -/
structure AtMost (k : ℤ) (m : ℕ) (e : ℤ) : Prop where
  exponent_le : e ≤ k
  mantissa_le : m ≤ 2 ^ (k - e).toNat

namespace AtMost

theorem mono (h : AtMost k m e) (hkl : k ≤ l) : AtMost l m e where
  exponent_le := h.exponent_le.trans hkl
  mantissa_le := h.mantissa_le.trans (Nat.pow_le_pow_right two_pos (by omega))

theorem of_le (h : AtMost k m e) (hnm : n ≤ m) : AtMost k n e where
  exponent_le := h.exponent_le
  mantissa_le := hnm.trans h.mantissa_le

theorem shiftLeft (h : AtMost k m e) (n : ℕ) : AtMost k (m <<< n) (e - n) where
  exponent_le := by have := h.exponent_le; omega
  mantissa_le := by
    have := h.exponent_le
    calc m <<< n = m * 2 ^ n := Nat.shiftLeft_eq m n
      _ ≤ 2 ^ (k - e).toNat * 2 ^ n := Nat.mul_le_mul_right _ h.mantissa_le
      _ = 2 ^ (k - (e - n)).toNat := by rw [← pow_add]; congr 1; omega

theorem add (h : AtMost k m e) (h' : AtMost k n e) : AtMost (k + 1) (m + n) e where
  exponent_le := by have := h.exponent_le; omega
  mantissa_le := by
    have := h.exponent_le
    calc m + n ≤ 2 ^ (k - e).toNat + 2 ^ (k - e).toNat := add_le_add h.mantissa_le h'.mantissa_le
      _ = 2 ^ (k + 1 - e).toNat := by
        rw [← Nat.two_mul, ← pow_succ']
        congr 1
        omega

theorem mul (h : AtMost j m e) (h' : AtMost k n e') : AtMost (j + k) (m * n) (e + e') where
  exponent_le := add_le_add h.exponent_le h'.exponent_le
  mantissa_le := by
    have := h.exponent_le
    have := h'.exponent_le
    calc m * n ≤ 2 ^ (j - e).toNat * 2 ^ (k - e').toNat :=
          Nat.mul_le_mul h.mantissa_le h'.mantissa_le
      _ = 2 ^ (j + k - (e + e')).toNat := by rw [← pow_add]; congr 1; omega

theorem totalExponent_le (h : AtMost k m e) : totalExponent m e ≤ k + 1 := by
  have hl : m.log2 < (k - e).toNat + 1 := by
    rcases Nat.eq_zero_or_pos m with rfl | hm
    · exact Nat.succ_pos _
    · refine (Nat.log2_lt hm.ne').mpr (h.mantissa_le.trans_lt ?_)
      exact Nat.pow_lt_pow_right (by norm_num) (Nat.lt_succ_self _)
  have := h.exponent_le
  rw [totalExponent]
  omega

end AtMost

theorem atMost_iff (hm : 0 < m) : AtMost k m e ↔ (m : ℚ) * 2 ^ e ≤ 2 ^ k := by
  have hpos : (0 : ℚ) < 2 ^ e := zpow_pos two_pos e
  have hpow (he : e ≤ k) : (2 : ℚ) ^ k = (2 ^ (k - e).toNat : ℕ) * 2 ^ e := by
    rw [Nat.cast_pow, Nat.cast_two, ← zpow_natCast, ← zpow_add₀ two_ne_zero]
    congr 1
    omega
  constructor
  · rintro ⟨he, hmk⟩
    rw [hpow he]
    exact mul_le_mul_of_nonneg_right (Nat.cast_le.mpr hmk) hpos.le
  · intro h
    have he : e ≤ k := by
      refine (zpow_le_zpow_iff_right₀ (one_lt_two : (1 : ℚ) < 2)).mp (le_trans ?_ h)
      exact le_mul_of_one_le_left hpos.le (Nat.one_le_cast.mpr hm)
    rw [hpow he] at h
    exact ⟨he, Nat.cast_le.mp (le_of_mul_le_mul_right h hpos)⟩

/-! ### Rounding -/

theorem mantissaBits_eq (f : Format) : f.mantissaBits = 1 + f.mantissaBitsWithoutImplicit :=
  rfl

theorem targetExponent_mono {t u : ℤ} (h : t ≤ u) : f.targetExponent t ≤ f.targetExponent u :=
  max_le_max_right _ (by omega)

theorem targetExponent_succ_le (hk : f.minExponent ≤ k) : f.targetExponent (k + 1) ≤ k := by
  have : (1 : ℤ) ≤ f.mantissaBits := by
    rw [mantissaBits_eq]
    omega
  exact max_le (by omega) hk

/-- A mantissa and an exponent as the format has them for magnitudes up to `2 ^ k`. -/
structure Fits (f : Format) (k : ℤ) (m : ℕ) (e : ℤ) : Prop where
  atMost : AtMost k m e
  least_le : f.minExponent ≤ e
  le_target : e ≤ f.targetExponent (k + 1)

theorem Fits.mono (h : Fits f k m e) (hkl : k ≤ l) : Fits f l m e where
  atMost := h.atMost.mono hkl
  least_le := h.least_le
  le_target := h.le_target.trans (targetExponent_mono (by omega))

theorem AtMost.shifted (h : AtMost k m e) (he : e ≤ f.targetExponent (k + 1))
    (hk : f.minExponent ≤ k) :
    Fits f k (shiftToTargetExponent f m e .exact).1.mantissa
        (shiftToTargetExponent f m e .exact).2 ∧
      AtMost k (shiftToTargetExponent f m e .exact).1.roundedMantissa
        (shiftToTargetExponent f m e .exact).2 := by
  unfold shiftToTargetExponent shiftToExponent
  dsimp only
  have hle := targetExponent_mono (f := f) h.totalExponent_le
  have hmin : f.minExponent ≤ f.targetExponent (totalExponent m e) := le_max_right _ _
  have htop := targetExponent_succ_le hk
  generalize f.targetExponent (totalExponent m e) = t at hle hmin
  obtain ⟨n, hn⟩ : ∃ n : ℕ, (t - e).toNat = n := ⟨_, rfl⟩
  rw [hn]
  have hek : e + n ≤ k := by omega
  have hd := (describes_exact m).shiftRight n
  have hq : (m : ℚ) / 2 ^ n ≤ (2 ^ (k - (e + n)).toNat : ℕ) := by
    rw [div_le_iff₀ (by positivity)]
    have hm := h.mantissa_le
    rw [show (k - e).toNat = (k - (e + n)).toNat + n by omega, pow_add] at hm
    exact_mod_cast hm
  refine ⟨⟨⟨hek, ?_⟩, by omega, by omega⟩, hek, ?_⟩
  · rw [← hd.floor_eq]
    exact Nat.floor_le_of_le hq
  · rw [hd.roundedMantissa]
    exact nearestEven_le hq

/-- A finite number of magnitude at most `2 ^ k`. -/
def Bounded (f : Format) (k : ℤ) : UnpackedFloat → Prop
  | .zero _ => True
  | .finite _ m e _ => Fits f k m e
  | _ => False

/-- Powers of two bound the rounded number when they bound the exact one. -/
theorem bounded_roundWithAccuracy (s : Sign) (h : AtMost k m e)
    (he : e ≤ f.targetExponent (k + 1)) (hk : f.minExponent ≤ k) :
    Bounded f k (roundWithAccuracy f s m e .exact) := by
  obtain ⟨h₁, hr⟩ := h.shifted he hk
  obtain ⟨h₂, -⟩ := hr.shifted h₁.le_target hk
  unfold roundWithAccuracy
  dsimp only
  generalize shiftToTargetExponent f _ (shiftToTargetExponent f m e .exact).2 .exact = r at h₂ ⊢
  by_cases h0 : r.1.mantissa = 0
  · rw [dif_pos h0]
    trivial
  · rw [dif_neg h0]
    exact h₂

theorem bounded_round (s : Sign) (h : AtMost k m e) (hk : f.minExponent ≤ k) :
    Bounded f k (UnpackedFloat.round f s m e) := by
  have hle := targetExponent_mono (f := f) h.totalExponent_le
  unfold UnpackedFloat.round decreaseExponent
  dsimp only
  generalize f.targetExponent (totalExponent m e) = t at hle
  exact bounded_roundWithAccuracy s (h.shiftLeft _) (by omega) hk

theorem bounded_normalize {m : ℤ} (z : Sign) (h : AtMost k m.natAbs e) (hk : f.minExponent ≤ k) :
    Bounded f k (UnpackedFloat.normalize f m e z) := by
  unfold UnpackedFloat.normalize
  split
  · exact bounded_round _ (h.of_le (by omega)) hk
  · trivial
  · exact bounded_round _ (h.of_le (by omega)) hk

/-! ### Operations -/

namespace Bounded

variable {x y : UnpackedFloat}

theorem mono (h : Bounded f k x) (hkl : k ≤ l) : Bounded f l x := by
  cases x with
  | finite s m e hm => exact Fits.mono h hkl
  | zero s => trivial
  | _ => exact h.elim

theorem isFinite (h : Bounded f k x) : x.isFinite = true := by
  cases x with
  | finite s m e hm => rfl
  | zero s => rfl
  | _ => exact h.elim

theorem neg (h : Bounded f k x) : Bounded f k x.neg := by
  cases x <;> exact h

theorem add (hx : Bounded f k x) (hy : Bounded f k y) :
    Bounded f (k + 1) (UnpackedFloat.add f x y) := by
  cases x with
  | notANumber => exact hx.elim
  | infinity s => exact hx.elim
  | zero s =>
      cases y with
      | zero t =>
          unfold UnpackedFloat.add
          dsimp only
          split <;> trivial
      | _ => exact hy.mono (by omega)
  | finite s m e hm =>
      cases y with
      | notANumber => exact hy.elim
      | infinity t => exact hy.elim
      | zero t => exact hx.mono (by omega)
      | finite t n e' hn =>
          have hx : Fits f k m e := hx
          have hy : Fits f k n e' := hy
          have hm' := hx.atMost.shiftLeft (e - min e e').toNat
          have hn' := hy.atMost.shiftLeft (e' - min e e').toNat
          rw [show e - (e - min e e').toNat = min e e' by omega] at hm'
          rw [show e' - (e' - min e e').toNat = min e e' by omega] at hn'
          refine bounded_normalize _ ((hm'.add hn').of_le ?_) ?_
          · refine (Int.natAbs_add_le _ _).trans_eq ?_
            rw [natAbs_apply, natAbs_apply]
            rfl
          · have := hx.least_le
            have := hx.atMost.exponent_le
            omega

theorem sub (hx : Bounded f k x) (hy : Bounded f k y) :
    Bounded f (k + 1) (UnpackedFloat.sub f x y) := by
  rw [sub_eq_add_neg_unpacked]
  exact hx.add hy.neg

theorem mul (hx : Bounded f j x) (hy : Bounded f k y) (hjk : f.minExponent ≤ j + k) :
    Bounded f (j + k) (UnpackedFloat.mul f x y) := by
  cases x with
  | notANumber => exact hx.elim
  | infinity s => exact hx.elim
  | zero s =>
      cases y with
      | notANumber => exact hy.elim
      | infinity t => exact hy.elim
      | _ => trivial
  | finite s m e hm =>
      cases y with
      | notANumber => exact hy.elim
      | infinity t => exact hy.elim
      | zero t => trivial
      | finite t n e' hn =>
          have hx : Fits f j m e := hx
          have hy : Fits f k n e' := hy
          refine bounded_roundWithAccuracy _ (hx.atMost.mul hy.atMost) ?_ hjk
          have h₁ := hx.le_target
          have h₂ := hy.le_target
          have h₃ := hx.atMost.exponent_le
          have h₄ := hy.atMost.exponent_le
          have h₅ : f.minExponent ≤ 0 := by
            have : (1 : ℤ) ≤ 2 ^ (f.exponentBits - 1) := one_le_pow₀ (by norm_num)
            have := f.hm
            rw [Format.minExponent, mantissaBits_eq]
            push_cast
            omega
          unfold Format.targetExponent at h₁ h₂ ⊢
          omega

end Bounded

/-! ### Packing -/

theorem bounded_unpack {b : BitVec f.numBits} (hE : unpackExponent b ≠ -1#_)
    (h₀ : unpackExponent b = 0#_ → unpackMantissa b ≠ 0#_ →
      Fits f k (unpackMantissa b).toNat
        (1 - (f.exponentBias + f.mantissaBitsWithoutImplicit : ℤ)))
    (h₁ : unpackExponent b ≠ 0#_ →
      Fits f k (2 ^ f.mantissaBitsWithoutImplicit + (unpackMantissa b).toNat)
        ((unpackExponent b).toNat - (f.exponentBias + f.mantissaBitsWithoutImplicit : ℤ))) :
    Bounded f k (unpack f b) := by
  unfold unpack
  dsimp only
  rw [if_neg hE]
  by_cases hz : unpackExponent b = 0#_
  · rw [if_pos hz]
    by_cases hM : unpackMantissa b = 0#_
    · rw [dif_pos hM]
      trivial
    · rw [dif_neg hM]
      have he : ((unpackExponent b).toNat : ℤ) -
          (f.exponentBias + f.mantissaBitsWithoutImplicit) + 1 =
            1 - (f.exponentBias + f.mantissaBitsWithoutImplicit : ℤ) := by
        rw [hz, BitVec.toNat_ofNat, Nat.zero_mod]
        omega
      rw [← he] at h₀
      exact h₀ hz hM
  · rw [if_neg hz]
    have hm : (1#1 ++ unpackMantissa b).toNat =
        2 ^ f.mantissaBitsWithoutImplicit + (unpackMantissa b).toNat := by
      rw [BitVec.toNat_append, ← Nat.shiftLeft_add_eq_or_of_lt (unpackMantissa b).isLt]
      simp [Nat.shiftLeft_eq]
    have h := h₁ hz
    rw [← hm] at h
    exact h

theorem bounded_unpack_packComponents {s : Sign} {E : BitVec f.exponentBits}
    {M : BitVec f.mantissaBitsWithoutImplicit} (hE : E ≠ -1#_)
    (h₀ : E = 0#_ → M ≠ 0#_ →
      Fits f k M.toNat (1 - (f.exponentBias + f.mantissaBitsWithoutImplicit : ℤ)))
    (h₁ : E ≠ 0#_ → Fits f k (2 ^ f.mantissaBitsWithoutImplicit + M.toNat)
      (E.toNat - (f.exponentBias + f.mantissaBitsWithoutImplicit : ℤ))) :
    Bounded f k (unpack f (packComponents f s E M)) := by
  refine bounded_unpack ?_ ?_ ?_
  · rwa [unpackExponent_packComponents]
  · rwa [unpackExponent_packComponents, unpackMantissa_packComponents]
  · rwa [unpackExponent_packComponents, unpackMantissa_packComponents]

theorem two_pow_exponentBits (f : Format) : 2 ^ f.exponentBits = 2 * (f.exponentBias + 1) := by
  have := f.he
  have := Nat.two_pow_pos (f.exponentBits - 1)
  rw [Format.exponentBias, Nat.sub_add_cancel this, ← pow_succ']
  congr 1
  omega

theorem minExponent_eq (f : Format) :
    f.minExponent = 1 - (f.exponentBias + f.mantissaBitsWithoutImplicit : ℤ) := by
  have := Nat.two_pow_pos (f.exponentBits - 1)
  have hb : (2 : ℤ) ^ (f.exponentBits - 1) = f.exponentBias + 1 := by
    rw [Format.exponentBias]
    push_cast [this]
    omega
  rw [Format.minExponent, hb, mantissaBits_eq]
  push_cast
  omega

theorem two_pow_add_mod {p : ℕ} (hm : 0 < m) (hlog : m.log2 = p) : 2 ^ p + m % 2 ^ p = m := by
  have hle : 2 ^ p ≤ m := (Nat.le_log2 hm.ne').mp hlog.ge
  have hlt : m < 2 ^ (p + 1) := (Nat.log2_lt hm.ne').mp (by omega)
  rw [pow_succ'] at hlt
  rw [Nat.mod_eq_sub_mod hle, Nat.mod_eq_of_lt (by omega)]
  omega

/-- A bound within the range of the format survives packing. -/
theorem bounded_unpack_pack {x : UnpackedFloat} (h : Bounded f k x) (hf : 0 < f.exponentBias)
    (hk : k ≤ f.exponentBias) : Bounded f k (unpack f (pack f x)) := by
  have hbits := two_pow_exponentBits f
  have hmin := minExponent_eq f
  have hones {E : BitVec f.exponentBits} (hE : E.toNat + 1 < 2 ^ f.exponentBits) : E ≠ -1#_ := by
    rintro rfl
    rw [BitVec.neg_one_eq_allOnes, BitVec.toNat_allOnes] at hE
    omega
  have hnil : (0#f.exponentBits).toNat + 1 < 2 ^ f.exponentBits := by
    rw [BitVec.toNat_ofNat, Nat.zero_mod]
    omega
  cases x with
  | notANumber => exact h.elim
  | infinity s => exact h.elim
  | zero s =>
      exact bounded_unpack_packComponents (hones hnil) (fun _ hM => absurd rfl hM)
        fun hE => absurd rfl hE
  | finite s m e hm =>
      obtain ⟨⟨hek, hmk⟩, hle, htop⟩ : Fits f k m e := h
      have hfits : Fits f k m e := ⟨⟨hek, hmk⟩, hle, htop⟩
      rw [Format.targetExponent, mantissaBits_eq, Nat.cast_add, Nat.cast_one] at htop
      unfold pack
      dsimp only
      generalize hE : (e + f.exponentBias + f.mantissaBitsWithoutImplicit).toNat = E
      rw [if_neg (by omega)]
      split
      · rename_i hlog
        have hE' : (BitVec.ofNat f.exponentBits E).toNat = E := by
          rw [BitVec.toNat_ofNat, Nat.mod_eq_of_lt (by omega)]
        refine bounded_unpack_packComponents (hones (by rw [hE']; omega)) (fun h0 => ?_) fun _ => ?_
        · have := congrArg BitVec.toNat h0
          rw [hE', BitVec.toNat_ofNat, Nat.zero_mod] at this
          omega
        · rw [hE', BitVec.toNat_ofNat,
            two_pow_add_mod hm (by rw [mantissaBits_eq] at hlog; omega),
            show (E : ℤ) - (f.exponentBias + f.mantissaBitsWithoutImplicit) = e by omega]
          exact hfits
      · refine bounded_unpack_packComponents (hones hnil) (fun _ _ => ?_) fun hE => absurd rfl hE
        rw [BitVec.toNat_ofNat, ← hmin]
        refine ⟨⟨by omega, ?_⟩, le_rfl, le_max_right _ _⟩
        calc m % 2 ^ f.mantissaBitsWithoutImplicit ≤ m := Nat.mod_le _ _
          _ ≤ 2 ^ (k - e).toNat := hmk
          _ ≤ 2 ^ (k - f.minExponent).toNat := Nat.pow_le_pow_right two_pos (by omega)

/-! ### Deciding bounds of constants -/

instance : Decidable (AtMost k m e) :=
  decidable_of_iff (e ≤ k ∧ m ≤ 2 ^ (k - e).toNat) ⟨fun h => ⟨h.1, h.2⟩, fun h => ⟨h.1, h.2⟩⟩

instance : Decidable (Fits f k m e) :=
  decidable_of_iff (AtMost k m e ∧ f.minExponent ≤ e ∧ e ≤ f.targetExponent (k + 1))
    ⟨fun h => ⟨h.1, h.2.1, h.2.2⟩, fun h => ⟨h.1, h.2, h.3⟩⟩

instance : (x : UnpackedFloat) → Decidable (Bounded f k x)
  | .zero _ => inferInstanceAs (Decidable True)
  | .finite _ m e _ => inferInstanceAs (Decidable (Fits f k m e))
  | .infinity _ => inferInstanceAs (Decidable False)
  | .notANumber => inferInstanceAs (Decidable False)

/-! ### Singles -/

/-- A finite single of magnitude at most `2 ^ k`. -/
structure Within (k : ℤ) (x : Float32) : Prop where
  bounded : Bounded Format.binary32 k x.toModel.unpack

instance (x : Float32) : Decidable (Within k x) :=
  decidable_of_iff (Bounded Format.binary32 k x.toModel.unpack) ⟨Within.mk, Within.bounded⟩

theorem within_ofModel_pack {x : UnpackedFloat} (h : Bounded Format.binary32 k x) (hk : k ≤ 127) :
    Within k (.ofModel (.pack x)) :=
  ⟨bounded_unpack_pack h (by decide) hk⟩

theorem within_iff_abs_value_le {x : Float32} :
    Within k x ↔ x.isFinite = true ∧ |value x| ≤ 2 ^ k := by
  have hx := isSingle_unpack x.toModel
  have hb : Within k x ↔ Bounded Format.binary32 k x.toModel.unpack := ⟨Within.bounded, Within.mk⟩
  rw [hb]
  change _ ↔ x.toModel.unpack.isFinite = true ∧ |grid (indexOf x.toModel.unpack)| ≤ 2 ^ k
  generalize x.toModel.unpack = x at hx
  cases x with
  | notANumber => exact ⟨False.elim, fun h => Bool.false_ne_true h.1⟩
  | infinity s => exact ⟨False.elim, fun h => Bool.false_ne_true h.1⟩
  | zero s =>
      rw [indexOf_zero, grid_zero, abs_zero]
      exact ⟨fun _ => ⟨rfl, (zpow_pos two_pos k).le⟩, fun _ => trivial⟩
  | finite s m e hm =>
      obtain ⟨hlt, hle, hfull⟩ := hx.canonical
      have habs : |((s.apply m : ℤ) : ℚ) * 2 ^ e| = m * 2 ^ e := by
        have hpos : (0 : ℚ) < 2 ^ e := zpow_pos two_pos e
        rw [abs_mul, abs_of_pos hpos, ← Int.cast_abs, Int.abs_eq_natAbs, natAbs_apply]
        rfl
      rw [grid_indexOf_finite hx.canonical, habs, ← atMost_iff hm]
      refine ⟨fun h => ⟨rfl, h.atMost⟩, fun ⟨_, h⟩ => ⟨h, hle, ?_⟩⟩
      rcases hfull with hfull | rfl
      · have := (Nat.pow_le_pow_iff_right (by norm_num)).mp (hfull.trans h.mantissa_le)
        refine le_max_of_le_left ?_
        change e ≤ k + 1 - 24
        omega
      · exact le_max_right _ _

namespace Within

variable {x y : Float32}

theorem isFinite (h : Within k x) : x.isFinite = true :=
  h.bounded.isFinite

theorem mono (h : Within k x) (hkl : k ≤ l) : Within l x :=
  ⟨h.bounded.mono hkl⟩

theorem of_abs_le (h : x.abs ≤ y) (hy : Within k y) : Within k x := by
  obtain ⟨hn, -, hle⟩ := le_iff.mp h
  have hvalue : |value x| ≤ |value y| := by
    rw [← value_abs]
    exact (grid_strictMono.monotone hle).trans (le_abs_self _)
  have hfinite : x.isFinite = true := by
    rw [isNaN_abs] at hn
    rw [index_abs, Int.abs_eq_natAbs] at hle
    have hlt := (isFinite_iff.mp hy.isFinite).2
    exact isFinite_iff.mpr ⟨hn, by omega⟩
  exact within_iff_abs_value_le.mpr ⟨hfinite, hvalue.trans (within_iff_abs_value_le.mp hy).2⟩

theorem neg (h : Within k x) (hk : k ≤ 127) : Within k (-x) :=
  within_ofModel_pack h.bounded.neg hk

theorem add (hx : Within k x) (hy : Within k y) (hk : k < 127) : Within (k + 1) (x + y) :=
  within_ofModel_pack (hx.bounded.add hy.bounded) hk

theorem sub (hx : Within k x) (hy : Within k y) (hk : k < 127) : Within (k + 1) (x - y) :=
  within_ofModel_pack (hx.bounded.sub hy.bounded) hk

theorem mul (hx : Within j x) (hy : Within k y) (hlo : -149 ≤ j + k) (hhi : j + k ≤ 127) :
    Within (j + k) (x * y) :=
  within_ofModel_pack (hx.bounded.mul hy.bounded hlo) hhi

end Within

theorem within_of_isFinite {x : Float32} (h : x.isFinite = true) : Within 128 x := by
  refine within_iff_abs_value_le.mpr ⟨h, ?_⟩
  have hu := units_strictMono.monotone (natAbs_index_le x)
  rw [units_infinityIndex] at hu
  rw [value, abs_grid, div_le_iff₀ (by positivity)]
  refine (Nat.cast_le.mpr hu).trans_eq ?_
  norm_num

@[simp] theorem isFinite_neg (x : Float32) : (-x).isFinite = x.isFinite := by
  rw [Bool.eq_iff_iff, isFinite_iff, isFinite_iff, isNaN_neg, index_neg, Int.natAbs_neg]

@[simp] theorem isFinite_abs (x : Float32) : x.abs.isFinite = x.isFinite := by
  rw [Bool.eq_iff_iff, isFinite_iff, isFinite_iff, isNaN_abs, index_abs, Int.natAbs_abs]

theorem natAbs_nearest_last_lt :
    (nearest ((2 ^ 24 - 1) * 2 ^ 104 + 2 ^ 100)).natAbs < infinityIndex := by
  have hu : ((2 ^ 24 - 1) * 2 ^ 104 + 2 ^ 100 : ℚ) * 2 ^ 149 / 2 ^ 253 = 16777215 + 1 / 16 := by
    norm_num
  have hd : doublings (((2 ^ 24 - 1) * 2 ^ 104 + 2 ^ 100) * 2 ^ 149) = 253 :=
    doublings_eq (by rw [hu]; norm_num) (.inl (by rw [hu]; norm_num))
  have hfloor : ⌊(16777215 + 1 / 16 : ℚ)⌋₊ = 16777215 := by
    rw [Nat.floor_eq_iff (by norm_num)]
    norm_num
  have hm : nearestEven (16777215 + 1 / 16) = 16777215 := by
    unfold nearestEven
    rw [hfloor, if_pos (by norm_num)]
  rw [nearest_of_nonneg (by norm_num), nearestIndex, hd, hu, hm, infinityIndex]
  norm_num

/-- Next to infinity there is room for any number of at most `2 ^ 100`. -/
theorem isFinite_add_of_small {a b : Float32} (ha : Within 100 a) (hb : b.isFinite = true) :
    (a + b).isFinite = true := by
  obtain ⟨hfa, hva⟩ := within_iff_abs_value_le.mp ha
  have hvb : |value b| ≤ (2 ^ 24 - 1) * 2 ^ 104 := by
    have hindex : (index b).natAbs ≤ 253 * 2 ^ 23 + (2 ^ 24 - 1) := by
      have hlt := (isFinite_iff.mp hb).2
      rw [infinityIndex] at hlt
      omega
    have hunits := units_strictMono.monotone hindex
    rw [units_of_mantissa (by norm_num) (.inl (by norm_num))] at hunits
    rw [value, abs_grid, div_le_iff₀ (by positivity)]
    refine (Nat.cast_le.mpr hunits).trans_eq ?_
    norm_num
  refine isFinite_iff.mpr ⟨isNaN_add hfa (isNaN_of_isFinite hb), ?_⟩
  rw [index_add hfa hb]
  refine natAbs_nearest_lt_of_abs_le ?_ natAbs_nearest_last_lt
  refine (abs_add_le _ _).trans ?_
  rw [add_comm]
  exact add_le_add hvb (hva.trans_eq (by norm_num))

theorem within_ofNat_of_le {d : ℕ} (h : n ≤ 2 ^ d) (hd : d ≤ 127) : Within d (ofNat n) := by
  refine within_ofModel_pack (bounded_normalize _ ⟨by omega, ?_⟩ ?_) (by omega)
  · rw [sub_zero, Int.toNat_natCast]
    exact (UInt64.toNat_ofNat' ▸ Nat.mod_le _ _ : (UInt64.ofNat n).toNat ≤ n).trans h
  · have : Format.binary32.minExponent = -149 := by decide
    omega

theorem within_ofInt_of_le {z : ℤ} {d : ℕ} (h : z.natAbs ≤ 2 ^ d) (hd : d ≤ 127) :
    Within d (ofInt z) := by
  cases z with
  | ofNat n => exact within_ofNat_of_le h hd
  | negSucc n => exact (within_ofNat_of_le h hd).neg (by omega)

theorem within_ofNat (n : ℕ) : Within 64 (ofNat n) := by
  refine within_ofModel_pack (bounded_normalize _ ⟨by norm_num, ?_⟩ (by decide)) (by norm_num)
  exact (UInt64.toNat_lt _).le

theorem within_ofInt (z : ℤ) : Within 64 (ofInt z) := by
  cases z with
  | ofNat n => exact within_ofNat n
  | negSucc n => exact (within_ofNat (n + 1)).neg (by norm_num)

theorem Within.upper {x y : Float32} (hx : Within k x) (hy : Within k y) :
    Within k (Single.upper x y) := by
  unfold Single.upper
  split
  · exact hx
  · exact hy

end DriveOverlay.Single

namespace DriveOverlay.Double

open DriveOverlay.Single
open Float.Model (Format UnpackedFloat)

variable {j k l : ℤ}

/-! ### Doubles -/

/-- A finite double of magnitude at most `2 ^ k`. -/
structure Within (k : ℤ) (x : Float) : Prop where
  bounded : Bounded Format.binary64 k x.toModel.unpack

instance (x : Float) : Decidable (Within k x) :=
  decidable_of_iff (Bounded Format.binary64 k x.toModel.unpack) ⟨Within.mk, Within.bounded⟩

theorem within_ofModel_pack {x : UnpackedFloat} (h : Bounded Format.binary64 k x)
    (hk : k ≤ 1023) : Within k (.ofModel (.pack x)) :=
  ⟨bounded_unpack_pack h (by decide) hk⟩

namespace Within

variable {x y : Float}

theorem mono (h : Within k x) (hkl : k ≤ l) : Within l x :=
  ⟨h.bounded.mono hkl⟩

theorem neg (h : Within k x) (hk : k ≤ 1023) : Within k (-x) :=
  within_ofModel_pack h.bounded.neg hk

theorem add (hx : Within k x) (hy : Within k y) (hk : k < 1023) : Within (k + 1) (x + y) :=
  within_ofModel_pack (hx.bounded.add hy.bounded) hk

theorem sub (hx : Within k x) (hy : Within k y) (hk : k < 1023) : Within (k + 1) (x - y) :=
  within_ofModel_pack (hx.bounded.sub hy.bounded) hk

theorem mul (hx : Within j x) (hy : Within k y) (hlo : -1074 ≤ j + k) (hhi : j + k ≤ 1023) :
    Within (j + k) (x * y) :=
  within_ofModel_pack (hx.bounded.mul hy.bounded hlo) hhi

end Within

end DriveOverlay.Double
