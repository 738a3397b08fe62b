import DriveOverlay.Proofs.Single.Magnitude
import DriveOverlay.Proofs.Single.Order

/-! # Singles as doubles

A double has room for every mantissa and every exponent of a finite single, so that the conversion
to a double rounds nothing off.  The single nearest to that double is the one it came from, and the
sign of a zero stays.

* `round_of_le`: rounding an exponent that is high enough only fills up the mantissa;
* `unpack_pack_of_full`: a full mantissa is kept in a format with enough exponents;
* `ofDouble_toDouble`: there and back. -/

namespace DriveOverlay.Single

open Float.Model (Format UnpackedFloat totalExponent)
open Float.Model.UnpackedFloat

variable {f : Format} {s : Sign} {m : ℕ} {e : ℤ}

/-! ### Exact mantissas -/

theorem shiftToTargetExponent_of_le (h : f.targetExponent (totalExponent m e) ≤ e) :
    shiftToTargetExponent f m e .exact = (⟨m, false, false⟩, e) := by
  have hz : (f.targetExponent (totalExponent m e) - e).toNat = 0 := by omega
  unfold shiftToTargetExponent shiftToExponent
  dsimp only
  rw [hz]
  exact congrArg _ (add_zero e)

theorem roundWithAccuracy_of_le (hm : 0 < m) (h : f.targetExponent (totalExponent m e) ≤ e) :
    roundWithAccuracy f s m e .exact = .finite s m e hm := by
  have hshift := shiftToTargetExponent_of_le h
  have hrounded : (⟨m, false, false⟩ : ExtendedMantissa).roundedMantissa = m := rfl
  unfold roundWithAccuracy
  rw [hshift]
  dsimp only
  rw [hrounded, hshift]
  exact dif_neg hm.ne'

/-- An exponent that is high enough is brought down to where the mantissa is full. -/
theorem round_of_le (hm : 0 < m) (h : f.targetExponent (totalExponent m e) ≤ e) :
    ∃ (k : ℕ) (hk : 0 < m * 2 ^ k), e - k = f.targetExponent (totalExponent m e) ∧
      UnpackedFloat.round f s m e = .finite s (m * 2 ^ k) (e - k) hk := by
  obtain ⟨k, hk⟩ : ∃ k : ℕ, (e - f.targetExponent (totalExponent m e)).toNat = k := ⟨_, rfl⟩
  have he : e - k = f.targetExponent (totalExponent m e) := by omega
  have htotal : totalExponent (m * 2 ^ k) (e - k) = totalExponent m e := by
    rw [totalExponent, totalExponent, log2_mul_pow hm]
    omega
  refine ⟨k, by positivity, he, ?_⟩
  unfold UnpackedFloat.round decreaseExponent
  dsimp only
  rw [hk, Nat.shiftLeft_eq]
  exact roundWithAccuracy_of_le _ (by rw [htotal, he])

/-! ### Full mantissas -/

@[simp] theorem unpackSign_packComponents_format (s : Sign) (exponent : BitVec f.exponentBits)
    (mantissa : BitVec f.mantissaBitsWithoutImplicit) :
    unpackSign (packComponents f s exponent mantissa) = s.toBitVec := by
  have hwidth (n : ℕ) : n - n + 1 = 1 := by omega
  change ((s.toBitVec ++ exponent ++ mantissa).extractLsb
    (f.mantissaBitsWithoutImplicit + f.exponentBits)
    (f.mantissaBitsWithoutImplicit + f.exponentBits)).cast (hwidth _) = s.toBitVec
  ext i hi
  obtain rfl : i = 0 := by omega
  simp [BitVec.getLsbD_append, BitVec.getElem_append]

/-- What has a full mantissa and an exponent of the format is unpacked as it was packed. -/
theorem unpack_pack_of_full (hm : 0 < m) (hlog : m.log2 = f.mantissaBitsWithoutImplicit)
    (hlo : 0 < e + f.exponentBias + f.mantissaBitsWithoutImplicit)
    (hhi : (e + f.exponentBias + f.mantissaBitsWithoutImplicit).toNat + 1 < 2 ^ f.exponentBits) :
    unpack f (pack f (.finite s m e hm)) = .finite s m e hm := by
  obtain ⟨biased, hb⟩ :
      ∃ n : ℕ, (e + f.exponentBias + f.mantissaBitsWithoutImplicit).toNat = n := ⟨_, rfl⟩
  rw [hb] at hhi
  have hpack : pack f (.finite s m e hm) = packComponents f s (BitVec.ofNat _ biased)
      (BitVec.ofNat _ m) := by
    unfold pack
    dsimp only
    rw [hb, if_neg (by omega), if_pos (by rw [hlog, mantissaBits_eq, add_comm])]
  have hexponent : (BitVec.ofNat f.exponentBits biased).toNat = biased := by
    rw [BitVec.toNat_ofNat, Nat.mod_eq_of_lt (by omega)]
  have hones : BitVec.ofNat f.exponentBits biased ≠ -1#_ := by
    intro h
    rw [h, BitVec.neg_one_eq_allOnes, BitVec.toNat_allOnes] at hexponent
    omega
  have hnil : BitVec.ofNat f.exponentBits biased ≠ 0#_ := by
    intro h
    rw [h, BitVec.toNat_ofNat, Nat.zero_mod] at hexponent
    omega
  have hmantissa : (1#1 ++ BitVec.ofNat f.mantissaBitsWithoutImplicit m).toNat = m := by
    rw [BitVec.toNat_append, ← Nat.shiftLeft_add_eq_or_of_lt (BitVec.isLt _), BitVec.toNat_ofNat]
    simpa [Nat.shiftLeft_eq] using two_pow_add_mod hm hlog
  rw [hpack]
  unfold unpack
  dsimp only
  rw [unpackExponent_packComponents, if_neg hones, if_neg hnil, unpackSign_packComponents_format,
    ofBitVec_toBitVec]
  refine finite_congr ?_ ?_
  · rw [unpackMantissa_packComponents, hmantissa]
  · rw [hexponent]
    omega

/-! ### There and back -/

theorem round_of_canonical {hm : 0 < m} (h : Canonical (.finite s m e hm)) :
    UnpackedFloat.round Format.binary32 s m e = .finite s m e hm := by
  obtain ⟨hlt, hle, hfull⟩ := h
  have hlog : m.log2 < 24 := (Nat.log2_lt hm.ne').mpr hlt
  have htarget : Format.binary32.targetExponent (totalExponent m e) = e := by
    rw [targetExponent_eq, totalExponent]
    rcases hfull with hfull | rfl
    · have := (Nat.le_log2 hm.ne').mpr hfull
      omega
    · omega
  obtain ⟨k, hk, he, hround⟩ := round_of_le (s := s) hm htarget.le
  obtain rfl : k = 0 := by omega
  rw [hround]
  exact finite_congr (mul_one m) (sub_zero e)

theorem unpack_toDouble {x : Float32} {hm : 0 < m} (hx : x.toModel.unpack = .finite s m e hm) :
    ∃ (k : ℕ) (hk : 0 < m * 2 ^ k),
      (toDouble x).toModel.unpack = .finite s (m * 2 ^ k) (e - k) hk := by
  have hsingle := isSingle_unpack x.toModel
  rw [hx] at hsingle
  obtain ⟨hlt, hlo, -⟩ := hsingle.canonical
  have hhi := hsingle.index_lt
  rw [infinityIndex] at hhi
  have hlog : m.log2 < 24 := (Nat.log2_lt hm.ne').mpr hlt
  have htarget : Format.binary64.targetExponent (totalExponent m e) = m.log2 + e - 52 := by
    change max ((m.log2 : ℤ) + 1 + e - 53) (-1074) = _
    omega
  have hle : Format.binary64.targetExponent (totalExponent m e) ≤ e := by omega
  obtain ⟨k, hk, he, hround⟩ := round_of_le (s := s) hm hle
  refine ⟨k, hk, ?_⟩
  have hfull : (m * 2 ^ k).log2 = 52 := by
    rw [log2_mul_pow hm]
    omega
  have hbias : (Format.binary64.exponentBias : ℤ) = 1023 := rfl
  unfold toDouble
  rw [hx]
  dsimp only
  rw [hround]
  refine unpack_pack_of_full hk hfull ?_ ?_
  · rw [hbias]
    omega
  · rw [hbias]
    change (e - k + 1023 + 52).toNat + 1 < 2 ^ 11
    omega

theorem ofDouble_toDouble_of_ne_zero {x : Float32} {hm : 0 < m}
    (hx : x.toModel.unpack = .finite s m e hm) : ofDouble (toDouble x) = x := by
  obtain ⟨k, hk, hdouble⟩ := unpack_toDouble hx
  have hsingle := isSingle_unpack x.toModel
  rw [hx] at hsingle
  have hvalue : (m : ℚ) * 2 ^ (e + 149) = (m * 2 ^ k : ℕ) * 2 ^ (e - k + 149) := by
    push_cast
    rw [← zpow_natCast, mul_assoc, ← zpow_add₀ two_ne_zero]
    congr 2
    ring
  have hthere := round_spec s e hm rfl
  have hback := round_spec s (e - k) hk hvalue
  rw [round_of_canonical hsingle.canonical] at hthere
  have he : ofDouble (toDouble x) =
      .ofModel (.pack (UnpackedFloat.round Format.binary32 s (m * 2 ^ k) (e - k))) := by
    unfold ofDouble
    rw [hdouble]
  have hi : index x = indexOf (.finite s m e hm) := by rw [index, hx]
  have hthere := hthere.indexOf_eq
  rw [hsingle.saturate_eq, ← hi] at hthere
  rw [← hthere] at hback
  rw [he]
  refine eq_of_index_eq ((isNaN_ofModel_pack _).trans hback.isNaN_eq) ?_ hback.index_eq ?_
  · change x.toModel.unpack.isNaN = false
    rw [hx]
    rfl
  · rw [hback.index_eq, hi]
    cases s with
    | positive => exact (indexOf_positive hm).ne'
    | negative => exact (indexOf_negative hm).ne

/-- A finite single is the one nearest to the double that it is equal to. -/
theorem ofDouble_toDouble {x : Float32} (h : x.isFinite = true) : ofDouble (toDouble x) = x := by
  have hfinite : x.toModel.unpack.isFinite = true := h
  match hx : x.toModel.unpack with
  | .notANumber | .infinity s =>
      rw [hx] at hfinite
      cases hfinite
  | .zero s =>
      have hi : index x = 0 := by rw [index, hx, indexOf_zero]
      rcases eq_zero_of_index (isNaN_of_isFinite h) hi with rfl | rfl <;> decide
  | .finite s m e hm => exact ofDouble_toDouble_of_ne_zero hx

end DriveOverlay.Single
