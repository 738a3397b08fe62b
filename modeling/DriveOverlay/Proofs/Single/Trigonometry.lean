import DriveOverlay.Proofs.Single.Magnitude
import DriveOverlay.Single.Trigonometry

/-! # Sines are finite

Sine and cosine are computed in doubles, on a reduced angle.  The bounds here are far from sharp:
they only say that no step of the reduction or of the polynomials leaves the range of the format, so
that the sine and the cosine of a finite angle are finite and small enough to be multiplied by
lengths on the surface.

* `within_reduce`: what is left of an angle is at most `2 ^ 9`;
* `within_sin`, `within_cos`: then both functions are at most `2 ^ 74`;
* `isFinite_toRadians`: a finite angle stays finite when it is converted. -/

namespace DriveOverlay.Single

open Float.Model (Format UnpackedFloat)
open Float.Model.UnpackedFloat

variable {k : ℤ}

/-! ### Conversions -/

theorem within_ofDouble {x : Float} (h : Double.Within k x) (hlo : -149 ≤ k) (hhi : k ≤ 127) :
    Within k (ofDouble x) := by
  refine within_ofModel_pack ?_ hhi
  have h := h.bounded
  generalize x.toModel.unpack = x at h
  cases x with
  | finite s m e hm => exact bounded_round s (Fits.atMost h) hlo
  | _ => exact h

theorem within_toDouble {x : Float32} (h : Within k x) (hlo : -1074 ≤ k) (hhi : k ≤ 1023) :
    Double.Within k (toDouble x) := by
  refine Double.within_ofModel_pack ?_ hhi
  have h := h.bounded
  generalize x.toModel.unpack = x at h
  cases x with
  | finite s m e hm => exact bounded_round s (Fits.atMost h) hlo
  | _ => exact h

theorem within_toFloat {n : UInt64} {d : ℕ} (h : n.toNat ≤ 2 ^ d) (hd : d ≤ 1023) :
    Double.Within d n.toFloat := by
  refine Double.within_ofModel_pack (bounded_normalize _ ⟨by omega, ?_⟩ ?_) (by omega)
  · rwa [sub_zero, Int.toNat_natCast]
  · have : Format.binary64.minExponent = -1074 := by decide
    omega

theorem within_wholeDouble {z : ℤ} {d : ℕ} (h : z.natAbs ≤ 2 ^ d) (hd : d ≤ 1023) :
    Double.Within d (wholeDouble z) := by
  have hmod (n : ℕ) (hn : n ≤ 2 ^ d) : (UInt64.ofNat n).toNat ≤ 2 ^ d :=
    (UInt64.toNat_ofNat' ▸ Nat.mod_le _ _).trans hn
  cases z with
  | ofNat n => exact within_toFloat (hmod n h) hd
  | negSucc n => exact (within_toFloat (hmod (n + 1) h) hd).neg (by omega)

theorem toNat_toUInt64_le {x : Float} {d : ℕ} (h : Double.Within d x) :
    x.toUInt64.toNat ≤ 2 ^ d := by
  refine (toNat_ofNatClamp64 _).trans_le ((min_le_right _ _).trans ?_)
  have h := h.bounded
  generalize x.toModel.unpack = x at h
  cases x with
  | notANumber => exact h.elim
  | infinity s => exact h.elim
  | zero s => exact Nat.zero_le _
  | finite s m e hm =>
      have hfloor : ⌊(m : ℚ) * 2 ^ e⌋₊ ≤ 2 ^ d := by
        refine Nat.floor_le_of_le (((atMost_iff hm).mp (Fits.atMost h)).trans_eq ?_)
        rw [zpow_natCast, Nat.cast_pow, Nat.cast_two]
      change (roundToInt s m e).toNat ≤ 2 ^ d
      rw [roundToInt_eq]
      cases s with
      | positive => exact hfloor
      | negative =>
          rw [Sign.apply, Int.toNat_neg_natCast]
          exact Nat.zero_le _

/-! ### Polynomials -/

theorem within_mul_coefficient {x c : Float} (hx : Double.Within k x) (hc : Double.Within 0 c)
    (hlo : -1074 ≤ k) (hhi : k ≤ 1023) : Double.Within k (x * c) := by
  have h := hx.mul hc (by omega) (by omega)
  rwa [add_zero] at h

theorem within_sineNearZero {x square : Float} (hx : Double.Within 9 x)
    (hs : Double.Within 18 square) : Double.Within 65 (sineNearZero x square) := by
  have hcube : Double.Within 27 (x * square) := hx.mul hs (by norm_num) (by norm_num)
  have hhigh := (by decide : Double.Within 18 (.ofBits 0x3f81107605230bc4)).add
    (within_mul_coefficient hs (by decide : Double.Within 0 (.ofBits 0xbf2994eb3774cf24))
      (by norm_num) (by norm_num)) (by norm_num)
  have hlow := (hx.mono (by norm_num)).add
    (within_mul_coefficient hcube (by decide : Double.Within 0 (.ofBits 0xbfc555545995a603))
      (by norm_num) (by norm_num)) (by norm_num)
  have hrest := (hcube.mul hs (by norm_num) (by norm_num)).mul hhigh (by norm_num) (by norm_num)
  exact (hlow.mono (by norm_num)).add hrest (by norm_num)

theorem within_cosineNearZero {square : Float} (hs : Double.Within 18 square) :
    Double.Within 74 (cosineNearZero square) := by
  have hfourth : Double.Within 36 (square * square) := hs.mul hs (by norm_num) (by norm_num)
  have hhigh := (by decide : Double.Within 18 (.ofBits 0xbf56c087e89a359d)).add
    (within_mul_coefficient hs (by decide : Double.Within 0 (.ofBits 0x3ef99343027bf8c3))
      (by norm_num) (by norm_num)) (by norm_num)
  have hstart := (by decide : Double.Within 18 1).add
    (within_mul_coefficient hs (by decide : Double.Within 0 (.ofBits 0xbfdffffffd0c621c))
      (by norm_num) (by norm_num)) (by norm_num)
  have hlow := (hstart.mono (by norm_num)).add
    (within_mul_coefficient hfourth (by decide : Double.Within 0 (.ofBits 0x3fa55553e1068f19))
      (by norm_num) (by norm_num)) (by norm_num)
  have hrest := (hfourth.mul hs (by norm_num) (by norm_num)).mul hhigh (by norm_num) (by norm_num)
  exact (hlow.mono (by norm_num)).add hrest (by norm_num)

/-! ### Reduction -/

theorem within_reduceSmall {x : Float} (h : Double.Within 7 x) :
    Double.Within 9 (reduceSmall x).rest := by
  have hproduct : Double.Within (31 : ℕ) (x * .ofBits 0x41645f306dc9c883) :=
    h.mul (by decide : Double.Within 24 (.ofBits 0x41645f306dc9c883)) (by norm_num) (by norm_num)
  have hpos := toNat_toUInt64_le hproduct
  have hneg := toNat_toUInt64_le (hproduct.neg (by norm_num))
  have hquarters : (reduceSmall x).quarters.natAbs ≤ 2 ^ 7 := by
    unfold reduceSmall
    dsimp only
    split <;> omega
  have hturned := (within_wholeDouble hquarters (by norm_num)).mul
    (by decide : Double.Within 1 (.ofBits 0x3ff921fb54442d18)) (by norm_num) (by norm_num)
  exact (h.mono (by norm_num)).sub hturned (by norm_num)

theorem within_reduceLarge (bits : UInt32) : Double.Within 3 (reduceLarge bits).rest := by
  have hfloat (n : UInt64) : Double.Within 64 n.toFloat :=
    within_toFloat (d := 64) n.toNat_lt.le (by norm_num)
  have hunit : Double.Within (-61) (.ofBits 0x3c1921fb54442d18) := by decide
  unfold reduceLarge
  dsimp only
  split
  · exact (hfloat _).mul hunit (by norm_num) (by norm_num)
  · exact ((hfloat _).neg (by norm_num)).mul hunit (by norm_num) (by norm_num)

theorem within_of_bits {x : Float32} (h : x.isFinite = true)
    (hb : x.toBits &&& 0x7fffffff < 0x42f00000) : Within 7 x := by
  have hlow : x.toBits.toNat % 2 ^ 31 ≤ 133 * 2 ^ 23 + 7340032 := by
    have hb := UInt32.lt_iff_toNat_lt.mp hb
    rw [UInt32.toNat_and] at hb
    change x.toBits.toNat &&& (2 ^ 31 - 1) < _ at hb
    rw [Nat.and_two_pow_sub_one_eq_mod] at hb
    exact hb.le
  have hindex : (index x).natAbs ≤ 132 * 2 ^ 23 + 15728640 := by
    have hlt := x.toBits.toNat_lt
    rw [index_eq_toBits (isNaN_of_isFinite h)]
    split <;> omega
  have hunits := units_strictMono.monotone hindex
  rw [units_of_mantissa (by norm_num) (.inl (by norm_num))] at hunits
  refine within_iff_abs_value_le.mpr ⟨h, ?_⟩
  rw [value, abs_grid, div_le_iff₀ (by positivity)]
  refine (Nat.cast_le.mpr hunits).trans ?_
  norm_num

theorem within_reduce {x : Float32} (h : x.isFinite = true) : Double.Within 9 (reduce x).rest := by
  unfold reduce
  dsimp only
  split
  · rename_i hb
    have hx := within_of_bits h (UInt32.lt_trans hb (by decide))
    exact (within_toDouble hx (by norm_num) (by norm_num)).mono (by norm_num)
  · split
    · rename_i hb
      exact within_reduceSmall (within_toDouble (within_of_bits h hb) (by norm_num) (by norm_num))
    · have hl := within_reduceLarge (x.toBits &&& 0x7fffffff)
      split
      · exact (hl.neg (by norm_num)).mono (by norm_num)
      · exact hl.mono (by norm_num)

/-! ### The functions -/

theorem within_sineAt (quarters : ℤ) {rest : Float} (h : Double.Within 9 rest) :
    Within 74 (sineAt quarters rest) := by
  have hs : Double.Within 18 (rest * rest) := h.mul h (by norm_num) (by norm_num)
  have hvalue : Double.Within 74 (if quarters % 2 = 0 then sineNearZero rest (rest * rest)
      else cosineNearZero (rest * rest)) := by
    split
    · exact (within_sineNearZero h hs).mono (by norm_num)
    · exact within_cosineNearZero hs
  unfold sineAt
  dsimp only
  refine within_ofDouble ?_ (by norm_num) (by norm_num)
  split
  · exact hvalue
  · exact hvalue.neg (by norm_num)

theorem within_sin {x : Float32} (h : x.isFinite = true) : Within 74 (sin x) := by
  unfold sin
  split
  · rename_i hb
    exact (within_of_bits h (UInt32.lt_trans hb (by decide))).mono (by norm_num)
  · exact within_sineAt _ (within_reduce h)

theorem within_cos {x : Float32} (h : x.isFinite = true) : Within 74 (cos x) := by
  unfold cos
  split
  · exact (by decide : Within 0 1).mono (by norm_num)
  · exact within_sineAt _ (within_reduce h)

/-! ### Angles in degrees -/

theorem isFinite_toRadians {x : Float32} (h : x.isFinite = true) :
    (toRadians x).isFinite = true := by
  have hc : Within (-5) (.ofBits 0x40490fdb / 180) := by decide
  exact ((within_of_isFinite h).mul hc (by norm_num) (by norm_num)).isFinite

end DriveOverlay.Single
