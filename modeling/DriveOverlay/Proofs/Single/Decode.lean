import DriveOverlay.Proofs.Single.Grid

/-! # Singles on the grid

`index` gives the place of a single on the grid: zero has index `0`, and the other numbers follow in
order, on both sides up to an infinity.

* `unpack_pack`: packing loses nothing of a canonical form but exponents that are too large;
* `index_eq_toBits`: the index is the number that the bits below the sign make;
* `lt_iff`, `le_iff`, `beq_iff`: numbers compare like their indices, and NaN with nothing. -/

namespace DriveOverlay.Single

open Float.Model (Format UnpackedFloat)
open Float.Model.UnpackedFloat

/-! ### Unpacked singles -/

/-- A single by its sign, its biased exponent and the stored part of its mantissa. -/
def ofFields (s : Sign) (exponent mantissa : ℕ) : UnpackedFloat :=
  if exponent = 255 then if mantissa = 0 then .infinity s else .notANumber
  else if exponent = 0 then
    if h : mantissa = 0 then .zero s else .finite s mantissa (-149) (Nat.pos_of_ne_zero h)
  else .finite s (2 ^ 23 + mantissa) (exponent - 150) (by positivity)

theorem ofFields_cases (s : Sign) (exponent mantissa : ℕ) :
    (exponent = 255 ∧ mantissa = 0 ∧ ofFields s exponent mantissa = .infinity s) ∨
    (exponent = 255 ∧ ofFields s exponent mantissa = .notANumber) ∨
    (exponent = 0 ∧ mantissa = 0 ∧ ofFields s exponent mantissa = .zero s) ∨
    (exponent = 0 ∧ ∃ h, ofFields s exponent mantissa = .finite s mantissa (-149) h) ∨
    (exponent ≠ 255 ∧ exponent ≠ 0 ∧
      ∃ h, ofFields s exponent mantissa = .finite s (2 ^ 23 + mantissa) (exponent - 150) h) := by
  rw [ofFields]
  by_cases h255 : exponent = 255
  · rw [if_pos h255]
    by_cases h0 : mantissa = 0
    · exact .inl ⟨h255, h0, if_pos h0⟩
    · exact .inr (.inl ⟨h255, if_neg h0⟩)
  · rw [if_neg h255]
    by_cases hz : exponent = 0
    · rw [if_pos hz]
      by_cases h0 : mantissa = 0
      · exact .inr (.inr (.inl ⟨hz, h0, dif_pos h0⟩))
      · exact .inr (.inr (.inr (.inl ⟨hz, Nat.pos_of_ne_zero h0, dif_neg h0⟩)))
    · exact .inr (.inr (.inr (.inr ⟨h255, hz, by positivity, if_neg hz⟩)))

theorem finite_congr {s : Sign} {m m' : ℕ} {e e' : ℤ} {h : 0 < m} {h' : 0 < m'} (hm : m = m')
    (he : e = e') : UnpackedFloat.finite s m e h = .finite s m' e' h' := by
  subst hm he
  rfl

theorem unpack_eq_ofFields (b : BitVec Format.binary32.numBits) :
    unpack Format.binary32 b =
      ofFields (Sign.ofBitVec (unpackSign b)) (unpackExponent b).toNat (unpackMantissa b).toNat := by
  have hi : unpackExponent b = -1#_ ↔ (unpackExponent b).toNat = 255 := by
    rw [← BitVec.toNat_inj]
    rfl
  have he : unpackExponent b = 0#_ ↔ (unpackExponent b).toNat = 0 := by
    rw [← BitVec.toNat_inj]
    rfl
  have hm : unpackMantissa b = 0#_ ↔ (unpackMantissa b).toNat = 0 := by
    rw [← BitVec.toNat_inj]
    rfl
  have hl : (1#1 ++ unpackMantissa b).toNat = 2 ^ 23 + (unpackMantissa b).toNat := by
    rw [BitVec.toNat_append, ← Nat.shiftLeft_add_eq_or_of_lt (unpackMantissa b).isLt]
    rfl
  unfold unpack ofFields
  dsimp only
  by_cases h255 : (unpackExponent b).toNat = 255
  · rw [if_pos (hi.mpr h255), if_pos h255]
    by_cases h0 : (unpackMantissa b).toNat = 0
    · rw [if_pos (hm.mpr h0), if_pos h0]
    · rw [if_neg (mt hm.mp h0), if_neg h0]
  · rw [if_neg (mt hi.mp h255), if_neg h255]
    by_cases hz : (unpackExponent b).toNat = 0
    · rw [if_pos (he.mpr hz), if_pos hz]
      by_cases h0 : (unpackMantissa b).toNat = 0
      · rw [dif_pos (hm.mpr h0), dif_pos h0]
      · rw [dif_neg (mt hm.mp h0), dif_neg h0]
        exact finite_congr rfl (by rw [hz]; rfl)
    · rw [if_neg (mt he.mp hz), if_neg hz]
      exact finite_congr hl rfl

@[simp] theorem unpackSign_packComponents (s : Sign) (exponent : BitVec 8) (mantissa : BitVec 23) :
    unpackSign (packComponents Format.binary32 s exponent mantissa) = s.toBitVec := by
  change ((s.toBitVec ++ exponent) ++ mantissa).extractLsb' 31 1 = s.toBitVec
  rw [BitVec.extractLsb'_append_eq_of_le (by decide), BitVec.extractLsb'_append_eq_of_le (by decide)]
  exact BitVec.extractLsb'_eq_self

@[simp] theorem ofBitVec_toBitVec (s : Sign) : Sign.ofBitVec s.toBitVec = s := by
  cases s <;> rfl

theorem unpack_packComponents (s : Sign) (exponent : BitVec 8) (mantissa : BitVec 23) :
    unpack Format.binary32 (packComponents Format.binary32 s exponent mantissa) =
      ofFields s exponent.toNat mantissa.toNat := by
  rw [unpack_eq_ofFields, unpackSign_packComponents, unpackExponent_packComponents,
    unpackMantissa_packComponents, ofBitVec_toBitVec]

/-! ### Canonical forms -/

/-- A finite number has a full mantissa, or the least exponent. -/
def Canonical : UnpackedFloat → Prop
  | .finite _ m e _ => m < 2 ^ 24 ∧ -149 ≤ e ∧ (2 ^ 23 ≤ m ∨ e = -149)
  | _ => True

/-- A finite number whose exponent is too large becomes infinite. -/
def saturate : UnpackedFloat → UnpackedFloat
  | .finite s m e h => if e ≤ 104 then .finite s m e h else .infinity s
  | x => x

theorem saturate_of_le {s : Sign} {m : ℕ} {e : ℤ} {h : 0 < m} (he : e ≤ 104) :
    saturate (.finite s m e h) = .finite s m e h :=
  if_pos he

theorem saturate_of_not_le {s : Sign} {m : ℕ} {e : ℤ} {h : 0 < m} (he : ¬e ≤ 104) :
    saturate (.finite s m e h) = .infinity s :=
  if_neg he

/-- The forms that singles have when they are unpacked. -/
structure IsSingle (x : UnpackedFloat) : Prop where
  canonical : Canonical x
  saturate_eq : saturate x = x

theorem isSingle_ofFields (s : Sign) {exponent mantissa : ℕ} (he : exponent < 256)
    (hm : mantissa < 2 ^ 23) : IsSingle (ofFields s exponent mantissa) := by
  rcases ofFields_cases s exponent mantissa with
    ⟨-, -, e⟩ | ⟨-, e⟩ | ⟨-, -, e⟩ | ⟨-, h, e⟩ | ⟨h255, hz, h, e⟩ <;> rw [e]
  · exact ⟨trivial, rfl⟩
  · exact ⟨trivial, rfl⟩
  · exact ⟨trivial, rfl⟩
  · exact ⟨⟨by omega, le_rfl, .inr rfl⟩, saturate_of_le (by norm_num)⟩
  · exact ⟨⟨by omega, by omega, by omega⟩, saturate_of_le (by omega)⟩

theorem isSingle_unpack (x : Float32.Model) : IsSingle x.unpack := by
  unfold Float32.Model.unpack
  rw [unpack_eq_ofFields]
  exact isSingle_ofFields _ (BitVec.isLt _) (BitVec.isLt _)

theorem pack_finite (s : Sign) {m : ℕ} {e : ℤ} (h : 0 < m) :
    pack Format.binary32 (.finite s m e h) =
      if 256 ≤ (e + 127 + 23).toNat + 1 then packComponents Format.binary32 s (-1#8) 0
      else if m.log2 + 1 = 24 then
        packComponents Format.binary32 s (BitVec.ofNat 8 (e + 127 + 23).toNat) (BitVec.ofNat 23 m)
      else packComponents Format.binary32 s 0#8 (BitVec.ofNat 23 m) := rfl

/-- Packing a canonical form loses nothing but exponents that are too large. -/
theorem unpack_pack {x : UnpackedFloat} (hx : Canonical x) :
    (Float32.Model.pack x).unpack = saturate x := by
  change unpack Format.binary32 (pack Format.binary32 x) = saturate x
  cases x with
  | notANumber => exact unpack_packComponents _ _ _
  | infinity s => exact unpack_packComponents s _ _
  | zero s => exact unpack_packComponents s _ _
  | finite s m e h =>
      obtain ⟨hm, he, hn⟩ := hx
      have hlog : m.log2 < 24 := (Nat.log2_lt h.ne').mpr hm
      rw [pack_finite]
      by_cases hl : e ≤ 104
      · rw [if_neg (by omega), saturate_of_le hl]
        by_cases hf : 2 ^ 23 ≤ m
        · have := (Nat.le_log2 h.ne').mpr hf
          rw [if_pos (by omega), unpack_packComponents, BitVec.toNat_ofNat, BitVec.toNat_ofNat,
            ofFields, if_neg (by omega), if_neg (by omega)]
          exact finite_congr (by omega) (by omega)
        · obtain rfl : e = -149 := by omega
          have := (Nat.log2_lt h.ne').mpr (Nat.lt_of_not_ge hf)
          rw [if_neg (by omega), unpack_packComponents, BitVec.toNat_ofNat, BitVec.toNat_ofNat,
            ofFields, if_neg (by decide), if_pos (by decide), dif_neg (by omega)]
          exact finite_congr (by omega) rfl
      · rw [if_pos (by omega), saturate_of_not_le hl]
        exact unpack_packComponents s _ _

theorem isNaN_ofFields (s : Sign) {exponent : ℕ} (mantissa : ℕ) (h : exponent ≠ 255) :
    (ofFields s exponent mantissa).isNaN = false := by
  rcases ofFields_cases s exponent mantissa with
    ⟨h', -, e⟩ | ⟨h', e⟩ | ⟨-, -, e⟩ | ⟨-, _, e⟩ | ⟨-, -, _, e⟩
  · exact absurd h' h
  · exact absurd h' h
  · rw [e]
    rfl
  · rw [e]
    rfl
  · rw [e]
    rfl

theorem isNaN_unpack_pack (x : UnpackedFloat) : (Float32.Model.pack x).unpack.isNaN = x.isNaN := by
  change (unpack Format.binary32 (pack Format.binary32 x)).isNaN = x.isNaN
  cases x with
  | notANumber => exact congrArg _ (unpack_packComponents _ _ _)
  | infinity s => exact congrArg _ (unpack_packComponents s _ _)
  | zero s => exact congrArg _ (unpack_packComponents s _ _)
  | finite s m e h =>
      rw [pack_finite]
      by_cases hl : 256 ≤ (e + 127 + 23).toNat + 1
      · rw [if_pos hl, unpack_packComponents]
        rfl
      · rw [if_neg hl]
        by_cases hf : m.log2 + 1 = 24
        · rw [if_pos hf, unpack_packComponents, BitVec.toNat_ofNat]
          exact isNaN_ofFields s _ (by omega)
        · rw [if_neg hf, unpack_packComponents]
          exact isNaN_ofFields s _ (by decide)

/-! ### Indices -/

/-- The grid index of an unpacked single; that of NaN is of no use. -/
def indexOf : UnpackedFloat → ℤ
  | .notANumber => 0
  | .infinity s => s.apply infinityIndex
  | .zero _ => 0
  | .finite s m e _ => s.apply ((e + 149).toNat * 2 ^ 23 + m : ℕ)

theorem indexOf_finite (s : Sign) {m : ℕ} {e : ℤ} (h : 0 < m) :
    indexOf (.finite s m e h) = s.apply ((e + 149).toNat * 2 ^ 23 + m : ℕ) := rfl

theorem indexOf_zero (s : Sign) : indexOf (.zero s) = 0 := rfl

theorem indexOf_infinity (s : Sign) : indexOf (.infinity s) = s.apply infinityIndex := rfl

@[simp] theorem natAbs_apply (s : Sign) (n : ℤ) : (s.apply n).natAbs = n.natAbs := by
  cases s with
  | negative => exact Int.natAbs_neg n
  | positive => rfl

theorem indexOf_ofFields (s : Sign) {exponent mantissa : ℕ}
    (h : ofFields s exponent mantissa ≠ .notANumber) :
    indexOf (ofFields s exponent mantissa) = s.apply (exponent * 2 ^ 23 + mantissa : ℕ) := by
  rcases ofFields_cases s exponent mantissa with
    ⟨rfl, rfl, e⟩ | ⟨-, e⟩ | ⟨rfl, rfl, e⟩ | ⟨rfl, _, e⟩ | ⟨-, hz, _, e⟩
  · rw [e]
    rfl
  · exact absurd e h
  · rw [e]
    cases s <;> rfl
  · rw [e]
    rfl
  · have : ((exponent - 150 : ℤ) + 149).toNat * 2 ^ 23 + (2 ^ 23 + mantissa) =
        exponent * 2 ^ 23 + mantissa := by omega
    rw [e, indexOf_finite, this]

theorem toNat_unpackSign (b : BitVec Format.binary32.numBits) :
    (unpackSign b).toNat = b.toNat / 2 ^ 31 % 2 := by
  change (b.extractLsb' 31 1).toNat = _
  rw [BitVec.extractLsb'_toNat, Nat.shiftRight_eq_div_pow]

theorem toNat_unpackExponent (b : BitVec Format.binary32.numBits) :
    (unpackExponent b).toNat = b.toNat / 2 ^ 23 % 2 ^ 8 := by
  change (b.extractLsb' 23 8).toNat = _
  rw [BitVec.extractLsb'_toNat, Nat.shiftRight_eq_div_pow]

theorem toNat_unpackMantissa (b : BitVec Format.binary32.numBits) :
    (unpackMantissa b).toNat = b.toNat % 2 ^ 23 := by
  change (b.extractLsb' 0 23).toNat = _
  rw [BitVec.extractLsb'_toNat, Nat.shiftRight_zero]

theorem indexOf_unpack {b : BitVec Format.binary32.numBits}
    (h : unpack Format.binary32 b ≠ .notANumber) :
    indexOf (unpack Format.binary32 b) =
      if b.toNat < 2 ^ 31 then (b.toNat : ℤ) else 2 ^ 31 - b.toNat := by
  have hb : b.toNat < 2 ^ 32 := b.isLt
  have hs : unpackSign b = 0#1 ↔ b.toNat < 2 ^ 31 := by
    rw [← BitVec.toNat_inj, toNat_unpackSign]
    change _ = 0 ↔ _
    omega
  rw [unpack_eq_ofFields] at h ⊢
  rw [indexOf_ofFields _ h, toNat_unpackExponent, toNat_unpackMantissa, Sign.ofBitVec]
  by_cases hp : b.toNat < 2 ^ 31
  · rw [if_pos (hs.mpr hp), if_pos hp, Sign.apply]
    omega
  · rw [if_neg (mt hs.mp hp), if_neg hp, Sign.apply]
    omega

theorem indexOf_saturate (s : Sign) {m : ℕ} {e : ℤ} (h : 0 < m)
    (hx : Canonical (.finite s m e h)) : indexOf (saturate (.finite s m e h)) =
      s.apply (min infinityIndex ((e + 149).toNat * 2 ^ 23 + m) : ℕ) := by
  obtain ⟨hm, he, hn⟩ := hx
  rw [infinityIndex]
  by_cases hl : e ≤ 104
  · rw [saturate_of_le hl, min_eq_right (by omega)]
    rfl
  · rw [saturate_of_not_le hl, min_eq_left (by omega)]
    rfl

theorem IsSingle.index_lt {s : Sign} {m : ℕ} {e : ℤ} {h : 0 < m}
    (hx : IsSingle (.finite s m e h)) : (e + 149).toNat * 2 ^ 23 + m < infinityIndex := by
  have he : e ≤ 104 := by
    by_contra he
    have hs := hx.saturate_eq
    rw [saturate_of_not_le he] at hs
    cases hs
  have := hx.canonical.1
  unfold infinityIndex
  omega

theorem IsSingle.natAbs_indexOf_lt {s : Sign} {m : ℕ} {e : ℤ} {h : 0 < m}
    (hx : IsSingle (.finite s m e h)) : (indexOf (.finite s m e h)).natAbs < infinityIndex := by
  rw [indexOf_finite, natAbs_apply, Int.natAbs_natCast]
  exact hx.index_lt

theorem IsSingle.indexOf_lt {s : Sign} {m : ℕ} {e : ℤ} {h : 0 < m}
    (hx : IsSingle (.finite s m e h)) :
    -(infinityIndex : ℤ) < indexOf (.finite s m e h) ∧ indexOf (.finite s m e h) < infinityIndex := by
  have := hx.natAbs_indexOf_lt
  omega

theorem indexOf_negative {m : ℕ} {e : ℤ} (h : 0 < m) : indexOf (.finite .negative m e h) < 0 := by
  rw [indexOf_finite, Sign.apply]
  omega

theorem indexOf_positive {m : ℕ} {e : ℤ} (h : 0 < m) : 0 < indexOf (.finite .positive m e h) := by
  rw [indexOf_finite, Sign.apply]
  omega

theorem IsSingle.natAbs_indexOf_le {x : UnpackedFloat} (hx : IsSingle x) :
    (indexOf x).natAbs ≤ infinityIndex := by
  cases x with
  | notANumber => exact Nat.zero_le _
  | infinity s => rw [indexOf_infinity, natAbs_apply, Int.natAbs_natCast]
  | zero s => exact Nat.zero_le _
  | finite s m e h => exact Nat.le_of_lt hx.natAbs_indexOf_lt

theorem compare_mantissas {m₁ m₂ : ℕ} {e₁ e₂ : ℤ} {s₁ s₂ : Sign} {h₁ : 0 < m₁} {h₂ : 0 < m₂}
    (c₁ : Canonical (.finite s₁ m₁ e₁ h₁)) (c₂ : Canonical (.finite s₂ m₂ e₂ h₂)) :
    (compare e₁ e₂).then (compare m₁ m₂) =
      compare ((e₁ + 149).toNat * 2 ^ 23 + m₁) ((e₂ + 149).toNat * 2 ^ 23 + m₂) := by
  obtain ⟨hm₁, he₁, hn₁⟩ := c₁
  obtain ⟨hm₂, he₂, hn₂⟩ := c₂
  rcases lt_trichotomy e₁ e₂ with h | rfl | h
  · have : (e₁ + 149).toNat * 2 ^ 23 + m₁ < (e₂ + 149).toNat * 2 ^ 23 + m₂ := by omega
    rw [compare_lt_iff_lt.mpr h, compare_lt_iff_lt.mpr this]
    rfl
  · rw [compare_eq_iff_eq.mpr rfl, Ordering.eq_then]
    rcases lt_trichotomy m₁ m₂ with h | rfl | h
    · rw [compare_lt_iff_lt.mpr h, compare_lt_iff_lt.mpr (by omega)]
    · rw [compare_eq_iff_eq.mpr rfl, compare_eq_iff_eq.mpr rfl]
    · rw [compare_gt_iff_gt.mpr h, compare_gt_iff_gt.mpr (by omega)]
  · have : (e₂ + 149).toNat * 2 ^ 23 + m₂ < (e₁ + 149).toNat * 2 ^ 23 + m₁ := by omega
    rw [compare_gt_iff_gt.mpr h, compare_gt_iff_gt.mpr this]
    rfl

theorem compare_cast (k l : ℕ) : compare (k : ℤ) l = compare k l := by
  rcases lt_trichotomy k l with h | rfl | h
  · rw [compare_lt_iff_lt.mpr h]
    exact compare_lt_iff_lt.mpr (by omega)
  · rw [compare_eq_iff_eq.mpr rfl, compare_eq_iff_eq.mpr rfl]
  · rw [compare_gt_iff_gt.mpr h]
    exact compare_gt_iff_gt.mpr (by omega)

theorem compare_neg_cast (k l : ℕ) : compare (-k : ℤ) (-l) = (compare k l).swap := by
  rcases lt_trichotomy k l with h | rfl | h
  · rw [compare_lt_iff_lt.mpr h]
    exact compare_gt_iff_gt.mpr (by omega)
  · rw [compare_eq_iff_eq.mpr rfl, compare_eq_iff_eq.mpr rfl]
    rfl
  · rw [compare_gt_iff_gt.mpr h]
    exact compare_lt_iff_lt.mpr (by omega)

theorem compare_eq {a b : UnpackedFloat} (sa : IsSingle a) (sb : IsSingle b)
    (ha : a ≠ .notANumber) (hb : b ≠ .notANumber) :
    a.compare b = some (compare (indexOf a) (indexOf b)) := by
  have lt : ∀ {k l : ℤ}, k < l → some Ordering.lt = some (compare k l) :=
    fun h => congrArg some (compare_lt_iff_lt.mpr h).symm
  have gt : ∀ {k l : ℤ}, l < k → some Ordering.gt = some (compare k l) :=
    fun h => congrArg some (compare_gt_iff_gt.mpr h).symm
  cases a with
  | notANumber => exact absurd rfl ha
  | infinity s =>
      cases b with
      | notANumber => exact absurd rfl hb
      | infinity t => cases s <;> cases t <;> rfl
      | zero t => cases s <;> rfl
      | finite t n f h =>
          obtain ⟨hl, hu⟩ := sb.indexOf_lt
          cases s with
          | negative => exact lt hl
          | positive => exact gt hu
  | zero s =>
      cases b with
      | notANumber => exact absurd rfl hb
      | infinity t => cases t <;> rfl
      | zero t => rfl
      | finite t n f h =>
          cases t with
          | negative => exact gt (indexOf_negative h)
          | positive => exact lt (indexOf_positive h)
  | finite s m e h =>
      cases b with
      | notANumber => exact absurd rfl hb
      | infinity t =>
          obtain ⟨hl, hu⟩ := sa.indexOf_lt
          cases t with
          | negative => exact gt hl
          | positive => exact lt hu
      | zero t =>
          cases s with
          | negative => exact lt (indexOf_negative h)
          | positive => exact gt (indexOf_positive h)
      | finite t n f h' =>
          cases s with
          | negative =>
              cases t with
              | negative =>
                  change some ((compare e f).then (compare m n)).swap = _
                  rw [compare_mantissas sa.canonical sb.canonical, ← compare_neg_cast]
                  rfl
              | positive => exact lt ((indexOf_negative h).trans (indexOf_positive h'))
          | positive =>
              cases t with
              | negative => exact gt ((indexOf_negative h').trans (indexOf_positive h))
              | positive =>
                  change some ((compare e f).then (compare m n)) = _
                  rw [compare_mantissas sa.canonical sb.canonical, ← compare_cast]
                  rfl

/-! ### Singles -/

/-- The grid index of a single; that of NaN is `0`. -/
def index (x : Float32) : ℤ := indexOf x.toModel.unpack

/-- The value of a single; infinities count as the first values that are too large. -/
def value (x : Float32) : ℚ := grid (index x)

theorem index_ofModel_pack {x : UnpackedFloat} (hx : Canonical x) :
    index (.ofModel (.pack x)) = indexOf (saturate x) := by
  rw [index, unpack_pack hx]

theorem isNaN_ofModel_pack (x : UnpackedFloat) : (Float32.ofModel (.pack x)).isNaN = x.isNaN :=
  isNaN_unpack_pack x

theorem isNaN_iff {x : Float32} : x.isNaN = true ↔ x.toModel.unpack = .notANumber := by
  change x.toModel.unpack.isNaN = true ↔ _
  cases x.toModel.unpack with
  | notANumber => exact iff_of_true rfl rfl
  | _ => exact iff_of_false Bool.false_ne_true nofun

theorem isFinite_iff {x : Float32} :
    x.isFinite = true ↔ x.isNaN = false ∧ (index x).natAbs < infinityIndex := by
  have hs := isSingle_unpack x.toModel
  change x.toModel.unpack.isFinite = true ↔ x.toModel.unpack.isNaN = false ∧ _
  unfold index
  generalize x.toModel.unpack = u at hs
  cases u with
  | notANumber => exact iff_of_false Bool.false_ne_true fun h => Bool.noConfusion h.1
  | infinity s =>
      refine iff_of_false Bool.false_ne_true fun h => ?_
      rw [indexOf_infinity, natAbs_apply, Int.natAbs_natCast] at h
      exact lt_irrefl _ h.2
  | zero s => exact iff_of_true rfl ⟨rfl, Nat.zero_lt_succ _⟩
  | finite s m e h => exact iff_of_true rfl ⟨rfl, hs.natAbs_indexOf_lt⟩

theorem natAbs_index_le (x : Float32) : (index x).natAbs ≤ infinityIndex :=
  (isSingle_unpack x.toModel).natAbs_indexOf_le

/-- The index by the bits. -/
theorem index_eq_toBits {x : Float32} (h : x.isNaN = false) :
    index x = if x.toBits.toNat < 2 ^ 31 then (x.toBits.toNat : ℤ) else 2 ^ 31 - x.toBits.toNat := by
  refine indexOf_unpack fun hx => ?_
  rw [isNaN_iff.mpr hx] at h
  cases h

theorem compare_unpack {a b : Float32} (ha : a.isNaN = false) (hb : b.isNaN = false) :
    a.toModel.unpack.compare b.toModel.unpack = some (compare (index a) (index b)) := by
  refine compare_eq (isSingle_unpack _) (isSingle_unpack _) (fun h => ?_) (fun h => ?_)
  · rw [isNaN_iff.mpr h] at ha
    cases ha
  · rw [isNaN_iff.mpr h] at hb
    cases hb

theorem compare_nan_left {a b : Float32} (ha : a.isNaN = true) :
    a.toModel.unpack.compare b.toModel.unpack = none := by
  rw [isNaN_iff.mp ha]
  rfl

theorem compare_nan_right {a b : Float32} (hb : b.isNaN = true) :
    a.toModel.unpack.compare b.toModel.unpack = none := by
  rw [isNaN_iff.mp hb]
  cases a.toModel.unpack <;> rfl

theorem lt_iff {a b : Float32} :
    a < b ↔ a.isNaN = false ∧ b.isNaN = false ∧ index a < index b := by
  have e : a < b ↔ a.toModel.unpack.compare b.toModel.unpack = some .lt := by
    change decide (a.toModel < b.toModel) = true ↔ _
    rw [decide_eq_true_iff]
    change (a.toModel.unpack.compare b.toModel.unpack == some Ordering.lt) = true ↔ _
    exact beq_iff_eq
  rw [e]
  cases ha : a.isNaN with
  | true => simp [compare_nan_left ha]
  | false =>
      cases hb : b.isNaN with
      | true => simp [compare_nan_right hb]
      | false => simp [compare_unpack ha hb, compare_lt_iff_lt]

theorem le_iff {a b : Float32} :
    a ≤ b ↔ a.isNaN = false ∧ b.isNaN = false ∧ index a ≤ index b := by
  have e : a ≤ b ↔ (a.toModel.unpack.compare b.toModel.unpack).any (·.isLE) = true := by
    change decide (a.toModel ≤ b.toModel) = true ↔ _
    rw [decide_eq_true_iff]
    rfl
  rw [e]
  cases ha : a.isNaN with
  | true => simp [compare_nan_left ha]
  | false =>
      cases hb : b.isNaN with
      | true => simp [compare_nan_right hb]
      | false => simp [compare_unpack ha hb, ← Ordering.ne_gt_iff_isLE, compare_le_iff_le]

theorem beq_iff {a b : Float32} :
    (a == b) = true ↔ a.isNaN = false ∧ b.isNaN = false ∧ index a = index b := by
  have e : (a == b) = true ↔ a.toModel.unpack.compare b.toModel.unpack = some .eq := by
    change (a.toModel.unpack.compare b.toModel.unpack == some Ordering.eq) = true ↔ _
    exact beq_iff_eq
  rw [e]
  cases ha : a.isNaN with
  | true => simp [compare_nan_left ha]
  | false =>
      cases hb : b.isNaN with
      | true => simp [compare_nan_right hb]
      | false => simp [compare_unpack ha hb]

end DriveOverlay.Single
