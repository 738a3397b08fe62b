import DriveOverlay.Proofs.Single.Overflow

/-! # The order of results

Rounding never turns an order around, and neither does an infinity that an operation starts from or
ends in.  Numbers other than zero are known by their index; the two zeros are told apart by their
sign only, which few operations pass on.

* `abs_rounded_mono`: magnitudes keep their order, whatever the signs are;
* `index_add_mono`, `index_add_le_add`: sums keep the order of their summands;
* `index_mul_mono`, `index_mul_le_mul`, `index_div_antitone`: a factor above zero keeps the order of
  the other one, and a divisor turns it around;
* `round_mono`: rounding to whole numbers keeps the order;
* `eq_of_index_eq`, `eq_zero_of_index`: which number has an index;
* `sub_self_eq_zero`, `zero_add_sub`: what is left when a number is taken from itself. -/

namespace DriveOverlay.Single

open Float.Model (Format UnpackedFloat)
open Float.Model.UnpackedFloat

/-! ### Magnitudes -/

theorem abs_value_of_index {x : Float32} {q : ℚ} (hx : index x = nearest q) :
    |value x| = grid (nearest |q|) := by
  rcases abs_cases q with ⟨habs, h0⟩ | ⟨habs, h0⟩
  · rw [habs, ← hx]
    exact abs_of_nonneg (value_nonneg (rounded_nonneg hx h0))
  · have hneg : 0 ≤ index (-x) := by
      rw [index_neg, hx, ← nearest_neg, ← nearest_zero]
      exact nearest_mono (neg_nonneg.mpr h0.le)
    rw [habs, nearest_neg, ← hx, ← index_neg, ← abs_neg, ← value_neg]
    exact abs_of_nonneg (value_nonneg hneg)

/-- Rounding keeps the order of magnitudes. -/
theorem abs_rounded_mono {x y : Float32} {q r : ℚ} (hx : index x = nearest q)
    (hy : index y = nearest r) (h : |q| ≤ |r|) : |value x| ≤ |value y| := by
  rw [abs_value_of_index hx, abs_value_of_index hy]
  exact grid_strictMono.monotone (nearest_mono h)

/-! ### Operands in the other order -/

theorem add_swap_unpacked (x y : UnpackedFloat) :
    add Format.binary32 x y = add Format.binary32 y x := by
  cases x with
  | notANumber => cases y <;> rfl
  | infinity s =>
      cases y with
      | infinity t => cases s <;> cases t <;> rfl
      | _ => rfl
  | zero s =>
      cases y with
      | zero t => cases s <;> cases t <;> rfl
      | _ => rfl
  | finite s m e h =>
      cases y with
      | finite t n f h' =>
          dsimp only [add]
          rw [min_comm e f, add_comm (Sign.apply s _)]
      | _ => rfl

theorem add_swap (a b : Float32) : a + b = b + a :=
  congrArg (fun x => Float32.ofModel (.pack x)) (add_swap_unpacked _ _)

theorem mul_swap_unpacked (x y : UnpackedFloat) :
    mul Format.binary32 x y = mul Format.binary32 y x := by
  have sign (s t : Sign) : s * t = t * s := by cases s <;> cases t <;> rfl
  cases x with
  | notANumber => cases y <;> rfl
  | infinity s =>
      cases y with
      | notANumber | zero t => rfl
      | infinity t | finite t n f h' => exact congrArg UnpackedFloat.infinity (sign s t)
  | zero s =>
      cases y with
      | notANumber | infinity t => rfl
      | zero t | finite t n f h' => exact congrArg UnpackedFloat.zero (sign s t)
  | finite s m e h =>
      cases y with
      | notANumber => rfl
      | infinity t => exact congrArg UnpackedFloat.infinity (sign s t)
      | zero t => exact congrArg UnpackedFloat.zero (sign s t)
      | finite t n f h' =>
          dsimp only [mul]
          rw [sign s t, Nat.mul_comm m n, add_comm e f]

theorem mul_swap (a b : Float32) : a * b = b * a :=
  congrArg (fun x => Float32.ofModel (.pack x)) (mul_swap_unpacked _ _)

/-! ### Sums -/

theorem sub_opposite (a b : Float32) : a - -b = a + b := by
  have hb := isSingle_neg (isSingle_unpack b.toModel)
  have hu : (-b).toModel.unpack = b.toModel.unpack.neg :=
    (unpack_pack hb.canonical).trans hb.saturate_eq
  have hn : b.toModel.unpack.neg.neg = b.toModel.unpack := by
    cases b.toModel.unpack with
    | notANumber => rfl
    | infinity s => cases s <;> rfl
    | zero s => cases s <;> rfl
    | finite s m e h => cases s <;> rfl
  have hs : sub Format.binary32 a.toModel.unpack (-b).toModel.unpack =
      add Format.binary32 a.toModel.unpack b.toModel.unpack := by
    rw [hu, sub_eq_add_neg_unpacked, hn]
  exact congrArg (fun x => Float32.ofModel (.pack x)) hs

theorem index_add_of_infinite {a b : Float32} (ha : a.isNaN = false) (ha' : a.isFinite = false)
    (hb : b.isFinite = true) : index (a + b) = index a := by
  rw [← sub_opposite]
  exact index_sub_of_infinite ha ha' ((isFinite_neg b).trans hb)

/-- Adding a finite number keeps the order. -/
theorem index_add_mono {a b c : Float32} (ha : a.isNaN = false) (hb : b.isNaN = false)
    (hc : c.isFinite = true) (h : index a ≤ index b) : index (a + c) ≤ index (b + c) := by
  rw [← sub_opposite, ← sub_opposite]
  exact index_sub_mono ha hb ((isFinite_neg c).trans hc) h

/-- A sum of a finite number and of one that may be infinite keeps the order of both. -/
theorem index_add_le_add {a a' b b' : Float32} (ha : a.isFinite = true) (ha' : a'.isFinite = true)
    (hb : b.isNaN = false) (hb' : b'.isNaN = false) (h : index a ≤ index a')
    (h' : index b ≤ index b') : index (a + b) ≤ index (a' + b') := by
  rw [add_swap a, add_swap a']
  refine (index_add_mono hb hb' ha h').trans ?_
  cases hf : b'.isFinite with
  | true =>
      rw [add_swap b', add_swap b']
      exact index_add_mono (isNaN_of_isFinite ha) (isNaN_of_isFinite ha') hf h
  | false => rw [index_add_of_infinite hb' hf ha, index_add_of_infinite hb' hf ha']

/-! ### Products -/

theorem mul_of_infinite {x y : UnpackedFloat} (hx : x.isNaN = false) (hx' : x.isFinite = false)
    (hy : y.isFinite = true) (h0 : 0 < indexOf y) : mul Format.binary32 x y = x := by
  cases x with
  | infinity s =>
      cases y with
      | finite t n f h =>
          cases t with
          | positive => cases s <;> rfl
          | negative =>
              rw [indexOf_finite, Sign.apply] at h0
              omega
      | notANumber => cases hy
      | infinity t => cases hy
      | zero t => exact absurd h0 (lt_irrefl 0)
  | notANumber => cases hx
  | zero s => cases hx'
  | finite s m e h => cases hx'

theorem index_mul_of_infinite {a b : Float32} (ha : a.isNaN = false) (ha' : a.isFinite = false)
    (hb : b.isFinite = true) (h0 : 0 < index b) : index (a * b) = index a := by
  have hs := isSingle_unpack a.toModel
  have e : a * b = .ofModel (.pack a.toModel.unpack) :=
    congrArg (fun x => Float32.ofModel (.pack x)) (mul_of_infinite ha ha' hb h0)
  rw [e, index_ofModel_pack hs.canonical, hs.saturate_eq]
  rfl

/-- A finite factor above zero keeps the order. -/
theorem index_mul_mono {a b c : Float32} (ha : a.isNaN = false) (hb : b.isNaN = false)
    (hc : c.isFinite = true) (h0 : 0 < index c) (h : index a ≤ index b) :
    index (a * c) ≤ index (b * c) := by
  refine index_mono_of_finite (g := fun x => x * c) ?_ ?_ ha hb h
  · intro x hx hx'
    exact index_mul_of_infinite hx hx' hc h0
  · intro x y hx hy hxy
    rw [index_mul hx hc, index_mul hy hc]
    exact nearest_mono (mul_le_mul_of_nonneg_right (grid_strictMono.monotone hxy)
      (value_nonneg h0.le))

/-- The larger of two finite factors above zero gives the larger product with a factor that may be
infinite. -/
theorem index_mul_le_mul {a a' b : Float32} (ha : a.isFinite = true) (ha' : a'.isFinite = true)
    (h0 : 0 < index a) (h : index a ≤ index a') (hb : b.isNaN = false) (hb0 : 0 ≤ index b) :
    index (a * b) ≤ index (a' * b) := by
  cases hf : b.isFinite with
  | true =>
      rw [index_mul ha hf, index_mul ha' hf]
      exact nearest_mono (mul_le_mul_of_nonneg_right (grid_strictMono.monotone h)
        (value_nonneg hb0))
  | false =>
      rw [mul_swap a, mul_swap a', index_mul_of_infinite hb hf ha h0,
        index_mul_of_infinite hb hf ha' (h0.trans_le h)]

/-! ### Quotients and bounds -/

/-- The larger the divisor, the smaller the quotient. -/
theorem index_div_antitone {a b c : Float32} (ha : a.isNaN = false) (h0 : 0 ≤ index a)
    (hb : b.isFinite = true) (hc : c.isFinite = true) (hpos : 0 < index b)
    (h : index b ≤ index c) : index (a / c) ≤ index (a / b) := by
  have hpos' := hpos.trans_le h
  cases hf : a.isFinite with
  | true =>
      have hvb : 0 < value b := grid_zero ▸ grid_strictMono hpos
      rw [index_div hf hc hpos'.ne', index_div hf hb hpos.ne']
      exact nearest_mono
        (div_le_div_of_nonneg_left (value_nonneg h0) hvb (grid_strictMono.monotone h))
  | false => rw [index_div_of_infinite ha hf hc hpos', index_div_of_infinite ha hf hb hpos]

theorem clamp_mono {x y lo hi : Float32} (hx : x.isNaN = false) (hy : y.isNaN = false)
    (hlo : lo.isNaN = false) (hhi : hi.isNaN = false) (hb : value lo ≤ value hi)
    (h : index x ≤ index y) : value (clamp x lo hi) ≤ value (clamp y lo hi) := by
  rw [(clamp_spec hx hlo hhi hb).2, (clamp_spec hy hlo hhi hb).2]
  exact max_le_max le_rfl (min_le_min (grid_strictMono.monotone h) le_rfl)

/-! ### Whole numbers -/

theorem sub_self_of_infinite {x : UnpackedFloat} (hx : x.isFinite = false) :
    sub Format.binary32 x x = .notANumber := by
  cases x with
  | infinity s => cases s <;> rfl
  | notANumber => rfl
  | zero s => cases hx
  | finite s m e h => cases hx

theorem round_of_infinite {x : Float32} (hx : x.isNaN = false) (hx' : x.isFinite = false) :
    round x = x := by
  have hv : (2 : ℚ) ^ 23 ≤ |value x| := by
    rw [value, abs_grid, natAbs_index_of_infinite hx hx', units_infinityIndex]
    norm_num
  have hn : (x - x).abs.isNaN = true := by
    rw [isNaN_abs]
    refine (isNaN_ofModel_pack _).trans ?_
    rw [sub_self_of_infinite hx']
    rfl
  have hle : ¬0.5 ≤ (x - x).abs := by
    intro hle
    rw [(le_iff.mp hle).2.1] at hn
    cases hn
  unfold round
  dsimp only
  rw [trunc_of_large hx hv, if_neg hle]

theorem isNegative_eq_false {x : Float32} (hx : x.isNaN = false) (h : 0 < value x) :
    isNegative x = false := by
  have hsign := value_of_isNegative hx
  cases hs : isNegative x with
  | false => rfl
  | true =>
      rw [hs, if_pos rfl] at hsign
      exact absurd h hsign.not_gt

theorem isNegative_eq_true {x : Float32} (hx : x.isNaN = false) (h : value x < 0) :
    isNegative x = true := by
  have hsign := value_of_isNegative hx
  cases hs : isNegative x with
  | true => rfl
  | false =>
      rw [hs, if_neg Bool.false_ne_true] at hsign
      exact absurd h hsign.not_gt

theorem value_round_le_of_gap {a b : Float32} (ha : a.isFinite = true) (hb : b.isFinite = true)
    (h : value a ≤ value b) {n : ℤ} (hn : n < value a) (hm : value b < (n + 1 : ℤ)) :
    value (round a) ≤ value (round b) := by
  have hna := isNaN_of_isFinite ha
  have hnb := isNaN_of_isFinite hb
  obtain ⟨-, z, hz, hpos, hneg⟩ := trunc_spec hna
  obtain ⟨-, w, hw, hpos', hneg'⟩ := trunc_spec hnb
  have hup : value a < (n + 1 : ℤ) := h.trans_lt hm
  have hdown : n < value b := hn.trans_le h
  have hrest := index_sub ha (isFinite_trunc ha)
  have hrest' := index_sub hb (isFinite_trunc hb)
  rw [(value_round ha hz).2, (value_round hb hw).2, Int.cast_le]
  rw [hz] at hrest
  rw [hw] at hrest'
  -- both have the same whole part, so that the rests are in the order of the numbers
  rcases le_or_gt 0 n with h0 | h0
  · have hn0 : (0 : ℚ) ≤ n := by exact_mod_cast h0
    obtain rfl : z = n := (hpos (hn0.trans hn.le)).trans
      (Int.floor_eq_iff.mpr ⟨hn.le, by exact_mod_cast hup⟩)
    obtain rfl : w = z := (hpos' (hn0.trans hdown.le)).trans
      (Int.floor_eq_iff.mpr ⟨hdown.le, by exact_mod_cast hm⟩)
    have hle : 0 ≤ value (a - trunc a) := value_nonneg (rounded_nonneg hrest (by linarith))
    have hle' : value (a - trunc a) ≤ value (b - trunc b) :=
      rounded_mono hrest hrest' (by linarith)
    unfold roundStep
    rw [isNegative_eq_false hna (hn0.trans_lt hn), isNegative_eq_false hnb (hn0.trans_lt hdown),
      abs_of_nonneg hle, abs_of_nonneg (hle.trans hle')]
    simp only [Bool.false_eq_true, if_false]
    split_ifs
    · exact le_rfl
    · linarith
    · omega
    · exact le_rfl
  · have hn0 : ((n + 1 : ℤ) : ℚ) ≤ 0 := by exact_mod_cast h0
    obtain rfl : z = n + 1 := (hneg (hup.le.trans hn0)).trans
      (Int.ceil_eq_iff.mpr ⟨by push_cast; linarith, hup.le⟩)
    obtain rfl : w = n + 1 := (hneg' (hm.le.trans hn0)).trans
      (Int.ceil_eq_iff.mpr ⟨by push_cast; linarith, hm.le⟩)
    have hle : value (b - trunc b) ≤ 0 := by
      have hzero : value (b - trunc b) ≤ (0 : ℕ) :=
        rounded_le hrest' (onGrid_natCast (by norm_num)) (by push_cast at hm ⊢; linarith)
      rwa [Nat.cast_zero] at hzero
    have hle' : value (a - trunc a) ≤ value (b - trunc b) :=
      rounded_mono hrest hrest' (by linarith)
    unfold roundStep
    rw [isNegative_eq_true hna (hup.trans_le hn0), isNegative_eq_true hnb (hm.trans_le hn0),
      abs_of_nonpos hle, abs_of_nonpos (hle'.trans hle)]
    simp only [if_true]
    split_ifs
    · exact le_rfl
    · omega
    · linarith
    · exact le_rfl

theorem isNaN_round {x : Float32} (h : x.isNaN = false) : (round x).isNaN = false := by
  cases hf : x.isFinite with
  | true =>
      obtain ⟨-, z, hz, -⟩ := trunc_spec h
      exact (value_round hf hz).1
  | false => rwa [round_of_infinite h hf]

/-- Rounding to whole numbers keeps the order. -/
theorem round_mono {a b : Float32} (ha : a.isNaN = false) (hb : b.isNaN = false)
    (h : index a ≤ index b) : index (round a) ≤ index (round b) := by
  refine index_mono_of_finite (g := round) ?_ ?_ ha hb h
  · intro x hx hx'
    rw [round_of_infinite hx hx']
  · intro x y hx hy hxy
    have hv : value x ≤ value y := grid_strictMono.monotone hxy
    refine grid_strictMono.le_iff_le.mp ?_
    by_cases hwhole : ∃ n : ℤ, value x ≤ n ∧ n ≤ value y
    · obtain ⟨n, hn, hm⟩ := hwhole
      obtain ⟨-, z, hz, -, hzn⟩ := round_between hx (Int.floor_le _) hn
      obtain ⟨-, w, hw, hnw, -⟩ := round_between hy hm (Int.le_ceil _)
      change value (round x) ≤ value (round y)
      rw [hz, hw]
      exact Int.cast_le.mpr (hzn.trans hnw)
    · have hn : ∀ n : ℤ, value x ≤ n → value y < n := by
        intro n hn
        by_contra hle
        exact hwhole ⟨n, hn, not_lt.mp hle⟩
      have hfloor : (⌊value x⌋ : ℚ) < value x := by
        by_contra hle
        exact absurd (hn _ (not_lt.mp hle)) ((Int.floor_le _).trans hv).not_gt
      refine value_round_le_of_gap hx hy hv hfloor (hn _ ?_)
      exact_mod_cast (Int.lt_floor_add_one (value x)).le

/-! ### Numbers by their index -/

theorem eq_of_toBits {x y : Float32} (h : x.toBits.toNat = y.toBits.toNat) : x = y := by
  obtain ⟨⟨bits, hb⟩⟩ := x
  obtain ⟨⟨bits', hb'⟩⟩ := y
  obtain rfl : bits = bits' := UInt32.toNat_inj.mp h
  rfl

/-- A number other than zero is known by its index. -/
theorem eq_of_index_eq {x y : Float32} (hx : x.isNaN = false) (hy : y.isNaN = false)
    (h : index x = index y) (h0 : index x ≠ 0) : x = y := by
  have hxb := x.toBits.toNat_lt
  have hyb := y.toBits.toNat_lt
  apply eq_of_toBits
  rw [index_eq_toBits hx] at h h0
  rw [index_eq_toBits hy] at h
  split_ifs at h h0 <;> omega

/-- There are two zeros. -/
theorem eq_zero_of_index {x : Float32} (hx : x.isNaN = false) (h : index x = 0) :
    x = 0 ∨ x = -0 := by
  have hb := x.toBits.toNat_lt
  have hpos : (0 : Float32).toBits.toNat = 0 := by decide
  have hneg : (-0 : Float32).toBits.toNat = 2 ^ 31 := by decide
  rw [index_eq_toBits hx] at h
  split_ifs at h with hlow
  · exact .inl (eq_of_toBits (by omega))
  · exact .inr (eq_of_toBits (by omega))

/-! ### Differences that are zero -/

/-- A finite number taken from itself leaves the zero without a minus sign. -/
theorem sub_self_eq_zero {x : Float32} (hx : x.isFinite = true) : x - x = 0 := by
  have hs : sub Format.binary32 x.toModel.unpack x.toModel.unpack = .zero .positive := by
    change x.toModel.unpack.isFinite = true at hx
    generalize x.toModel.unpack = u at hx
    cases u with
    | notANumber => cases hx
    | infinity s => cases hx
    | zero s => cases s <;> rfl
    | finite s m e h =>
        dsimp only [sub]
        rw [Int.sub_self]
        rfl
  exact congrArg (fun u => Float32.ofModel (.pack u)) hs

/-- What is left of a zero when a finite number is added and taken away again. -/
theorem zero_add_sub {z c : Float32} (hz : z.isFinite = true) (hi : index z = 0)
    (hc : c.isFinite = true) : z + c - c = 0 := by
  have hcn := isNaN_of_isFinite hc
  by_cases h0 : index c = 0
  · rcases eq_zero_of_index (isNaN_of_isFinite hz) hi with rfl | rfl <;>
      rcases eq_zero_of_index hcn h0 with rfl | rfl <;> decide
  · have hi' : index (z + c) = index c := by
      rw [index_add hz hc, value, hi, grid_zero, zero_add, value, nearest_grid (natAbs_index_le c)]
    have he : z + c = c :=
      eq_of_index_eq (isNaN_add hz hcn) hcn hi' (hi'.trans_ne h0)
    rw [he, sub_self_eq_zero hc]

end DriveOverlay.Single
