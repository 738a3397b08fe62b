import DriveOverlay.Proofs.Single.Order
import DriveOverlay.Proofs.Surface.Gradients

/-! # Shares in order

A share is a number held between 0 and 1.  What a color makes of shares keeps their order, though
every operation rounds: a larger share of full intensity is no weaker channel, and a larger share of
the way to another color is no further from it.  At the ends nothing is rounded.

* `value_share`, `share_mono`: holding a number between 0 and 1 keeps the order;
* `channel_mono`: channels by their share of full intensity;
* `mix_of_nonpos`, `mix_of_one_le`: mixing no share of a color, and nothing but it;
* `onward_mix`: the order on the way from one color to another. -/

namespace DriveOverlay

namespace Single

variable {x y : Float32}

/-- A finite number is held between 0 and 1. -/
theorem value_share (hx : x.isFinite = true) : value (share x) = max 0 (min (value x) 1) := by
  rw [share, if_pos hx, (clamp_spec (isNaN_of_isFinite hx) rfl rfl value_zero_le_one).2, value_zero,
    value_one]

/-- Shares keep the order of finite numbers. -/
theorem share_mono (hx : x.isFinite = true) (hy : y.isFinite = true) (h : value x ≤ value y) :
    value (share x) ≤ value (share y) := by
  rw [value_share hx, value_share hy]
  exact max_le_max le_rfl (min_le_min h le_rfl)

theorem isWhole_share_of_nonpos (hx : x.isFinite = true) (h : value x ≤ 0) :
    IsWhole 0 (share x) where
  isFinite := (share_spec x).1
  value_eq := by
    rw [value_share hx, min_eq_left (h.trans zero_le_one), max_eq_left h, Int.cast_zero]

theorem isWhole_share_of_one_le (hx : x.isFinite = true) (h : 1 ≤ value x) :
    IsWhole 1 (share x) where
  isFinite := (share_spec x).1
  value_eq := by rw [value_share hx, min_eq_right h, max_eq_right zero_le_one, Int.cast_one]

theorem within_share (x : Float32) : Within 0 (share x) := by
  obtain ⟨hf, h0, h1⟩ := share_spec x
  refine within_iff_abs_value_le.mpr ⟨hf, ?_⟩
  rwa [abs_of_nonneg h0, zpow_zero]

theorem share_clamp (hx : x.isFinite = true) : share (clamp x 0 1) = share x := by
  obtain ⟨hf, hlo, hhi⟩ := clamp_between (isNaN_of_isFinite hx) isFinite_zero
    isWhole_one.isFinite value_zero_le_one
  have hn := isNaN_of_isFinite hf
  have hbelow : ¬clamp x 0 1 < 0 := by
    rw [lt_iff_value hn rfl]
    exact hlo.not_gt
  have habove : ¬1 < clamp x 0 1 := by
    rw [lt_iff_value isWhole_one.isNaN hn]
    exact hhi.not_gt
  rw [share, if_pos hf, share, if_pos hx]
  exact clamp_of_between hbelow habove

theorem IsWhole.toUInt8_round {n : UInt8} (h : IsWhole n.toNat x) : (round x).toUInt8 = n := by
  have hlt := n.toNat_lt
  obtain ⟨hn, z, hz, hlo, hhi⟩ := round_between h.isFinite h.value_eq.ge h.value_eq.le
  apply UInt8.toNat_inj.mp
  rw [toNat_toUInt8 hn, hz, ← Int.floor_toNat, Int.floor_intCast]
  omega

theorem toUInt8_round_mono (hx : x.isNaN = false) (hy : y.isNaN = false) (h : index x ≤ index y) :
    (round x).toUInt8 ≤ (round y).toUInt8 :=
  toUInt8_mono (isNaN_round hx) (isNaN_round hy)
    (grid_strictMono.monotone (round_mono hx hy h))

end Single

namespace Color

open Single

variable {x y : Float32}

/-! ### Shares of full intensity -/

/-- The larger the share, the stronger the channel. -/
theorem channel_mono (hx : x.isFinite = true) (hy : y.isFinite = true) (h : value x ≤ value y) :
    channel x ≤ channel y := by
  have hfull : (255 : Float32).isFinite = true := by decide
  have hsx := (share_spec x).1
  have hsy := (share_spec y).1
  have hshare : index (share x) ≤ index (share y) :=
    grid_strictMono.le_iff_le.mp (share_mono hx hy h)
  exact toUInt8_round_mono (isNaN_mul hsx hfull) (isNaN_mul hsy hfull)
    (index_mul_mono (isNaN_of_isFinite hsx) (isNaN_of_isFinite hsy) hfull (by decide) hshare)

theorem channel_zero : channel 0 = 0 := by decide +kernel

theorem channel_one : channel 1 = 255 := by decide +kernel

/-! ### The ends of the way -/

theorem mixChannel_eq {t : Float32} {z : ℤ} (ht : IsWhole z t) {a b c : UInt8}
    (hc : (c.toNat : ℤ) = a.toNat + (b.toNat - a.toNat) * z) : mixChannel t a b = c := by
  have ha := a.toNat_lt
  have hb := b.toNat_lt
  have hlt := c.toNat_lt
  have hsum := (isWhole_toFloat32 a).add ((isWhole_difference a b).mul ht (by omega)) (by omega)
  rw [← hc] at hsum
  exact hsum.toUInt8_round

/-- No share of the way leads nowhere. -/
theorem mix_of_nonpos (hx : x.isFinite = true) (h : value x ≤ 0) (a b : Color) : a.mix b x = a := by
  have ht := isWhole_share_of_nonpos hx h
  have hstart (m n : UInt8) : mixChannel (share x) m n = m := mixChannel_eq ht (by ring)
  simp only [mix, hstart]

/-- The whole way leads to the end. -/
theorem mix_of_one_le (hx : x.isFinite = true) (h : 1 ≤ value x) (a b : Color) : a.mix b x = b := by
  have ht := isWhole_share_of_one_le hx h
  have hstop (m n : UInt8) : mixChannel (share x) m n = n := mixChannel_eq ht (by ring)
  simp only [mix, hstop]

/-! ### Along the way -/

/-- On the way from channel `a` to `b`, in either direction, `d` is not before `c`. -/
def ChannelOnward (a b c d : UInt8) : Prop :=
  (a ≤ b → c ≤ d) ∧ (b ≤ a → d ≤ c)

/-- On the way from one color to another no channel of `d` is before that of `c`. -/
structure Onward (start stop c d : Color) : Prop where
  red : ChannelOnward start.red stop.red c.red d.red
  green : ChannelOnward start.green stop.green c.green d.green
  blue : ChannelOnward start.blue stop.blue c.blue d.blue
  alpha : ChannelOnward start.alpha stop.alpha c.alpha d.alpha

theorem channelOnward_self (a b c : UInt8) : ChannelOnward a b c c :=
  ⟨fun _ => UInt8.le_refl c, fun _ => UInt8.le_refl c⟩

theorem onward_self (start stop c : Color) : Onward start stop c c :=
  ⟨channelOnward_self _ _ _, channelOnward_self _ _ _, channelOnward_self _ _ _,
    channelOnward_self _ _ _⟩

theorem mixChannel_le_mixChannel (a b : UInt8)
    (h : ((b.toNat - a.toNat : ℤ) : ℚ) * value (share x) ≤
      ((b.toNat - a.toNat : ℤ) : ℚ) * value (share y)) :
    mixChannel (share x) a b ≤ mixChannel (share y) a b := by
  have hx := (share_spec x).1
  have hy := (share_spec y).1
  have hwa := isWhole_toFloat32 a
  have hwd := isWhole_difference a b
  have hpx := isNaN_mul hwd.isFinite hx
  have hpy := isNaN_mul hwd.isFinite hy
  have hproduct : index ((b.toFloat32 - a.toFloat32) * share x) ≤
      index ((b.toFloat32 - a.toFloat32) * share y) := by
    rw [index_mul hwd.isFinite hx, index_mul hwd.isFinite hy, hwd.value_eq]
    exact nearest_mono h
  exact toUInt8_round_mono (isNaN_add hwa.isFinite hpx) (isNaN_add hwa.isFinite hpy)
    (index_add_le_add hwa.isFinite hwa.isFinite hpx hpy le_rfl hproduct)

theorem onward_mixChannel (hx : x.isFinite = true) (hy : y.isFinite = true)
    (h : value x ≤ value y) (a b : UInt8) :
    ChannelOnward a b (mixChannel (share x) a b) (mixChannel (share y) a b) := by
  have hshare := share_mono hx hy h
  constructor
  · intro hab
    have hd : (0 : ℚ) ≤ (b.toNat - a.toNat : ℤ) := by
      exact_mod_cast Int.sub_nonneg_of_le (Int.ofNat_le.mpr (UInt8.le_iff_toNat_le.mp hab))
    exact mixChannel_le_mixChannel a b (mul_le_mul_of_nonneg_left hshare hd)
  · intro hab
    have hd : ((b.toNat - a.toNat : ℤ) : ℚ) ≤ 0 := by
      exact_mod_cast Int.sub_nonpos_of_le (Int.ofNat_le.mpr (UInt8.le_iff_toNat_le.mp hab))
    exact mixChannel_le_mixChannel a b (mul_le_mul_of_nonpos_left hshare hd)

/-- A larger share of the way is no further back. -/
theorem onward_mix (hx : x.isFinite = true) (hy : y.isFinite = true) (h : value x ≤ value y)
    (start stop : Color) : Onward start stop (start.mix stop x) (start.mix stop y) :=
  ⟨onward_mixChannel hx hy h _ _, onward_mixChannel hx hy h _ _, onward_mixChannel hx hy h _ _,
    onward_mixChannel hx hy h _ _⟩

end Color

end DriveOverlay
