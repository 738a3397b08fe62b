import DriveOverlay.Proofs.Surface.Gradients
import DriveOverlay.Surface.Canvas

/-! # Colors over pixels

What a color leaves of the pixel below it, in whole numbers without a bound.  Every channel becomes
the mean of the old one and that of the color, the alpha of the color being its weight; for the
alpha of the pixel the color counts as opaque.

* `toNat_overChannel`, `toNat_overAlpha`: nothing is cut off where a channel is narrowed to eight
  bits;
* `over_eq`: invisible and opaque colors are no exception;
* `weightedMean_between`: a mean lies between what it is made of;
* `blends_over`: so do the channels of a pixel that a color is put over. -/

namespace DriveOverlay.Color

/-! ### Weighted means -/

/-- The mean of two channels, rounded to the nearest whole number; the weight of the first is
counted in 255ths. -/
def weightedMean (weight source below : ℕ) : ℕ :=
  (source * weight + below * (255 - weight) + 127) / 255

/-- A mean lies between what it is made of. -/
theorem weightedMean_between {weight : ℕ} (h : weight ≤ 255) (source below : ℕ) :
    min below source ≤ weightedMean weight source below ∧
      weightedMean weight source below ≤ max below source := by
  have split (n : ℕ) : n * 255 = n * weight + n * (255 - weight) := by
    rw [← Nat.mul_add, Nat.add_sub_cancel' h]
  unfold weightedMean
  constructor
  · rw [Nat.le_div_iff_mul_le (by norm_num), split]
    have hs := Nat.mul_le_mul_right weight (Nat.min_le_right below source)
    have hb := Nat.mul_le_mul_right (255 - weight) (Nat.min_le_left below source)
    omega
  · rw [Nat.div_le_iff_le_mul_add_pred (by norm_num), Nat.mul_comm 255, split]
    have hs := Nat.mul_le_mul_right weight (Nat.le_max_right below source)
    have hb := Nat.mul_le_mul_right (255 - weight) (Nat.le_max_left below source)
    omega

theorem weightedMean_zero (source below : ℕ) : weightedMean 0 source below = below := by
  unfold weightedMean
  omega

theorem weightedMean_full (source below : ℕ) : weightedMean 255 source below = source := by
  unfold weightedMean
  omega

theorem weightedMean_solid (weight below : ℕ) :
    weightedMean weight 255 below = weight + (below * (255 - weight) + 127) / 255 := by
  unfold weightedMean
  omega

/-! ### Eight bits -/

theorem toNat_le (n : UInt8) : n.toNat ≤ 255 := Nat.le_of_lt_succ n.toNat_lt

theorem weightedMean_lt {weight source below : ℕ} (hw : weight ≤ 255) (hs : source ≤ 255)
    (hb : below ≤ 255) : weightedMean weight source below < 2 ^ 8 := by
  have := (weightedMean_between hw source below).2
  omega

theorem toNat_mul_channels {m n : UInt32} (hm : m.toNat ≤ 255) (hn : n.toNat ≤ 255) :
    (m * n).toNat = m.toNat * n.toNat ∧ m.toNat * n.toNat ≤ 255 * 255 := by
  have h := Nat.mul_le_mul hm hn
  rw [UInt32.toNat_mul]
  exact ⟨Nat.mod_eq_of_lt (by omega), h⟩

theorem toNat_rest (alpha : UInt8) : (255 - alpha.toUInt32).toNat = 255 - alpha.toNat := by
  have h : alpha.toUInt32 ≤ 255 := UInt32.le_iff_toNat_le.mpr (toNat_le alpha)
  rw [UInt32.toNat_sub_of_le _ _ h]
  rfl

/-- Nothing is cut off where a channel is narrowed to eight bits. -/
theorem toNat_overChannel (alpha source below : UInt8) :
    (overChannel alpha source below).toNat =
      weightedMean alpha.toNat source.toNat below.toNat := by
  have ha := toNat_le alpha
  have hw := toNat_rest alpha
  obtain ⟨hs, hs'⟩ := toNat_mul_channels (m := source.toUInt32) (n := alpha.toUInt32)
    (toNat_le source) ha
  obtain ⟨hb, hb'⟩ := toNat_mul_channels (m := below.toUInt32) (n := 255 - alpha.toUInt32)
    (toNat_le below) (by omega)
  have hlt := weightedMean_lt ha (toNat_le source) (toNat_le below)
  rw [hw] at hb hb'
  unfold overChannel
  simp only [UInt32.toNat_toUInt8, UInt32.toNat_div, UInt32.toNat_add, hs, hb, UInt8.toNat_toUInt32,
    UInt32.reduceToNat] at hs' hb' ⊢
  unfold weightedMean at hlt ⊢
  omega

/-- Nothing is cut off where an alpha is narrowed to eight bits. -/
theorem toNat_overAlpha (alpha below : UInt8) :
    (overAlpha alpha below).toNat = weightedMean alpha.toNat 255 below.toNat := by
  have ha := toNat_le alpha
  have hw := toNat_rest alpha
  obtain ⟨hb, hb'⟩ := toNat_mul_channels (m := below.toUInt32) (n := 255 - alpha.toUInt32)
    (toNat_le below) (by omega)
  have hlt := weightedMean_lt ha le_rfl (toNat_le below)
  rw [hw] at hb hb'
  rw [weightedMean_solid] at hlt ⊢
  unfold overAlpha
  simp only [UInt32.toNat_toUInt8, UInt32.toNat_div, UInt32.toNat_add, hb, UInt8.toNat_toUInt32,
    UInt32.reduceToNat] at hb' ⊢
  omega

/-! ### Colors -/

/-- Invisible and opaque colors are no exception. -/
theorem over_eq (source below : Color) : source.over below =
    ⟨overChannel source.alpha source.red below.red,
      overChannel source.alpha source.green below.green,
      overChannel source.alpha source.blue below.blue, overAlpha source.alpha below.alpha⟩ := by
  obtain ⟨r, g, b, a⟩ := source
  unfold Color.over
  dsimp only
  split_ifs with h0 h1
  · have channel (s d : UInt8) : overChannel 0 s d = d := by
      rw [← UInt8.toNat_inj, toNat_overChannel]
      exact weightedMean_zero _ _
    have alpha (d : UInt8) : overAlpha 0 d = d := by
      rw [← UInt8.toNat_inj, toNat_overAlpha]
      exact weightedMean_zero _ _
    subst h0
    simp only [channel, alpha]
  · have channel (s d : UInt8) : overChannel 255 s d = s := by
      rw [← UInt8.toNat_inj, toNat_overChannel]
      exact weightedMean_full _ _
    have alpha (d : UInt8) : overAlpha 255 d = 255 := by
      rw [← UInt8.toNat_inj, toNat_overAlpha]
      exact weightedMean_full _ _
    subst h1
    simp only [channel, alpha]
  · rfl

/-- What a pixel comes to when a color is put over it: the exact means, and where they lie. -/
structure Blends (source below result : Color) : Prop where
  red_eq : result.red.toNat = weightedMean source.alpha.toNat source.red.toNat below.red.toNat
  green_eq :
    result.green.toNat = weightedMean source.alpha.toNat source.green.toNat below.green.toNat
  blue_eq : result.blue.toNat = weightedMean source.alpha.toNat source.blue.toNat below.blue.toNat
  alpha_eq : result.alpha.toNat = weightedMean source.alpha.toNat 255 below.alpha.toNat
  red_between : ChannelBetween below.red source.red result.red
  green_between : ChannelBetween below.green source.green result.green
  blue_between : ChannelBetween below.blue source.blue result.blue
  alpha_between : ChannelBetween below.alpha 255 result.alpha

theorem channelBetween_of_mean {weight a b c : UInt8}
    (h : c.toNat = weightedMean weight.toNat b.toNat a.toNat) : ChannelBetween a b c := by
  rw [ChannelBetween, h]
  exact weightedMean_between (toNat_le weight) _ _

/-- A color over a pixel gives the means. -/
theorem blends_over (source below : Color) : Blends source below (source.over below) := by
  rw [over_eq]
  exact {
    red_eq := toNat_overChannel _ _ _
    green_eq := toNat_overChannel _ _ _
    blue_eq := toNat_overChannel _ _ _
    alpha_eq := toNat_overAlpha _ _
    red_between := channelBetween_of_mean (toNat_overChannel _ _ _)
    green_between := channelBetween_of_mean (toNat_overChannel _ _ _)
    blue_between := channelBetween_of_mean (toNat_overChannel _ _ _)
    alpha_between := channelBetween_of_mean (toNat_overAlpha _ _) }

theorem alpha_le_over (source below : Color) : below.alpha ≤ (source.over below).alpha := by
  have h := (blends_over source below).alpha_between.1
  have hle := toNat_le below.alpha
  rw [UInt8.le_iff_toNat_le]
  change min below.alpha.toNat 255 ≤ _ at h
  omega

end DriveOverlay.Color
