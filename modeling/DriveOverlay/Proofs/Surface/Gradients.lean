import DriveOverlay.Proofs.Single.Whole
import DriveOverlay.Surface.Paint

/-! # Gradients

A color on the way from one color to another lies between the two, channel by channel: rounding does
not lead out of the interval, and a share that is no number does not either.

* `share_spec`: a share is a number from 0 to 1;
* `IsWhole.mul_between`, `IsWhole.add_between`: rounded products and sums keep to whole bounds;
* `channelBetween_mixChannel`: a channel on the way from `a` to `b` lies between `a` and `b`;
* `between_colorAt`: so does each channel of a gradient, in any row and whatever its ends are. -/

namespace DriveOverlay

namespace Single

/-- A share is a number from 0 to 1. -/
theorem share_spec (x : Float32) :
    (share x).isFinite = true ∧ 0 ≤ value (share x) ∧ value (share x) ≤ 1 := by
  unfold share
  split
  · rename_i hx
    have h := clamp_between (isNaN_of_isFinite hx) rfl rfl value_zero_le_one
    rwa [value_zero, value_one] at h
  · rw [value_zero]
    exact ⟨rfl, le_rfl, zero_le_one⟩

/-- A whole number times a share lies between zero and the number. -/
theorem IsWhole.mul_between {x t : Float32} {d : ℤ} (hx : IsWhole d x) (ht : t.isFinite = true)
    (h0 : 0 ≤ value t) (h1 : value t ≤ 1) (hd : d.natAbs ≤ 2 ^ 24) :
    (x * t).isFinite = true ∧ (min 0 d : ℤ) ≤ value (x * t) ∧ value (x * t) ≤ (max 0 d : ℤ) := by
  have hi := index_mul hx.isFinite ht
  rw [hx.value_eq] at hi
  have hq : ((min 0 d : ℤ) : ℚ) ≤ d * value t ∧ d * value t ≤ (max 0 d : ℤ) := by
    push_cast
    rcases le_total 0 (d : ℚ) with h | h
    · rw [min_eq_left h, max_eq_right h]
      exact ⟨mul_nonneg h h0, mul_le_of_le_one_right h h1⟩
    · rw [min_eq_right h, max_eq_left h]
      exact ⟨le_mul_of_le_one_right h h1, mul_nonpos_of_nonpos_of_nonneg h h0⟩
  exact rounded_between (isNaN_mul hx.isFinite ht) hi hq.1 hq.2 (by omega) (by omega)

/-- A whole number plus a number between whole numbers lies between the sums. -/
theorem IsWhole.add_between {x y : Float32} {z n m : ℤ} (hx : IsWhole z x)
    (hy : y.isFinite = true) (hn : n ≤ value y) (hm : value y ≤ m) (hn' : (z + n).natAbs ≤ 2 ^ 24)
    (hm' : (z + m).natAbs ≤ 2 ^ 24) :
    (x + y).isFinite = true ∧ (z + n : ℤ) ≤ value (x + y) ∧ value (x + y) ≤ (z + m : ℤ) := by
  have hi := index_add hx.isFinite hy
  rw [hx.value_eq] at hi
  refine rounded_between (isNaN_add hx.isFinite (isNaN_of_isFinite hy)) hi ?_ ?_ hn' hm'
  · rw [Int.cast_add]
    exact add_le_add_right hn _
  · rw [Int.cast_add]
    exact add_le_add_right hm _

end Single

namespace Color

open Single

/-- The channel `c` lies between `a` and `b`, in either order. -/
def ChannelBetween (a b c : UInt8) : Prop :=
  min a.toNat b.toNat ≤ c.toNat ∧ c.toNat ≤ max a.toNat b.toNat

theorem channelBetween_right (a b : UInt8) : ChannelBetween a b b :=
  ⟨Nat.min_le_right _ _, Nat.le_max_right _ _⟩

theorem isWhole_difference (a b : UInt8) :
    IsWhole (b.toNat - a.toNat) (b.toFloat32 - a.toFloat32) := by
  have ha := a.toNat_lt
  have hb := b.toNat_lt
  exact (isWhole_toFloat32 b).sub (isWhole_toFloat32 a) (by omega)

/-- A channel on the way from `a` to `b` lies between `a` and `b`. -/
theorem channelBetween_mixChannel {t : Float32} (ht : t.isFinite = true) (h0 : 0 ≤ value t)
    (h1 : value t ≤ 1) (a b : UInt8) : ChannelBetween a b (mixChannel t a b) := by
  have ha := a.toNat_lt
  have hb := b.toNat_lt
  obtain ⟨d, hd⟩ : ∃ d : ℤ, (b.toNat : ℤ) - a.toNat = d := ⟨_, rfl⟩
  have hwd : IsWhole d (b.toFloat32 - a.toFloat32) := hd ▸ isWhole_difference a b
  obtain ⟨hf, hlo, hhi⟩ := hwd.mul_between ht h0 h1 (by omega)
  obtain ⟨hf, hlo, hhi⟩ := (isWhole_toFloat32 a).add_between hf hlo hhi (by omega) (by omega)
  obtain ⟨hn, z, hz, hlo, hhi⟩ := round_between hf hlo hhi
  have hc : (mixChannel t a b).toNat = z.toNat := by
    rw [mixChannel, toNat_toUInt8 hn, hz, ← Int.floor_toNat, Int.floor_intCast]
    omega
  rw [ChannelBetween, hc]
  omega

/-- Each channel lies between those of two colors. -/
structure Between (a b c : Color) : Prop where
  red : ChannelBetween a.red b.red c.red
  green : ChannelBetween a.green b.green c.green
  blue : ChannelBetween a.blue b.blue c.blue
  alpha : ChannelBetween a.alpha b.alpha c.alpha

theorem between_right (a b : Color) : Between a b b :=
  ⟨channelBetween_right _ _, channelBetween_right _ _, channelBetween_right _ _,
    channelBetween_right _ _⟩

theorem between_mix (a b : Color) (t : Float32) : Between a b (a.mix b t) := by
  obtain ⟨ht, h0, h1⟩ := share_spec t
  exact ⟨channelBetween_mixChannel ht h0 h1 _ _, channelBetween_mixChannel ht h0 h1 _ _,
    channelBetween_mixChannel ht h0 h1 _ _, channelBetween_mixChannel ht h0 h1 _ _⟩

theorem Between.eq_black {a b : UInt8} {c : Color}
    (h : Between (Palette.black a) (Palette.black b) c) : c = Palette.black c.alpha := by
  obtain ⟨red, green, blue, alpha⟩ := c
  have zero {n : UInt8} (hn : ChannelBetween 0 0 n) : n = 0 :=
    UInt8.toNat_inj.mp (Nat.le_zero.mp hn.2)
  obtain rfl : red = 0 := zero h.red
  obtain rfl : green = 0 := zero h.green
  obtain rfl : blue = 0 := zero h.blue
  rfl

end Color

/-- Each channel of a gradient lies between those of its two colors. -/
theorem Paint.between_colorAt (y0 : Float32) (start : Color) (y1 : Float32) (stop : Color)
    (y : Float32) : Color.Between start stop ((Paint.vertical y0 start y1 stop).colorAt y) := by
  unfold colorAt
  dsimp only
  split
  · exact Color.between_right start stop
  · exact Color.between_mix start stop _

end DriveOverlay
