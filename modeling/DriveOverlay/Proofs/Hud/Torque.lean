import DriveOverlay.Hud.Road
import DriveOverlay.Proofs.Single.Order

/-! # The color of the path under torque

The torque is a product of singles of any size, made an integer.  What is not finite counts as no
torque, and what is too large as the largest integer, so that every torque can be taken from 255.
From there on there is only one number, the redness, of which green is what is missing to 255:
nothing is cut off where the two become channels, and the far end of the path has no more of either.

Every operation rounds, but none turns the order of magnitudes around.  While the products stay
finite, a stronger output therefore makes the path no less red and no greener.

* `torque_eq`: the torque is the whole part of a magnitude, up to the largest integer;
* `strength_mono`, `torque_mono`: the torque keeps the order of outputs;
* `pathStyle_eq`: both ends of the path are made of the redness;
* `torque_law`: the range of the torque, the channels, and their order. -/

namespace DriveOverlay

open Single

/-! ### Torque -/

namespace Steering

variable {s s' : Steering}

/-- What the output of the controller is multiplied by, under a limit. -/
def gain (limit : Float32) : Float32 :=
  limit - 1.5 * (limit - 0.9)

/-- How strong the torque is, before it is made an integer. -/
def strength (s : Steering) : Float32 :=
  (255 * s.output * gain s.limit).abs

theorem value_strength_nonneg (s : Steering) : 0 ≤ value s.strength := by
  rw [strength, value_abs]
  exact abs_nonneg _

theorem value_largest : value 2147483648 = 2 ^ 31 := by
  rw [value_of_mantissa (m := 2 ^ 23) (s := 157) rfl (by norm_num) le_rfl]
  norm_num

/-- The torque is the whole part of its strength, up to the largest integer. -/
theorem torque_eq (s : Steering) :
    s.torque = (if s.strength.isFinite then min (2 ^ 31 - 1) ⌊value s.strength⌋₊ else 0 : ℕ) := by
  have htorque : s.torque =
      if s.strength.isFinite then toInt32 (lower s.strength 2147483648) else 0 := rfl
  rw [htorque]
  split
  · rename_i hf
    obtain ⟨hn, hv⟩ := lower_spec (isNaN_of_isFinite hf) (b := 2147483648) rfl
    rw [value_largest] at hv
    have h0 : 0 ≤ value (lower s.strength 2147483648) :=
      hv ▸ le_min (value_strength_nonneg s) (by norm_num)
    rw [toInt32_of_nonneg hn h0, hv]
    rcases le_total (value s.strength) (2 ^ 31) with hle | hle
    · rw [min_eq_left hle]
    · have hfloor : 2 ^ 31 ≤ ⌊value s.strength⌋₊ := Nat.le_floor (by exact_mod_cast hle)
      have hbound : ⌊(2 ^ 31 : ℚ)⌋₊ = 2 ^ 31 := by exact_mod_cast Nat.floor_natCast (2 ^ 31)
      rw [min_eq_right hle, hbound]
      omega
  · rfl

theorem torque_mem (s : Steering) : 0 ≤ s.torque ∧ s.torque ≤ 2 ^ 31 - 1 := by
  rw [torque_eq]
  split
  · omega
  · omega

theorem gain_congr {limit limit' : Float32} (h : (limit == limit') = true) :
    gain limit = gain limit' := by
  obtain ⟨hn, hn', hi⟩ := beq_iff.mp h
  by_cases h0 : index limit = 0
  · rcases eq_zero_of_index hn h0 with rfl | rfl <;>
      rcases eq_zero_of_index hn' (hi ▸ h0) with rfl | rfl <;> decide +kernel
  · rw [eq_of_index_eq hn hn' hi h0]

/-- A stronger output gives a stronger torque. -/
theorem strength_mono (hs : s.strength.isFinite = true) (hs' : s'.strength.isFinite = true)
    (hlimit : (s.limit == s'.limit) = true) (h : s.output.abs ≤ s'.output.abs) :
    value s.strength ≤ value s'.strength := by
  rw [strength, isFinite_abs] at hs hs'
  rw [← gain_congr hlimit] at hs'
  obtain ⟨hscaled, hgain⟩ := isFinite_of_mul hs
  obtain ⟨hscaled', -⟩ := isFinite_of_mul hs'
  obtain ⟨hfull, houtput⟩ := isFinite_of_mul hscaled
  obtain ⟨-, houtput'⟩ := isFinite_of_mul hscaled'
  have hle : |value s.output| ≤ |value s'.output| := by
    rw [← value_abs, ← value_abs]
    exact grid_strictMono.monotone (le_iff.mp h).2.2
  have hmul {x y z : ℚ} (hxy : |x| ≤ |y|) : |x * z| ≤ |y * z| := by
    rw [abs_mul, abs_mul]
    exact mul_le_mul_of_nonneg_right hxy (abs_nonneg z)
  have hproduct : |value (255 * s.output)| ≤ |value (255 * s'.output)| := by
    rw [mul_swap, mul_swap 255]
    exact abs_rounded_mono (index_mul houtput hfull) (index_mul houtput' hfull) (hmul hle)
  rw [strength, strength, ← gain_congr hlimit, value_abs, value_abs]
  exact abs_rounded_mono (index_mul hscaled hgain) (index_mul hscaled' hgain) (hmul hproduct)

theorem torque_mono (hs : s.strength.isFinite = true) (hs' : s'.strength.isFinite = true)
    (h : value s.strength ≤ value s'.strength) : s.torque ≤ s'.torque := by
  rw [torque_eq, torque_eq, if_pos hs, if_pos hs']
  exact Int.ofNat_le.mpr (min_le_min le_rfl (Nat.floor_mono h))

end Steering

/-! ### Channels -/

section

variable {n m : ℕ}

theorem toNat_ofNat_channel (h : n ≤ 255) : (UInt8.ofNat n).toNat = n :=
  UInt8.toNat_ofNat_of_lt' (Nat.lt_succ_of_le h)

theorem ofNat_channel_mono (h : n ≤ m) (hm : m ≤ 255) : UInt8.ofNat n ≤ UInt8.ofNat m := by
  rw [UInt8.le_iff_toNat_le, toNat_ofNat_channel (h.trans hm), toNat_ofNat_channel hm]
  exact h

theorem toNat_farChannel (h : n ≤ 255) :
    (farChannel n).toNat = ⌊value (0.7 * ofInt n)⌋₊ ∧ (farChannel n).toNat ≤ n := by
  have hw : IsWhole n (ofInt n) := isWhole_ofInt (by omega)
  have hshare : (0.7 : Float32).isFinite = true := by decide
  have hle : value (0.7 * ofInt n) ≤ n := by
    refine rounded_le (index_mul hshare hw.isFinite) (onGrid_natCast (by omega)) ?_
    have hone : value 0.7 ≤ value 1 := grid_strictMono.monotone (by decide)
    rw [value_one] at hone
    rw [hw.value_eq, Int.cast_natCast]
    exact mul_le_of_le_one_left (Nat.cast_nonneg n) hone
  have hfloor : ⌊value (0.7 * ofInt n)⌋₊ ≤ n := Nat.floor_le_of_le hle
  rw [farChannel, toNat_toUInt8 (isNaN_mul hshare hw.isFinite)]
  omega

theorem farChannel_mono (h : n ≤ m) (hm : m ≤ 255) : farChannel n ≤ farChannel m := by
  have hshare : (0.7 : Float32).isFinite = true := by decide
  have hw : IsWhole n (ofInt n) := isWhole_ofInt (by omega)
  have hw' : IsWhole m (ofInt m) := isWhole_ofInt (by omega)
  refine toUInt8_mono (isNaN_mul hshare hw.isFinite) (isNaN_mul hshare hw'.isFinite)
    (rounded_mono (index_mul hshare hw.isFinite) (index_mul hshare hw'.isFinite) ?_)
  rw [hw.value_eq, hw'.value_eq]
  exact mul_le_mul_of_nonneg_left (by exact_mod_cast h) (value_nonneg (by decide))

end

/-! ### The path -/

namespace Snapshot

variable {s s' : Snapshot}

/-- The path has the color of the torque: the system drives, the display is not stock, and the driver
does not steer. -/
structure ShowsTorque (s : Snapshot) : Prop where
  enabled : s.controls.enabled = true
  notStock : s.isStock = false
  notOverridden : s.steering.overridden = false

/-- How red the path is; the rest to 255 is green. -/
def redness (s : Snapshot) : ℕ :=
  (min s.steering.torque 255).toNat

theorem redness_le (s : Snapshot) : s.redness ≤ 255 := by
  unfold redness
  omega

/-- Both ends of the path are made of the redness. -/
theorem pathStyle_eq (h : s.ShowsTorque) : s.pathStyle =
    { bottom := ⟨.ofNat s.redness, .ofNat (255 - s.redness), 0, 150⟩
      top := ⟨farChannel s.redness, farChannel (255 - s.redness : ℕ), 0, 20⟩ } := by
  obtain ⟨h0, -⟩ := s.steering.torque_mem
  have hred : min s.steering.torque 255 = (s.redness : ℤ) := by
    unfold redness
    omega
  have hgreen : max 0 (min 255 (255 - s.steering.torque)) = ((255 - s.redness : ℕ) : ℤ) := by
    unfold redness
    omega
  unfold pathStyle
  rw [h.enabled, h.notStock, h.notOverridden]
  simp only [hred, hgreen, Int.toNat_natCast, Bool.not_false, Bool.and_self, if_true,
    Bool.false_eq_true, if_false]

theorem redness_mono (hs : s.steering.strength.isFinite = true)
    (hs' : s'.steering.strength.isFinite = true)
    (hlimit : (s.steering.limit == s'.steering.limit) = true)
    (h : s.steering.output.abs ≤ s'.steering.output.abs) : s.redness ≤ s'.redness := by
  have hle := Steering.torque_mono hs hs' (Steering.strength_mono hs hs' hlimit h)
  unfold redness
  omega

end Snapshot

/-! ### The law -/

/-- The colors of a path under some torque: red and green share 255, nothing but fractions is cut off
where numbers become channels, and the far end has no more of any channel. -/
structure PathStyle.Balanced (p : PathStyle) (torque : ℤ) : Prop where
  red_eq : (p.bottom.red.toNat : ℤ) = min torque 255
  green_eq : (p.bottom.green.toNat : ℤ) = max 0 (min 255 (255 - torque))
  sum_eq : p.bottom.red.toNat + p.bottom.green.toNat = 255
  blue_eq : p.bottom.blue = 0
  alpha_eq : p.bottom.alpha = 150
  farRed_eq : p.top.red.toNat = ⌊value (0.7 * ofInt p.bottom.red.toNat)⌋₊
  farGreen_eq : p.top.green.toNat = ⌊value (0.7 * ofInt p.bottom.green.toNat)⌋₊
  red_le : p.top.red ≤ p.bottom.red
  green_le : p.top.green ≤ p.bottom.green
  blue_le : p.top.blue ≤ p.bottom.blue
  alpha_le : p.top.alpha ≤ p.bottom.alpha

theorem Snapshot.ShowsTorque.balanced {s : Snapshot} (h : s.ShowsTorque) :
    s.pathStyle.Balanced s.steering.torque := by
  obtain ⟨h0, -⟩ := s.steering.torque_mem
  have hr := s.redness_le
  have hred := toNat_ofNat_channel hr
  have hgreen := toNat_ofNat_channel (Nat.sub_le 255 s.redness)
  obtain ⟨hfarRed, hredLe⟩ := toNat_farChannel hr
  obtain ⟨hfarGreen, hgreenLe⟩ := toNat_farChannel (Nat.sub_le 255 s.redness)
  rw [pathStyle_eq h]
  exact {
    red_eq := by
      rw [hred, Snapshot.redness]
      omega
    green_eq := by
      rw [hgreen, Snapshot.redness]
      omega
    sum_eq := by
      rw [hred, hgreen]
      omega
    blue_eq := rfl
    alpha_eq := rfl
    farRed_eq := by
      rw [hred]
      exact hfarRed
    farGreen_eq := by
      rw [hgreen]
      exact hfarGreen
    red_le := by
      rw [UInt8.le_iff_toNat_le, hred]
      exact hredLe
    green_le := by
      rw [UInt8.le_iff_toNat_le, hgreen]
      exact hgreenLe
    blue_le := UInt8.le_refl 0
    alpha_le := (by decide : (20 : UInt8) ≤ 150) }

/-- Of two paths the second one is no less red and no greener, at both ends. -/
structure PathStyle.Reddens (p p' : PathStyle) : Prop where
  bottom_red : p.bottom.red ≤ p'.bottom.red
  bottom_green : p'.bottom.green ≤ p.bottom.green
  top_red : p.top.red ≤ p'.top.red
  top_green : p'.top.green ≤ p.top.green

theorem Snapshot.ShowsTorque.reddens {s s' : Snapshot} (h : s.ShowsTorque) (h' : s'.ShowsTorque)
    (hle : s.redness ≤ s'.redness) : s.pathStyle.Reddens s'.pathStyle := by
  have hr := s'.redness_le
  have hgreen := Nat.sub_le_sub_left hle 255
  have hr' := Nat.sub_le 255 s.redness
  rw [pathStyle_eq h, pathStyle_eq h']
  exact ⟨ofNat_channel_mono hle hr, ofNat_channel_mono hgreen hr', farChannel_mono hle hr,
    farChannel_mono hgreen hr'⟩

/-- For every steering, also one with numbers that are not finite: the torque is the whole part of its
strength, up to the largest integer of 32 bits, no torque when the strength is not finite, and never
negative.  A path that shows it has red and green that share 255, exactly those that the torque asks
for, no blue, and the alpha 150; the far end has the whole part of seven tenths of both, and no channel
that is stronger.  Of two such paths under equal limits, with finite products, the one with the
stronger output is no less red and no greener. -/
theorem torque_law :
    (∀ s : Steering, 0 ≤ s.torque ∧ s.torque ≤ 2 ^ 31 - 1 ∧
      s.torque = (if s.strength.isFinite then min (2 ^ 31 - 1) ⌊value s.strength⌋₊ else 0 : ℕ)) ∧
    (∀ s : Snapshot, s.ShowsTorque → s.pathStyle.Balanced s.steering.torque) ∧
    ∀ s s' : Snapshot, s.ShowsTorque → s'.ShowsTorque →
      s.steering.strength.isFinite = true → s'.steering.strength.isFinite = true →
      (s.steering.limit == s'.steering.limit) = true →
      s.steering.output.abs ≤ s'.steering.output.abs → s.pathStyle.Reddens s'.pathStyle := by
  refine ⟨fun s => ?_, fun s h => h.balanced, fun s s' h h' hs hs' hlimit houtput => ?_⟩
  · obtain ⟨h0, h1⟩ := s.torque_mem
    exact ⟨h0, h1, s.torque_eq⟩
  · exact h.reddens h' (Snapshot.redness_mono hs hs' hlimit houtput)

/-- Half of the output to one side, and twice the output to the other side. -/
theorem torque_law_halfAndDouble :
    let half : Snapshot :=
      { controls := { enabled := true }, steering := { output := 0.5, limit := 0.9 } }
    let double : Snapshot :=
      { controls := { enabled := true }, steering := { output := -2, limit := 0.9 } }
    half.pathStyle = ⟨⟨114, 141, 0, 150⟩, ⟨79, 98, 0, 20⟩⟩ ∧
      double.pathStyle.bottom = ⟨255, 0, 0, 150⟩ ∧ half.steering.torque ≤ 2 ^ 31 - 1 ∧
      half.pathStyle.Balanced 114 ∧ half.pathStyle.Reddens double.pathStyle := by
  intro half double
  have hhalf : half.ShowsTorque := ⟨rfl, rfl, rfl⟩
  have hdouble : double.ShowsTorque := ⟨rfl, rfl, rfl⟩
  have htorque : half.steering.torque = 114 := by decide +kernel
  obtain ⟨hrange, hbalanced, horder⟩ := torque_law
  refine ⟨by decide +kernel, by decide +kernel, (hrange _).2.1, htorque ▸ hbalanced half hhalf, ?_⟩
  exact horder half double hhalf hdouble (by decide +kernel) (by decide +kernel)
    (by decide +kernel) (by decide +kernel)

end DriveOverlay
