import DriveOverlay.Hud.Road
import DriveOverlay.Proofs.Surface.Shares

/-! # Colors by confidence

On both sides of the pivot one channel of a lane line is full and the other one falls along the same
ramp, the farther from the pivot the lower.  Every operation on the ramp keeps or turns the order
around in single precision too, and at the pivot, which is no single, no channel can be more than
full, so that the two sides fit together.

* `ramp`: the share of the channel that is not full, by the distance from the pivot;
* `laneColor_eq`, `laneColor_ends`: which channel falls on which side, and how far;
* `red_antitone`, `green_mono`: across the pivot;
* `confidence_law`: lane lines and road edges. -/

namespace DriveOverlay

open Single Color

variable {p q : Float32}

/-! ### The ramp -/

/-- The share of the falling channel, at a distance from the pivot. -/
def ramp (gap : Float32) : Float32 :=
  upper (lower (1 - gap * laneGain) 1) 0

theorem isFinite_ramp {gap : Float32} (h : Within 1 gap) : (ramp gap).isFinite = true := by
  have hgain : Within 2 laneGain := by decide
  have hone : Within 3 1 := by decide
  have hrest : Within 4 (1 - gap * laneGain) :=
    hone.sub (h.mul hgain (by norm_num) (by norm_num)) (by norm_num)
  have hlower : Within 4 (lower (1 - gap * laneGain) 1) := by
    rcases lower_eq_or (1 - gap * laneGain) 1 with e | e
    · rwa [e]
    · rw [e]
      exact hone.mono (by norm_num)
  exact (hlower.upper (by decide)).isFinite

theorem ramp_antitone {gap gap' : Float32} (h : Within 1 gap) (h' : Within 1 gap')
    (hle : value gap ≤ value gap') : value (ramp gap') ≤ value (ramp gap) := by
  have hgain : laneGain.isFinite = true := by decide
  have hgain0 : 0 < index laneGain := by decide
  have hproduct : index (gap * laneGain) ≤ index (gap' * laneGain) :=
    index_mul_mono (isNaN_of_isFinite h.isFinite) (isNaN_of_isFinite h'.isFinite) hgain hgain0
      (grid_strictMono.le_iff_le.mp hle)
  have hwithin {g : Float32} (hg : Within 1 g) : Within 3 (g * laneGain) :=
    hg.mul (by decide : Within 2 laneGain) (by norm_num) (by norm_num)
  have hrest : index (1 - gap' * laneGain) ≤ index (1 - gap * laneGain) :=
    index_sub_le_sub isWhole_one.isFinite isWhole_one.isFinite (hwithin h').isFinite
      (hwithin h).isFinite le_rfl (grid_strictMono.monotone hproduct)
  have hn := isNaN_sub isWhole_one.isNaN (hwithin h).isFinite
  have hn' := isNaN_sub isWhole_one.isNaN (hwithin h').isFinite
  obtain ⟨hl, hlv⟩ := lower_spec hn isWhole_one.isNaN
  obtain ⟨hl', hlv'⟩ := lower_spec hn' isWhole_one.isNaN
  rw [ramp, ramp, (upper_spec hl rfl).2, (upper_spec hl' rfl).2, hlv, hlv']
  exact max_le_max (min_le_min (grid_strictMono.monotone hrest) le_rfl) le_rfl

/-! ### Lane lines -/

/-- Above the pivot red falls, below it green does. -/
theorem laneColor_eq (p : Float32) : laneColor p false =
    if lanePivot < share p then ⟨channel (ramp (share p - lanePivot)), 255, 0, 255⟩
    else ⟨255, channel (ramp (lanePivot - share p)), 0, 255⟩ := by
  have hfull : channel (upper 1 0) = 255 := by decide +kernel
  unfold laneColor
  dsimp only
  rw [if_neg Bool.false_ne_true]
  split
  · simp only [ofShares, hfull, channel_zero, channel_one, ramp]
  · simp only [ofShares, hfull, channel_zero, channel_one, ramp]

theorem laneColor_stock (p : Float32) : laneColor p true = Palette.white (channel (share p)) := by
  unfold laneColor
  dsimp only
  rw [if_pos rfl, ofShares, channel_one, Palette.white]

/-- The ramps reach from pure red to pure green, and from nothing to white. -/
theorem laneColor_ends :
    laneColor 0 false = ⟨255, 0, 0, 255⟩ ∧ laneColor 1 false = ⟨0, 255, 0, 255⟩ ∧
      laneColor 0 true = Palette.white 0 ∧ laneColor 1 true = Palette.white 255 := by
  decide +kernel

theorem within_lanePivot : Within 0 lanePivot := by decide

theorem within_above (p : Float32) : Within 1 (share p - lanePivot) :=
  (within_share p).sub within_lanePivot (by norm_num)

theorem within_below (p : Float32) : Within 1 (lanePivot - share p) :=
  within_lanePivot.sub (within_share p) (by norm_num)

theorem above_mono (h : value (share p) ≤ value (share q)) :
    value (share p - lanePivot) ≤ value (share q - lanePivot) :=
  grid_strictMono.monotone <| index_sub_le_sub (within_share p).isFinite
    (within_share q).isFinite within_lanePivot.isFinite within_lanePivot.isFinite h le_rfl

theorem below_antitone (h : value (share p) ≤ value (share q)) :
    value (lanePivot - share q) ≤ value (lanePivot - share p) :=
  grid_strictMono.monotone <| index_sub_le_sub within_lanePivot.isFinite within_lanePivot.isFinite
    (within_share q).isFinite (within_share p).isFinite le_rfl h

theorem lanePivot_lt_of_le (h : value (share p) ≤ value (share q)) (hp : lanePivot < share p) :
    lanePivot < share q := by
  have hpivot := isNaN_of_isFinite within_lanePivot.isFinite
  rw [lt_iff_value hpivot (isNaN_of_isFinite (share_spec _).1)] at hp ⊢
  exact hp.trans_le h

theorem le_full (n : UInt8) : n ≤ 255 :=
  UInt8.le_iff_toNat_le.mpr (Nat.le_of_lt_succ n.toNat_lt)

/-- The more likely a lane line is, the less red. -/
theorem red_antitone (h : value (share p) ≤ value (share q)) :
    (laneColor q false).red ≤ (laneColor p false).red := by
  rw [laneColor_eq p, laneColor_eq q]
  by_cases hp : lanePivot < share p
  · rw [if_pos hp, if_pos (lanePivot_lt_of_le h hp)]
    exact channel_mono (isFinite_ramp (within_above q)) (isFinite_ramp (within_above p))
      (ramp_antitone (within_above p) (within_above q) (above_mono h))
  · rw [if_neg hp]
    exact le_full _

/-- The more likely a lane line is, the greener. -/
theorem green_mono (h : value (share p) ≤ value (share q)) :
    (laneColor p false).green ≤ (laneColor q false).green := by
  rw [laneColor_eq p, laneColor_eq q]
  by_cases hq : lanePivot < share q
  · rw [if_pos hq]
    exact le_full _
  · rw [if_neg (mt (lanePivot_lt_of_le h) hq), if_neg hq]
    exact channel_mono (isFinite_ramp (within_below p)) (isFinite_ramp (within_below q))
      (ramp_antitone (within_below q) (within_below p) (below_antitone h))

/-! ### Road edges -/

theorem edgeColor_eq (d : Float32) : edgeColor d =
    ⟨255, 0, 0, channel (if d.isFinite then clamp (1 - d) 0 1 else 0)⟩ := by
  rw [edgeColor, ofShares, channel_one, channel_zero]

theorem edgeColor_ends : (edgeColor 0).alpha = 255 ∧ (edgeColor 1).alpha = 0 := by
  decide +kernel

theorem edge_alpha_antitone (hp : p.isFinite = true) (hq : q.isFinite = true)
    (h : value p ≤ value q) : (edgeColor q).alpha ≤ (edgeColor p).alpha := by
  have hone := isWhole_one.isFinite
  have hrest : index (1 - q) ≤ index (1 - p) := index_sub_le_sub hone hone hq hp le_rfl h
  have hnp := isNaN_sub isWhole_one.isNaN hp
  have hnq := isNaN_sub isWhole_one.isNaN hq
  rw [edgeColor_eq, edgeColor_eq, if_pos hp, if_pos hq]
  exact channel_mono (clamp_between hnq rfl hone value_zero_le_one).1
    (clamp_between hnp rfl hone value_zero_le_one).1
    (clamp_mono hnq hnp rfl isWhole_one.isNaN value_zero_le_one hrest)

/-! ### The law -/

/-- For every probability, also one that is no number: beside the stock display a lane line has no
blue, is opaque, and full of red or of green; on it, it is white.  A probability that is not finite
counts as 0 and any other as moved into `[0, 1]`.  From 0 to 1 the color goes from red to green, or
from invisible to opaque white; of two finite probabilities the larger one makes the line no redder,
no less green and no less opaque.  Road edges are pure red, opaque without a deviation, no more
opaque for a larger finite one, and invisible for one that is not finite. -/
theorem confidence_law (p q : Float32) :
    ((laneColor p false).blue = 0 ∧ (laneColor p false).alpha = 255 ∧
      ((laneColor p false).red = 255 ∨ (laneColor p false).green = 255)) ∧
    laneColor p true = Palette.white (laneColor p true).alpha ∧
    (∀ stock, laneColor p stock = laneColor (if p.isFinite then clamp p 0 1 else 0) stock) ∧
    edgeColor p = ⟨255, 0, 0, (edgeColor p).alpha⟩ ∧
    (p.isFinite = false → (edgeColor p).alpha = 0) ∧
    (laneColor 0 false = ⟨255, 0, 0, 255⟩ ∧ laneColor 1 false = ⟨0, 255, 0, 255⟩ ∧
      laneColor 0 true = Palette.white 0 ∧ laneColor 1 true = Palette.white 255) ∧
    ((edgeColor 0).alpha = 255 ∧ (edgeColor 1).alpha = 0) ∧
    (p.isFinite = true → q.isFinite = true → p ≤ q →
      (laneColor q false).red ≤ (laneColor p false).red ∧
      (laneColor p false).green ≤ (laneColor q false).green ∧
      (laneColor p true).alpha ≤ (laneColor q true).alpha ∧
      (edgeColor q).alpha ≤ (edgeColor p).alpha) := by
  refine ⟨?_, ?_, ?_, ?_, ?_, laneColor_ends, edgeColor_ends, ?_⟩
  · rw [laneColor_eq]
    split
    · exact ⟨rfl, rfl, .inr rfl⟩
    · exact ⟨rfl, rfl, .inl rfl⟩
  · rw [laneColor_stock]
    rfl
  · intro stock
    have hshare : share p = share (if p.isFinite then clamp p 0 1 else 0) := by
      split
      · exact (share_clamp ‹_›).symm
      · rw [share, if_neg ‹_›]
        decide
    rw [laneColor, laneColor, hshare]
  · rw [edgeColor_eq]
  · intro hp
    rw [edgeColor_eq, if_neg (Bool.eq_false_iff.mp hp)]
    exact channel_zero
  · intro hp hq hle
    have hvalue := (le_iff_value (isNaN_of_isFinite hp) (isNaN_of_isFinite hq)).mp hle
    have hshare := share_mono hp hq hvalue
    refine ⟨red_antitone hshare, green_mono hshare, ?_, edge_alpha_antitone hp hq hvalue⟩
    rw [laneColor_stock, laneColor_stock]
    exact channel_mono (share_spec p).1 (share_spec q).1 hshare

/-- Across the pivot, from orange to a green that still has some red in it. -/
theorem confidence_law_acrossPivot :
    laneColor 0.3 false = ⟨255, 191, 0, 255⟩ ∧ laneColor 0.7 false = ⟨64, 255, 0, 255⟩ ∧
      (laneColor 0.7 false).red ≤ (laneColor 0.3 false).red ∧
      (laneColor 0.3 false).green ≤ (laneColor 0.7 false).green ∧
      (edgeColor (.ofBits 0x7fc00000)).alpha = 0 := by
  obtain ⟨-, -, -, -, -, -, -, horder⟩ := confidence_law 0.3 0.7
  obtain ⟨-, -, -, -, hnone, -⟩ := confidence_law (.ofBits 0x7fc00000) 0
  obtain ⟨hred, hgreen, -⟩ := horder (by decide) (by decide) (by decide)
  exact ⟨by decide +kernel, by decide +kernel, hred, hgreen, hnone (by decide)⟩

end DriveOverlay
