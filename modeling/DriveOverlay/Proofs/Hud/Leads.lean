import DriveOverlay.Hud.Leads
import DriveOverlay.Proofs.Single.Overflow

/-! # How markers change with the lead

The nearer a lead is and the faster the gap closes, the more of its chevron is filled, and the nearer
it is, the larger the chevron.  Every operation rounds, and for extreme numbers the fill overflows
before it is clamped, but no step turns the order around: what is rounded keeps it, and so does what
is clamped.

* `nearness`, `closing`: the two parts of the fill, and how they change (`nearness_antitone`,
  `closing_antitone`);
* `fillAlpha_eq`: the fill before it is clamped is the rounded sum of its parts;
* `fillAlpha_le_fillAlpha`, `sizeAt_antitone`: the orders;
* `shading_law`: all of it, for any leads. -/

namespace DriveOverlay.LeadMarker

open Single

variable {d d' v v' : Float32}

/-! ### Constants -/

theorem isWhole_fillDistance : IsWhole 40 fillDistance := isWhole_ofNat (n := 40) (by norm_num)

theorem isWhole_fillSpeed : IsWhole 10 fillSpeed := isWhole_ofNat (n := 10) (by norm_num)

theorem isWhole_full : IsWhole 255 255 := isWhole_ofNat (n := 255) (by norm_num)

theorem isWhole_thirty : IsWhole 30 30 := isWhole_ofNat (n := 30) (by norm_num)

theorem isWhole_fifteen : IsWhole 15 15 := isWhole_ofNat (n := 15) (by norm_num)

/-! ### The part of the distance -/

/-- How much the distance fills. -/
def nearness (distance : Float32) : Float32 :=
  255 * (1 - distance / fillDistance)

theorem within_share (hd : d.isFinite = true) : Within 123 (d / fillDistance) :=
  isWhole_fillDistance.within_div hd (k := 5) (by norm_num) (by norm_num) (by norm_num)

theorem index_share (hd : d.isFinite = true) : index (d / fillDistance) = nearest (value d / 40) :=
  isWhole_fillDistance.index_div hd (by norm_num)

theorem index_rest (hd : d.isFinite = true) :
    (1 - d / fillDistance).isFinite = true ∧
      index (1 - d / fillDistance) = nearest (1 - value (d / fillDistance)) := by
  have hs := within_share hd
  have hone : Within 123 1 := (by decide : Within 0 1).mono (by norm_num)
  refine ⟨(hone.sub hs (by norm_num)).isFinite, ?_⟩
  rw [index_sub isWhole_one.isFinite hs.isFinite, value_one]

theorem index_nearness (hd : d.isFinite = true) :
    (nearness d).isNaN = false ∧
      index (nearness d) = nearest (255 * value (1 - d / fillDistance)) := by
  have hr := (index_rest hd).1
  refine ⟨isNaN_mul isWhole_full.isFinite hr, ?_⟩
  rw [nearness, index_mul isWhole_full.isFinite hr, isWhole_full.value_eq]
  rfl

/-- The farther a lead is, the less its distance fills. -/
theorem nearness_antitone (hd : d.isFinite = true) (hd' : d'.isFinite = true)
    (h : value d ≤ value d') : value (nearness d') ≤ value (nearness d) := by
  have hshare : value (d / fillDistance) ≤ value (d' / fillDistance) :=
    rounded_mono (index_share hd) (index_share hd') (by linarith)
  have hrest : value (1 - d' / fillDistance) ≤ value (1 - d / fillDistance) :=
    rounded_mono (index_rest hd').2 (index_rest hd).2 (by linarith)
  exact rounded_mono (index_nearness hd').2 (index_nearness hd).2 (by linarith)

theorem nearness_nonneg (hd : d.isFinite = true) (h : value d ≤ 40) : 0 ≤ index (nearness d) := by
  have hone : value (d / fillDistance) ≤ (1 : ℕ) :=
    rounded_le (index_share hd) (onGrid_natCast (by norm_num)) (by push_cast; linarith)
  have hrest : 0 ≤ value (1 - d / fillDistance) := by
    refine value_nonneg (rounded_nonneg (index_rest hd).2 ?_)
    push_cast at hone
    linarith
  exact rounded_nonneg (index_nearness hd).2 (by linarith)

/-! ### The part of the speed -/

/-- How much the speed fills, while the gap closes. -/
def closing (relativeSpeed : Float32) : Float32 :=
  255 * (-relativeSpeed / fillSpeed)

theorem index_rate (hv : v.isFinite = true) :
    (-v / fillSpeed).isFinite = true ∧ index (-v / fillSpeed) = nearest (-value v / 10) := by
  have hn : (-v).isFinite = true := (isFinite_neg v).trans hv
  constructor
  · exact (isWhole_fillSpeed.within_div hn (k := 3) (by norm_num) (by norm_num) (by norm_num)).isFinite
  · rw [isWhole_fillSpeed.index_div hn (by norm_num), value_neg]
    rfl

theorem index_closing (hv : v.isFinite = true) :
    (closing v).isNaN = false ∧ index (closing v) = nearest (255 * value (-v / fillSpeed)) := by
  have hs := (index_rate hv).1
  refine ⟨isNaN_mul isWhole_full.isFinite hs, ?_⟩
  rw [closing, index_mul isWhole_full.isFinite hs, isWhole_full.value_eq]
  rfl

/-- The faster the gap closes, the more that fills. -/
theorem closing_antitone (hv : v.isFinite = true) (hv' : v'.isFinite = true)
    (h : value v ≤ value v') : value (closing v') ≤ value (closing v) := by
  have hrate : value (-v' / fillSpeed) ≤ value (-v / fillSpeed) :=
    rounded_mono (index_rate hv').2 (index_rate hv).2 (by linarith)
  exact rounded_mono (index_closing hv').2 (index_closing hv).2 (by linarith)

theorem closing_nonneg (hv : v.isFinite = true) (h : value v ≤ 0) : 0 ≤ index (closing v) := by
  have hrate : 0 ≤ value (-v / fillSpeed) :=
    value_nonneg (rounded_nonneg (index_rate hv).2 (by linarith))
  exact rounded_nonneg (index_closing hv).2 (by linarith)

/-- What the speed adds to the fill; it never takes anything away. -/
def boost (relativeSpeed : Float32) : ℚ :=
  if relativeSpeed < 0 then value (closing relativeSpeed) else 0

theorem boost_antitone (hv : v.isFinite = true) (hv' : v'.isFinite = true)
    (h : value v ≤ value v') : boost v' ≤ boost v := by
  have hlt := lt_zero_iff (isNaN_of_isFinite hv)
  have hlt' := lt_zero_iff (isNaN_of_isFinite hv')
  unfold boost
  by_cases h' : v' < 0
  · rw [if_pos h', if_pos (hlt.mpr (h.trans_lt (hlt'.mp h')))]
    exact closing_antitone hv hv' h
  · rw [if_neg h']
    split
    · exact value_nonneg (closing_nonneg hv (hlt.mp ‹_›).le)
    · exact le_rfl

/-! ### The fill -/

theorem fillAlpha_eq_zero (h : d.isFinite = false ∨ v.isFinite = false ∨ fillDistance ≤ d) :
    fillAlpha d v = 0 := by
  unfold fillAlpha
  rw [if_pos]
  rcases h with h | h | h <;> simp [h]

/-- The fill before it is clamped is the rounded sum of its parts. -/
theorem fillAlpha_eq (hd : d.isFinite = true) (hv : v.isFinite = true) (h : d < fillDistance) :
    ∃ x : Float32, fillAlpha d v = (clamp x 0 255).toUInt8 ∧ x.isNaN = false ∧
      index x = nearest (value (nearness d) + boost v) := by
  have hle : ¬fillDistance ≤ d := fun hle =>
    absurd (lt_iff.mp h).2.2 (le_iff.mp hle).2.2.not_gt
  have hnear : value d ≤ 40 := by
    have hlt := (lt_iff_value (isNaN_of_isFinite hd) isWhole_fillDistance.isNaN).mp h
    rw [isWhole_fillDistance.value_eq] at hlt
    exact hlt.le
  obtain ⟨hn, -⟩ := index_nearness hd
  have hn0 := nearness_nonneg hd hnear
  refine ⟨if v < 0 then nearness d + closing v else nearness d, ?_, ?_⟩
  · unfold fillAlpha
    rw [if_neg (by simp [hd, hv, hle])]
    rfl
  · unfold boost
    split
    · rename_i hlt
      have hc0 := closing_nonneg hv ((lt_zero_iff (isNaN_of_isFinite hv)).mp hlt).le
      exact index_add_of_nonneg hn (index_closing hv).1 hn0 hc0
    · rw [add_zero]
      exact ⟨hn, (nearest_grid (natAbs_index_le _)).symm⟩

/-- The fill keeps the order of its parts, also where it overflows. -/
theorem fillAlpha_le_fillAlpha (hd : d.isFinite = true) (hd' : d'.isFinite = true)
    (hv : v.isFinite = true) (hv' : v'.isFinite = true) (h : d ≤ d') (h' : v ≤ v') :
    fillAlpha d' v' ≤ fillAlpha d v := by
  have hdv := (le_iff_value (isNaN_of_isFinite hd) (isNaN_of_isFinite hd')).mp h
  have hvv := (le_iff_value (isNaN_of_isFinite hv) (isNaN_of_isFinite hv')).mp h'
  by_cases hfar : fillDistance ≤ d'
  · rw [fillAlpha_eq_zero (.inr (.inr hfar))]
    exact UInt8.le_iff_toNat_le.mpr (Nat.zero_le _)
  · have hlt' : d' < fillDistance := by
      rw [le_iff_value isWhole_fillDistance.isNaN (isNaN_of_isFinite hd'), not_le] at hfar
      exact (lt_iff_value (isNaN_of_isFinite hd') isWhole_fillDistance.isNaN).mpr hfar
    have hlt : d < fillDistance := by
      rw [lt_iff_value (isNaN_of_isFinite hd') isWhole_fillDistance.isNaN] at hlt'
      exact (lt_iff_value (isNaN_of_isFinite hd) isWhole_fillDistance.isNaN).mpr (hdv.trans_lt hlt')
    obtain ⟨x, hx, hxn, hxi⟩ := fillAlpha_eq hd hv hlt
    obtain ⟨x', hx', hxn', hxi'⟩ := fillAlpha_eq hd' hv' hlt'
    have hle : value x' ≤ value x := rounded_mono hxi' hxi
      (add_le_add (nearness_antitone hd hd' hdv) (boost_antitone hv hv' hvv))
    have hfull : value 0 ≤ value 255 := by
      rw [value_zero, isWhole_full.value_eq]
      norm_num
    obtain ⟨hn, hc⟩ := clamp_spec hxn rfl rfl hfull
    obtain ⟨hn', hc'⟩ := clamp_spec hxn' rfl rfl hfull
    rw [hx, hx']
    refine toUInt8_mono hn' hn ?_
    rw [hc, hc']
    exact max_le_max le_rfl (min_le_min hle le_rfl)

/-! ### The size -/

/-- The distance that sets the size: no lead counts as behind the camera. -/
def ahead (distance : Float32) : Float32 :=
  if distance.isFinite then Single.upper distance 0 else 0

theorem ahead_spec (d : Float32) : (ahead d).isFinite = true ∧ 0 ≤ value (ahead d) := by
  unfold ahead
  split
  · rename_i hd
    refine ⟨((within_of_isFinite hd).upper (within_of_isFinite rfl)).isFinite, ?_⟩
    rw [(upper_spec (isNaN_of_isFinite hd) rfl).2, value_zero]
    exact le_max_right _ _
  · exact ⟨rfl, value_zero.ge⟩

theorem ahead_mono (hd : d.isFinite = true) (hd' : d'.isFinite = true) (h : value d ≤ value d') :
    value (ahead d) ≤ value (ahead d') := by
  rw [ahead, ahead, if_pos hd, if_pos hd', (upper_spec (isNaN_of_isFinite hd) rfl).2,
    (upper_spec (isNaN_of_isFinite hd') rfl).2]
  exact max_le_max h le_rfl

/-- How far the distance moves a marker back. -/
def depth (distance : Float32) : Float32 :=
  ahead distance / 3 + 30

theorem index_third (d : Float32) :
    (ahead d / 3).isFinite = true ∧ index (ahead d / 3) = nearest (value (ahead d) / 3) := by
  obtain ⟨hf, -⟩ := ahead_spec d
  have hthree : IsWhole 3 3 := isWhole_ofNat (n := 3) (by norm_num)
  constructor
  · exact (hthree.within_div hf (k := 1) (by norm_num) (by norm_num) (by norm_num)).isFinite
  · exact hthree.index_div hf (by norm_num)

theorem index_depth (d : Float32) :
    (depth d).isFinite = true ∧ index (depth d) = nearest (value (ahead d / 3) + 30) := by
  obtain ⟨hf, -⟩ := index_third d
  have hi : index (depth d) = nearest (value (ahead d / 3) + 30) := by
    rw [depth, index_add hf isWhole_thirty.isFinite, isWhole_thirty.value_eq]
    rfl
  have hsum := isFinite_add_of_small ((by decide : Within 5 30).mono (by norm_num)) hf
  refine ⟨isFinite_iff.mpr ⟨isNaN_add hf isWhole_thirty.isNaN, ?_⟩, hi⟩
  rw [hi, add_comm, ← Int.cast_ofNat, ← isWhole_thirty.value_eq,
    ← index_add isWhole_thirty.isFinite hf]
  exact (isFinite_iff.mp hsum).2

theorem depth_pos (d : Float32) : 0 < value (depth d) := by
  have hthird : 0 ≤ value (ahead d / 3) :=
    value_nonneg (rounded_nonneg (index_third d).2 (div_nonneg (ahead_spec d).2 (by norm_num)))
  have h : (30 : ℕ) ≤ value (depth d) :=
    le_rounded (index_depth d).2 (onGrid_natCast (by norm_num)) (by push_cast; linarith)
  exact lt_of_lt_of_le (by norm_num) h

theorem depth_mono (hd : d.isFinite = true) (hd' : d'.isFinite = true) (h : value d ≤ value d') :
    value (depth d) ≤ value (depth d') := by
  have hahead := ahead_mono hd hd' h
  have hthird : value (ahead d / 3) ≤ value (ahead d' / 3) :=
    rounded_mono (index_third d).2 (index_third d').2 (by linarith)
  exact rounded_mono (index_depth d).2 (index_depth d').2 (by linarith)

/-- How large a marker appears before it is clamped. -/
def apparent (distance : Float32) : Float32 :=
  25 * 30 / depth distance

theorem index_apparent (d : Float32) :
    (apparent d).isNaN = false ∧ index (apparent d) = nearest (750 / value (depth d)) := by
  have hwhole : IsWhole 750 (25 * 30) :=
    (isWhole_ofNat (n := 25) (by norm_num)).mul isWhole_thirty (by norm_num)
  obtain ⟨hf, -⟩ := index_depth d
  have h0 := index_ne_zero (depth_pos d).ne'
  refine ⟨isNaN_div hwhole.isNaN hf h0, ?_⟩
  rw [apparent, index_div hwhole.isFinite hf h0, hwhole.value_eq]
  rfl

theorem apparent_antitone (hd : d.isFinite = true) (hd' : d'.isFinite = true)
    (h : value d ≤ value d') : value (apparent d') ≤ value (apparent d) :=
  rounded_mono (index_apparent d').2 (index_apparent d).2
    (div_le_div_of_nonneg_left (by norm_num) (depth_pos d) (depth_mono hd hd' h))

/-- How large a marker appears, in steps of 2.35 pixels. -/
def steps (distance : Float32) : Float32 :=
  Single.clamp (apparent distance) 15 30

theorem value_fifteen_le_thirty : value 15 ≤ value 30 := by
  rw [isWhole_fifteen.value_eq, isWhole_thirty.value_eq]
  norm_num

theorem within_steps (d : Float32) : Within 5 (steps d) := by
  obtain ⟨hf, hl, hu⟩ := clamp_between (index_apparent d).1 isWhole_fifteen.isFinite
    isWhole_thirty.isFinite value_fifteen_le_thirty
  rw [isWhole_fifteen.value_eq] at hl
  rw [isWhole_thirty.value_eq] at hu
  push_cast at hl hu
  refine within_iff_abs_value_le.mpr ⟨hf, ?_⟩
  rw [steps, abs_of_nonneg (by linarith)]
  exact hu.trans (by norm_num)

theorem value_steps (d : Float32) :
    value (steps d) = max (value 15) (min (value (apparent d)) (value 30)) :=
  (clamp_spec (index_apparent d).1 isWhole_fifteen.isNaN isWhole_thirty.isNaN
    value_fifteen_le_thirty).2

theorem isFinite_step : (2.35 : Float32).isFinite = true := by decide

theorem value_step_nonneg : 0 ≤ value 2.35 :=
  value_nonneg (by decide)

theorem index_sizeAt (d : Float32) :
    (sizeAt d).isFinite = true ∧ index (sizeAt d) = nearest (value (steps d) * value 2.35) := by
  have h := within_steps d
  have hw : Within 2 2.35 := by decide
  exact ⟨(h.mul hw (by norm_num) (by norm_num)).isFinite, index_mul h.isFinite isFinite_step⟩

theorem le_sizeAt (d : Float32) : 15 * 2.35 ≤ sizeAt d := by
  have hn := isNaN_mul isWhole_fifteen.isFinite isFinite_step
  have hsteps : value 15 ≤ value (steps d) := value_steps d ▸ le_max_left _ _
  rw [le_iff_value hn (isNaN_of_isFinite (index_sizeAt d).1)]
  exact rounded_mono (index_mul isWhole_fifteen.isFinite isFinite_step) (index_sizeAt d).2
    (mul_le_mul_of_nonneg_right hsteps value_step_nonneg)

theorem sizeAt_pos (d : Float32) : 0 < sizeAt d := by
  have hle := le_sizeAt d
  have hlt : (0 : Float32) < 15 * 2.35 := by decide
  have hs := isNaN_of_isFinite (index_sizeAt d).1
  have hn : (15 * 2.35 : Float32).isNaN = false := by decide
  rw [le_iff_value hn hs] at hle
  rw [lt_iff_value rfl hn] at hlt
  rw [lt_iff_value rfl hs]
  exact hlt.trans_le hle

/-- The farther a lead is, the smaller its marker. -/
theorem sizeAt_antitone (hd : d.isFinite = true) (hd' : d'.isFinite = true) (h : d ≤ d') :
    sizeAt d' ≤ sizeAt d := by
  rw [le_iff_value (isNaN_of_isFinite hd) (isNaN_of_isFinite hd')] at h
  have hsteps : value (steps d') ≤ value (steps d) := by
    rw [value_steps, value_steps]
    exact max_le_max le_rfl (min_le_min (apparent_antitone hd hd' h) le_rfl)
  rw [le_iff_value (isNaN_of_isFinite (index_sizeAt d').1) (isNaN_of_isFinite (index_sizeAt d).1)]
  exact rounded_mono (index_sizeAt d').2 (index_sizeAt d).2
    (mul_le_mul_of_nonneg_right hsteps value_step_nonneg)

/-! ### The orders -/

/-- A farther lead never has a larger or fuller marker, and one that comes nearer more slowly never
a fuller one.  Far leads have an empty marker, as those of which anything is not finite; no marker is
smaller than the smallest one. -/
theorem shading_law :
    (∀ d d' v v' : Float32, d.isFinite = true → d'.isFinite = true → v.isFinite = true →
      v'.isFinite = true → d ≤ d' → v ≤ v' →
      fillAlpha d' v ≤ fillAlpha d v ∧ fillAlpha d v' ≤ fillAlpha d v ∧ sizeAt d' ≤ sizeAt d) ∧
    (∀ d v : Float32, d.isFinite = false ∨ v.isFinite = false ∨ fillDistance ≤ d →
      fillAlpha d v = 0) ∧
    ∀ d : Float32, (sizeAt d).isFinite = true ∧ 0 < sizeAt d ∧ 15 * 2.35 ≤ sizeAt d := by
  refine ⟨fun d d' v v' hd hd' hv hv' h h' => ?_, fun d v => fillAlpha_eq_zero,
    fun d => ⟨(index_sizeAt d).1, sizeAt_pos d, le_sizeAt d⟩⟩
  have hvv : v ≤ v := (le_iff_value (isNaN_of_isFinite hv) (isNaN_of_isFinite hv)).mpr le_rfl
  have hdd : d ≤ d := (le_iff_value (isNaN_of_isFinite hd) (isNaN_of_isFinite hd)).mpr le_rfl
  exact ⟨fillAlpha_le_fillAlpha hd hd' hv hv h hvv, fillAlpha_le_fillAlpha hd hd hv hv' hdd h',
    sizeAt_antitone hd hd' h⟩

/-- A lead that comes nearer at 2 m/s, 10 m away and 30 m away, and one that falls back at 1 m/s; at
40 m both are empty. -/
theorem shading_law_approaching :
    (fillAlpha 30 (-2) ≤ fillAlpha 10 (-2) ∧ fillAlpha 10 1 ≤ fillAlpha 10 (-2) ∧
      sizeAt 30 ≤ sizeAt 10) ∧ fillAlpha 40 (-2) = 0 :=
  ⟨shading_law.1 10 30 (-2) 1 (by decide) (by decide) (by decide) (by decide) (by decide) (by decide),
    shading_law.2.1 40 (-2) (.inr (.inr (by decide)))⟩

end DriveOverlay.LeadMarker
