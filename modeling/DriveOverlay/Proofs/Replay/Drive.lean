import DriveOverlay.Proofs.Single.Order
import DriveOverlay.Proofs.Surface.Gradients
import DriveOverlay.Replay.Synthetic

/-! # The shape of the synthetic drive

A scene follows from one number, the share of the drive that has passed.  The share is a rounded
quotient of rounded numbers, but it is held between 0 and 1 and never decreases, however long the
drive is.  From there on every part of a scene is a chain of rounded operations that keeps the order
of shares or turns it around.

The vehicle stands when the rounded speed is zero, and the clock of the standstill starts at the
share 0.8, which is no single.  The two fit together because at the single next to 0.8 the speed is
rounded to zero, and later it is no larger.

* `isShare_progress`, `progress_mono`: the share of a frame;
* `speedAt_antitone`, `elapsedAt_mono`, `gapAt_antitone`: the parts of a scene, in the order of the
  shares;
* `speedAt_of_late`, `speedAt_of_elapsed`: no speed is left where the clock runs;
* `consistent_scene`, `advances_scene`: what one scene is like, and how it follows another one;
* `drive_law`: so it is with all scenes of a drive. -/

namespace DriveOverlay.Synthetic

open Single

variable {frames i j : ℕ} {t t' : Float32}

/-! ### The share of the drive -/

/-- A number from 0 to 1. -/
structure IsShare (t : Float32) : Prop where
  isFinite : t.isFinite = true
  nonneg : 0 ≤ value t
  le_one : value t ≤ 1

theorem IsShare.isNaN (ht : IsShare t) : t.isNaN = false :=
  isNaN_of_isFinite ht.isFinite

theorem IsShare.within (ht : IsShare t) : Within 0 t := by
  refine within_iff_abs_value_le.mpr ⟨ht.isFinite, ?_⟩
  rw [abs_of_nonneg ht.nonneg, zpow_zero]
  exact ht.le_one

theorem progress_spec (hi : i < frames) (hf : frames < 2 ^ 64) :
    (progress frames i).isNaN = false ∧
      index (progress frames i) = nearest (value (ofNat i) / value (ofNat frames)) := by
  have h0 := index_ne_zero (value_ofNat_pos (by omega : 0 < frames) hf).ne'
  have hn := (within_ofNat frames).isFinite
  rw [progress, max_eq_left (by omega)]
  exact ⟨isNaN_div (isNaN_ofNat i) hn h0, index_div (within_ofNat i).isFinite hn h0⟩

theorem isShare_progress (hi : i < frames) (hf : frames < 2 ^ 64) : IsShare (progress frames i) := by
  obtain ⟨hn, hv⟩ := progress_spec hi hf
  have hpos := value_ofNat_pos (by omega : 0 < frames) hf
  have hlo : ((0 : ℤ) : ℚ) ≤ value (ofNat i) / value (ofNat frames) := by
    rw [Int.cast_zero]
    exact div_nonneg (value_ofNat_nonneg (hi.trans hf)) hpos.le
  have hhi : value (ofNat i) / value (ofNat frames) ≤ (1 : ℤ) := by
    rw [Int.cast_one]
    exact (div_le_one hpos).mpr (value_ofNat_mono hi.le hf)
  obtain ⟨hfinite, h0, h1⟩ := rounded_between hn hv hlo hhi (by norm_num) (by norm_num)
  rw [Int.cast_zero] at h0
  rw [Int.cast_one] at h1
  exact ⟨hfinite, h0, h1⟩

/-- The share never decreases. -/
theorem progress_mono (hij : i ≤ j) (hj : j < frames) (hf : frames < 2 ^ 64) :
    value (progress frames i) ≤ value (progress frames j) :=
  rounded_mono (progress_spec (hij.trans_lt hj) hf).2 (progress_spec hj hf).2
    (div_le_div_of_nonneg_right (value_ofNat_mono hij (hj.trans hf))
      (value_ofNat_nonneg hf))

/-! ### What is left of a length -/

section

variable {whole rate : Float32}

theorem within_rest (hw : Within 6 whole) (hr : Within 5 rate) (ht : IsShare t) :
    Within 7 (whole - rate * t) :=
  hw.sub ((hr.mul ht.within (by norm_num) (by norm_num)).mono (by norm_num)) (by norm_num)

theorem rest_antitone (hw : Within 6 whole) (hr : Within 5 rate) (h0 : 0 ≤ value rate)
    (ht : IsShare t) (ht' : IsShare t') (h : value t ≤ value t') :
    value (whole - rate * t') ≤ value (whole - rate * t) := by
  have hpart {s : Float32} (hs : IsShare s) : (rate * s).isFinite = true :=
    (hr.mul hs.within (by norm_num) (by norm_num)).isFinite
  have hparts : value (rate * t) ≤ value (rate * t') :=
    rounded_mono (index_mul hr.isFinite ht.isFinite) (index_mul hr.isFinite ht'.isFinite)
      (mul_le_mul_of_nonneg_left h h0)
  exact grid_strictMono.monotone (index_sub_le_sub hw.isFinite hw.isFinite (hpart ht') (hpart ht)
    le_rfl hparts)

end

/-! ### The speed -/

/-- How many times faster than the drive the speed comes to its end. -/
def slowing : Float32 := 1.25

theorem within_slowing : Within 1 slowing := by decide

/-- The share of the speed that is left, less than nothing at the end. -/
def speedLeft (t : Float32) : Float32 :=
  1 - t * slowing

theorem within_speedLeft (ht : IsShare t) : Within 7 (speedLeft t) := by
  rw [speedLeft, mul_swap]
  exact within_rest (by decide) (within_slowing.mono (by norm_num)) ht

theorem speedLeft_antitone (ht : IsShare t) (ht' : IsShare t') (h : value t ≤ value t') :
    value (speedLeft t') ≤ value (speedLeft t) := by
  rw [speedLeft, speedLeft, mul_swap, mul_swap t]
  exact rest_antitone (by decide) (within_slowing.mono (by norm_num)) (value_nonneg (by decide))
    ht ht' h

/-- The speed at a share of the drive. -/
def speedAt (t : Float32) : Float32 :=
  upper (25 * speedLeft t) 0

theorem isWhole_fullSpeed : IsWhole 25 25 := isWhole_ofNat (n := 25) (by norm_num)

theorem index_speed (ht : IsShare t) :
    (25 * speedLeft t).isFinite = true ∧
      index (25 * speedLeft t) = nearest (25 * value (speedLeft t)) := by
  have hleft := within_speedLeft ht
  have hspeed := (by decide : Within 5 25).mul hleft (by norm_num) (by norm_num)
  refine ⟨hspeed.isFinite, ?_⟩
  rw [index_mul isWhole_fullSpeed.isFinite hleft.isFinite, isWhole_fullSpeed.value_eq]
  rfl

theorem value_speedAt (ht : IsShare t) :
    (speedAt t).isNaN = false ∧ value (speedAt t) = max (value (25 * speedLeft t)) 0 := by
  have h := upper_spec (isNaN_of_isFinite (index_speed ht).1) (b := 0) rfl
  rwa [value_zero] at h

/-- The speed never increases. -/
theorem speedAt_antitone (ht : IsShare t) (ht' : IsShare t') (h : value t ≤ value t') :
    value (speedAt t') ≤ value (speedAt t) := by
  have hleft := speedLeft_antitone ht ht' h
  rw [(value_speedAt ht).2, (value_speedAt ht').2]
  exact max_le_max (rounded_mono (index_speed ht').2 (index_speed ht).2 (by linarith)) le_rfl

theorem speedAt_eq_zero_or (t : Float32) : speedAt t = 0 ∨ 0 < speedAt t := by
  unfold speedAt upper
  split
  · rename_i h
    rw [Bool.or_eq_true, decide_eq_true_eq] at h
    exact .inr (h.resolve_right (by decide))
  · exact .inl rfl

theorem speedAt_eq_zero_of_nonpos (ht : IsShare t) (h : value (speedAt t) ≤ 0) :
    speedAt t = 0 := by
  rcases speedAt_eq_zero_or t with h0 | h0
  · exact h0
  · rw [lt_iff_value rfl (value_speedAt ht).1, value_zero] at h0
    exact absurd h0 h.not_gt

/-! ### The clock of the standstill -/

/-- The share of the drive at which the clock starts. -/
def clockStart : Float32 := 0.8

theorem within_clockStart : Within 0 clockStart := by decide

theorem isShare_clockStart : IsShare clockStart where
  isFinite := within_clockStart.isFinite
  nonneg := value_nonneg (by decide)
  le_one := value_one ▸ grid_strictMono.monotone (by decide)

/-- The speed is rounded to zero just where the clock starts, and from there on none is left. -/
theorem speedAt_of_late (ht : IsShare t) (h : value clockStart ≤ value t) : speedAt t = 0 := by
  have hstart : speedAt clockStart = 0 := by decide +kernel
  have hle := speedAt_antitone isShare_clockStart ht h
  rw [hstart, value_zero] at hle
  exact speedAt_eq_zero_of_nonpos ht hle

/-- The share of the drive since the clock started. -/
def lateness (t : Float32) : Float32 :=
  upper (t - clockStart) 0

/-- The seconds of standstill at a share of a drive of so many frames. -/
def elapsedAt (frames : ℕ) (t : Float32) : Float32 :=
  lateness t * ofNat frames / 20

theorem within_lateness (ht : IsShare t) : Within 1 (lateness t) :=
  (ht.within.sub within_clockStart (by norm_num)).upper (by decide)

theorem value_lateness (ht : IsShare t) : value (lateness t) = max (value (t - clockStart)) 0 := by
  have h := (upper_spec (isNaN_sub ht.isNaN within_clockStart.isFinite) (b := 0) rfl).2
  rwa [value_zero] at h

theorem lateness_nonneg (ht : IsShare t) : 0 ≤ value (lateness t) :=
  (value_lateness ht).symm ▸ le_max_right _ _

theorem lateness_mono (ht : IsShare t) (ht' : IsShare t') (h : value t ≤ value t') :
    value (lateness t) ≤ value (lateness t') := by
  have hstart := within_clockStart.isFinite
  rw [value_lateness ht, value_lateness ht']
  exact max_le_max (grid_strictMono.monotone
    (index_sub_le_sub ht.isFinite ht'.isFinite hstart hstart h le_rfl)) le_rfl

theorem lateness_of_early (ht : IsShare t) (h : value t ≤ value clockStart) :
    value (lateness t) = 0 := by
  have hstart : lateness clockStart = 0 := by decide +kernel
  have hle := lateness_mono ht isShare_clockStart h
  rw [hstart, value_zero] at hle
  exact le_antisymm hle (lateness_nonneg ht)

theorem index_ticks (frames : ℕ) (ht : IsShare t) :
    (lateness t * ofNat frames).isFinite = true ∧
      index (lateness t * ofNat frames) = nearest (value (lateness t) * value (ofNat frames)) := by
  have hl := within_lateness ht
  have hn := within_ofNat frames
  exact ⟨(hl.mul hn (by norm_num) (by norm_num)).isFinite, index_mul hl.isFinite hn.isFinite⟩

theorem index_elapsedAt (frames : ℕ) (ht : IsShare t) :
    (elapsedAt frames t).isFinite = true ∧
      index (elapsedAt frames t) = nearest (value (lateness t * ofNat frames) / 20) := by
  have htwenty : IsWhole 20 20 := isWhole_ofNat (n := 20) (by norm_num)
  obtain ⟨hf, -⟩ := index_ticks frames ht
  exact ⟨(htwenty.within_div hf (k := 4) (by norm_num) (by norm_num) (by norm_num)).isFinite,
    htwenty.index_div hf (by norm_num)⟩

/-- The clock never goes back. -/
theorem elapsedAt_mono (hf : frames < 2 ^ 64) (ht : IsShare t) (ht' : IsShare t')
    (h : value t ≤ value t') : value (elapsedAt frames t) ≤ value (elapsedAt frames t') := by
  have hticks : value (lateness t * ofNat frames) ≤ value (lateness t' * ofNat frames) :=
    rounded_mono (index_ticks frames ht).2 (index_ticks frames ht').2
      (mul_le_mul_of_nonneg_right (lateness_mono ht ht' h) (value_ofNat_nonneg hf))
  exact rounded_mono (index_elapsedAt frames ht).2 (index_elapsedAt frames ht').2 (by linarith)

theorem elapsedAt_nonneg (hf : frames < 2 ^ 64) (ht : IsShare t) :
    0 ≤ value (elapsedAt frames t) := by
  have hticks : 0 ≤ value (lateness t * ofNat frames) :=
    value_nonneg (rounded_nonneg (index_ticks frames ht).2
      (mul_nonneg (lateness_nonneg ht) (value_ofNat_nonneg hf)))
  exact value_nonneg (rounded_nonneg (index_elapsedAt frames ht).2 (by linarith))

theorem elapsedAt_of_early (ht : IsShare t) (h : value t ≤ value clockStart) :
    value (elapsedAt frames t) = 0 := by
  have hticks : value (lateness t * ofNat frames) = 0 := by
    rw [value, (index_ticks frames ht).2, lateness_of_early ht h, zero_mul, nearest_zero, grid_zero]
  rw [value, (index_elapsedAt frames ht).2, hticks, zero_div, nearest_zero, grid_zero]

/-- Where the clock shows a time, no speed is left. -/
theorem speedAt_of_elapsed (ht : IsShare t) (h : 0 < elapsedAt frames t) : speedAt t = 0 := by
  rcases le_total (value clockStart) (value t) with hlate | hearly
  · exact speedAt_of_late ht hlate
  · rw [lt_iff_value rfl (isNaN_of_isFinite (index_elapsedAt frames ht).1), value_zero,
      elapsedAt_of_early ht hearly] at h
    exact absurd h (lt_irrefl 0)

/-! ### The lead -/

/-- The distance of the lead at a share of the drive. -/
def gapAt (t : Float32) : Float32 :=
  35 - 25 * t

theorem isWhole_farthest : IsWhole 35 35 := isWhole_ofNat (n := 35) (by norm_num)

theorem gapAt_between (ht : IsShare t) :
    (gapAt t).isFinite = true ∧ 10 ≤ value (gapAt t) ∧ value (gapAt t) ≤ 35 := by
  obtain ⟨hf, hlo, hhi⟩ := isWhole_fullSpeed.mul_between ht.isFinite ht.nonneg ht.le_one
    (by norm_num)
  have hi := index_sub isWhole_farthest.isFinite hf
  rw [isWhole_farthest.value_eq] at hi
  norm_num at hlo hhi
  have h := rounded_between (n := 10) (m := 35) (isNaN_sub isWhole_farthest.isNaN hf) hi
    (by push_cast; linarith) (by push_cast; linarith) (by norm_num) (by norm_num)
  rwa [Int.cast_ofNat, Int.cast_ofNat] at h

theorem gapAt_mem (ht : IsShare t) : 10 ≤ gapAt t ∧ gapAt t ≤ 35 := by
  obtain ⟨hfinite, hlo, hhi⟩ := gapAt_between ht
  have hn := isNaN_of_isFinite hfinite
  have hten : IsWhole 10 10 := isWhole_ofNat (n := 10) (by norm_num)
  rw [le_iff_value hten.isNaN hn, hten.value_eq, le_iff_value hn isWhole_farthest.isNaN,
    isWhole_farthest.value_eq]
  exact ⟨hlo, hhi⟩

/-- The lead never falls back. -/
theorem gapAt_antitone (ht : IsShare t) (ht' : IsShare t') (h : value t ≤ value t') :
    value (gapAt t') ≤ value (gapAt t) :=
  rest_antitone (by decide) (by decide) (value_nonneg (by decide)) ht ht' h

/-- The only lead at a share of the drive. -/
def leadAt (t : Float32) : Lead where
  distance := gapAt t
  relativeSpeed := -3 * (1 - t)
  lateral := 0.2
  valid := true

theorem isUsable_leadAt (ht : IsShare t) : (leadAt t).isUsable = true := by
  obtain ⟨hf, hlo, -⟩ := gapAt_between ht
  have hrest : Within 1 (1 - t) := (by decide : Within 0 1).sub ht.within (by norm_num)
  have hspeed : (-3 * (1 - t)).isFinite = true :=
    ((by decide : Within 2 (-3)).mul hrest (by norm_num) (by norm_num)).isFinite
  have hdistance : 0 ≤ gapAt t := by
    rw [le_iff_value rfl (isNaN_of_isFinite hf), value_zero]
    linarith
  simp [Lead.isUsable, leadAt, hf, hspeed, hdistance]

/-! ### Scenes -/

/-- What the parts of a scene of the drive say about each other. -/
structure Consistent (s : Snapshot) : Prop where
  speed_nonneg : 0 ≤ s.speed
  status_mem : s.status = .disengaged ∨ s.status = .engaged
  enabled_iff : s.controls.enabled = true ↔ s.status = .engaged
  adaptive_iff : s.cruise.adaptive = true ↔ s.status = .engaged
  standing_iff : s.standstill.active = true ↔ s.speed = 0
  elapsed_nonneg : 0 ≤ s.standstill.elapsed
  standing_of_elapsed : 0 < s.standstill.elapsed → s.standstill.active = true
  lead : ∃ lead, s.leads = [lead] ∧ lead.isUsable = true ∧ 10 ≤ lead.distance ∧ lead.distance ≤ 35
  lines : s.laneProbabilities.length = s.laneLines.length
  edges : s.roadEdgeDeviations.length = s.roadEdges.length

/-- How a scene of the drive follows an earlier one. -/
structure Advances (s s' : Snapshot) : Prop where
  speed_le : s'.speed ≤ s.speed
  engaged : s.status = .engaged → s'.status = .engaged
  standing : s.standstill.active = true → s'.standstill.active = true
  elapsed_le : s.standstill.elapsed ≤ s'.standstill.elapsed
  lead_le : ∀ lead ∈ s.leads, ∀ lead' ∈ s'.leads, lead'.distance ≤ lead.distance

theorem status_scene (frames : ℕ) (t : Float32) :
    (scene frames t).status = if t < engageAt then .disengaged else .engaged :=
  rfl

theorem engaged_iff (ht : IsShare t) :
    (scene frames t).status = .engaged ↔ value engageAt ≤ value t := by
  rw [status_scene, ← not_lt, ← lt_iff_value ht.isNaN (by decide)]
  split
  · simpa
  · simpa

theorem engageAt_le_iff (ht : IsShare t) :
    decide (engageAt ≤ t) = true ↔ (scene frames t).status = .engaged := by
  rw [decide_eq_true_eq, engaged_iff ht, le_iff_value (by decide) ht.isNaN]

theorem standing_iff (frames : ℕ) (t : Float32) :
    (scene frames t).standstill.active = true ↔ speedAt t = 0 := by
  change (speedAt t == 0) = true ↔ _
  constructor
  · intro h
    have hi := (beq_iff.mp h).2.2
    refine (speedAt_eq_zero_or t).resolve_right fun hpos => ?_
    exact absurd hi (lt_iff.mp hpos).2.2.ne'
  · intro h
    rw [h]
    decide

/-- The parts of a scene fit together. -/
theorem consistent_scene (hf : frames < 2 ^ 64) (ht : IsShare t) : Consistent (scene frames t) where
  speed_nonneg := by
    change 0 ≤ speedAt t
    rw [le_iff_value rfl (value_speedAt ht).1, value_zero, (value_speedAt ht).2]
    exact le_max_right _ _
  status_mem := by
    rw [status_scene]
    split
    · exact .inl rfl
    · exact .inr rfl
  enabled_iff := engageAt_le_iff ht
  adaptive_iff := engageAt_le_iff ht
  standing_iff := standing_iff frames t
  elapsed_nonneg := by
    change 0 ≤ elapsedAt frames t
    rw [le_iff_value rfl (isNaN_of_isFinite (index_elapsedAt frames ht).1), value_zero]
    exact elapsedAt_nonneg hf ht
  standing_of_elapsed h := (standing_iff frames t).mpr (speedAt_of_elapsed ht h)
  lead := ⟨leadAt t, rfl, isUsable_leadAt ht, gapAt_mem ht⟩
  lines := rfl
  edges := rfl

/-- A scene at a later share follows the earlier one. -/
theorem advances_scene (hf : frames < 2 ^ 64) (ht : IsShare t) (ht' : IsShare t')
    (h : value t ≤ value t') : Advances (scene frames t) (scene frames t') where
  speed_le := by
    change speedAt t' ≤ speedAt t
    rw [le_iff_value (value_speedAt ht').1 (value_speedAt ht).1]
    exact speedAt_antitone ht ht' h
  engaged hs := (engaged_iff ht').mpr (((engaged_iff ht).mp hs).trans h)
  standing hs := by
    rw [standing_iff] at hs ⊢
    have hle := speedAt_antitone ht ht' h
    rw [hs, value_zero] at hle
    exact speedAt_eq_zero_of_nonpos ht' hle
  elapsed_le := by
    change elapsedAt frames t ≤ elapsedAt frames t'
    rw [le_iff_value (isNaN_of_isFinite (index_elapsedAt frames ht).1)
      (isNaN_of_isFinite (index_elapsedAt frames ht').1)]
    exact elapsedAt_mono hf ht ht' h
  lead_le := by
    intro lead hl lead' hl'
    obtain rfl : lead = leadAt t := List.mem_singleton.mp hl
    obtain rfl : lead' = leadAt t' := List.mem_singleton.mp hl'
    change gapAt t' ≤ gapAt t
    rw [le_iff_value (isNaN_of_isFinite (gapAt_between ht').1)
      (isNaN_of_isFinite (gapAt_between ht).1)]
    exact gapAt_antitone ht ht' h

/-! ### The drive -/

/-- What stays once it holds does not hold up to some place of a list, and holds from there on. -/
theorem exists_split {α : Type} {p : α → Prop} {xs : List α}
    (h : xs.Pairwise fun x y => p x → p y) :
    ∃ before after, xs = before ++ after ∧ (∀ x ∈ before, ¬p x) ∧ ∀ x ∈ after, p x := by
  induction xs with
  | nil => exact ⟨[], [], rfl, nofun, nofun⟩
  | cons x xs ih =>
      obtain ⟨hx, hxs⟩ := List.pairwise_cons.mp h
      by_cases hp : p x
      · exact ⟨[], x :: xs, rfl, nofun, List.forall_mem_cons.mpr ⟨hp, fun y hy => hx y hy hp⟩⟩
      · obtain ⟨before, after, rfl, hbefore, hafter⟩ := ih hxs
        exact ⟨x :: before, after, rfl, List.forall_mem_cons.mpr ⟨hp, hbefore⟩, hafter⟩

theorem consistent_of_mem (hf : frames < 2 ^ 64) {s : Snapshot} (hs : s ∈ drive frames) :
    Consistent s := by
  obtain ⟨i, hi, rfl⟩ := List.mem_map.mp hs
  exact consistent_scene hf (isShare_progress (List.mem_range.mp hi) hf)

theorem pairwise_drive (hf : frames < 2 ^ 64) : (drive frames).Pairwise Advances := by
  refine List.pairwise_map.mpr (List.pairwise_lt_range.imp_of_mem fun hi hj hij => ?_)
  rw [List.mem_range] at hi hj
  exact advances_scene hf (isShare_progress hi hf) (isShare_progress hj hf)
    (progress_mono hij.le hj hf)

/-- For every number of frames of 64 bits: the drive has as many scenes.  In each of them the speed
is not negative, control and adaptive cruise are on exactly while the status is engaged, the vehicle
stands exactly when the speed is zero, the clock of the standstill is not negative and shows a time
only while the vehicle stands, the only lead can be shown and is 10 to 35 m away, and lane lines and
road edges have as many probabilities and deviations.  From scene to scene neither the speed nor the
distance increases, the clock does not go back, and a standstill stays.  The status is disengaged up
to some scene and engaged from there on. -/
theorem drive_law (frames : UInt64) :
    (drive frames.toNat).length = frames.toNat ∧
    (∀ s ∈ drive frames.toNat, Consistent s) ∧
    (drive frames.toNat).Pairwise Advances ∧
    ∃ before after, drive frames.toNat = before ++ after ∧
      (∀ s ∈ before, s.status = .disengaged) ∧ ∀ s ∈ after, s.status = .engaged := by
  have hf := frames.toNat_lt
  have hconsistent := fun s => consistent_of_mem (s := s) hf
  have hpairwise := pairwise_drive hf
  refine ⟨?_, hconsistent, hpairwise, ?_⟩
  · rw [drive, List.length_map, List.length_range]
  · obtain ⟨before, after, hdrive, hbefore, hafter⟩ :=
      exists_split (hpairwise.imp fun h => h.engaged)
    refine ⟨before, after, hdrive, fun s hs => ?_, hafter⟩
    have hmem : s ∈ drive frames.toNat := hdrive ▸ List.mem_append_left after hs
    exact (hconsistent s hmem).status_mem.resolve_right (hbefore s hs)

end DriveOverlay.Synthetic
