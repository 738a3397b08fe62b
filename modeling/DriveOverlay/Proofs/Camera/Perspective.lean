import DriveOverlay.Proofs.Camera.Anchors
import DriveOverlay.Proofs.Single.Order

/-! # Farther leads sit higher

Where a marker stands comes out of a long chain of operations, each of which rounds, and for extreme
cameras some of them overflow.  None turns the order of two leads around: the farther one is seen no
lower.  Straight ahead, the chain gives back the middle of the surface at any distance.

* `leadAnchor?_eq`: the anchor from the point of the image in which the lead is seen;
* `row_mono`, `anchor_y_antitone`: the farther a lead is, the higher its marker;
* `column_of_ahead`: straight ahead, the marker is in the middle;
* `leadAnchor?_congr`: what an anchor depends on;
* `perspective_law`: all of it, for any camera whose numbers are sound. -/

namespace DriveOverlay.CarTransform

open Single

variable {t : CarTransform} {l l' : Lead}

/-! ### The point of the image -/

/-- The distance at which a lead is placed. -/
def placed (distance : Float32) : Float32 :=
  upper distance leastLeadDistance

theorem placed_spec {d : Float32} (hd : d.isFinite = true) :
    (placed d).isFinite = true ∧ value (placed d) = max (value d) (1 / 2) := by
  refine ⟨((within_of_isFinite hd).upper (within_of_isFinite rfl)).isFinite, ?_⟩
  rw [placed, (upper_spec (isNaN_of_isFinite hd) rfl).2, leastLeadDistance, value_half]

theorem index_placed_pos {d : Float32} (hd : d.isFinite = true) : 0 < index (placed d) := by
  have hv : grid 0 < value (placed d) := by
    rw [grid_zero, (placed_spec hd).2]
    exact lt_max_of_lt_right (by norm_num)
  exact grid_strictMono.lt_iff_lt.mp hv

theorem placed_of_near {d : Float32} (hd : d.isFinite = true) (h : d ≤ leastLeadDistance) :
    placed d = leastLeadDistance := by
  have hlt : ¬leastLeadDistance < d := by
    rw [lt_iff_value rfl (isNaN_of_isFinite hd), not_lt]
    exact (le_iff_value (isNaN_of_isFinite hd) rfl).mp h
  unfold placed upper
  exact if_neg (by simpa using ⟨hlt, by decide⟩)

/-- Where a lead is seen in the image, to the side. -/
def sideways (t : CarTransform) (l : Lead) : Float32 :=
  t.focalLength * -l.lateral / placed l.distance + t.principalPoint.x

/-- Where a lead is seen in the image, downwards. -/
def downwards (t : CarTransform) (l : Lead) : Float32 :=
  t.focalLength * cameraHeight / placed l.distance + t.principalPoint.y

/-- The column of the surface that shows a column of the image. -/
def column (t : CarTransform) (x : Float32) : Float32 :=
  (x - t.principalPoint.x) * t.zoom + t.width / 2

/-- The row of the surface that shows a row of the image. -/
def row (t : CarTransform) (y : Float32) : Float32 :=
  (y - t.principalPoint.y) * t.zoom + t.height / 2 + drop

/-- A lead with finite numbers is anchored where it is seen, moved onto the surface. -/
theorem leadAnchor?_eq (hd : l.distance.isFinite = true) (hl : l.lateral.isFinite = true) :
    t.leadAnchor? l = some
      ⟨clamp (t.column (t.sideways l)) 0 t.width, clamp (t.row (t.downwards l)) 0 t.height⟩ := by
  have hp := (placed_spec hd).1
  have hpos := index_placed_pos hd
  have hy : (-l.lateral).isFinite = true := by rwa [isFinite_neg]
  have hz : cameraHeight.isFinite = true := by decide
  have hle : ¬placed l.distance ≤ 0 := by
    intro hle
    exact absurd (le_iff.mp hle).2.2 hpos.not_ge
  have hproject : t.projectAnywhere? (placed l.distance) (-l.lateral) cameraHeight =
      some (t.map ⟨t.sideways l, t.downwards l⟩) := by
    unfold projectAnywhere?
    rw [if_neg (by simp [hp, hy, hz, hle])]
    rfl
  rw [leadAnchor?, if_neg (by simp [hd])]
  change Option.map _ (t.projectAnywhere? (placed l.distance) _ _) = _
  rw [hproject]
  rfl

/-! ### Rows -/

theorem index_pos_of_zero_lt {x : Float32} (h : 0 < x) : 0 < index x :=
  (lt_iff.mp h).2.2

theorem isNaN_row (ht : t.IsRegular) {y : Float32} (hy : y.isNaN = false) :
    (t.row y).isNaN = false :=
  isNaN_add_right (isNaN_axis hy ht.principalPoint.2 ht.zoom ht.height.1) (by decide)

theorem axis_mono {center zoom side x x' : Float32} (hc : center.isFinite = true)
    (hz : zoom.isFinite = true ∧ 0 < zoom) (hs : side.isFinite = true) (hx : x.isNaN = false)
    (hx' : x'.isNaN = false) (h : index x ≤ index x') :
    index ((x - center) * zoom + side / 2) ≤ index ((x' - center) * zoom + side / 2) := by
  have hz0 := index_pos_of_zero_lt hz.2
  have hn := isNaN_sub hx hc
  have hn' := isNaN_sub hx' hc
  have hcentered : index (x - center) ≤ index (x' - center) := index_sub_mono hx hx' hc h
  have hzoomed : index ((x - center) * zoom) ≤ index ((x' - center) * zoom) :=
    index_mul_mono hn hn' hz.1 hz0 hcentered
  exact index_add_mono (isNaN_mul_left hn hz.1 hz0.ne') (isNaN_mul_left hn' hz.1 hz0.ne')
    (isFinite_half hs) hzoomed

/-- The surface keeps the order of the rows. -/
theorem row_mono (ht : t.IsRegular) {y y' : Float32} (hy : y.isNaN = false)
    (hy' : y'.isNaN = false) (h : index y ≤ index y') : index (t.row y) ≤ index (t.row y') := by
  have hc := ht.principalPoint.2
  exact index_add_mono (isNaN_axis hy hc ht.zoom ht.height.1) (isNaN_axis hy' hc ht.zoom ht.height.1)
    (by decide) (axis_mono hc ht.zoom ht.height.1 hy hy' h)

theorem downwards_antitone (ht : t.IsRegular) (hf : 0 < t.focalLength)
    (hd : l.distance.isFinite = true) (hd' : l'.distance.isFinite = true)
    (h : l.distance ≤ l'.distance) :
    (t.downwards l).isNaN = false ∧ (t.downwards l').isNaN = false ∧
      index (t.downwards l') ≤ index (t.downwards l) := by
  obtain ⟨hp, hv⟩ := placed_spec hd
  obtain ⟨hp', hv'⟩ := placed_spec hd'
  have hpos := index_placed_pos hd
  have hpos' := index_placed_pos hd'
  have hz : cameraHeight.isFinite = true := by decide
  have hn : (t.focalLength * cameraHeight).isNaN = false := isNaN_mul ht.focalLength hz
  have h0 : 0 ≤ index (t.focalLength * cameraHeight) := by
    have hf0 : 0 ≤ value t.focalLength := value_nonneg (index_pos_of_zero_lt hf).le
    have hz0 : 0 ≤ value cameraHeight := value_nonneg (by decide)
    exact rounded_nonneg (index_mul ht.focalLength hz) (mul_nonneg hf0 hz0)
  have hle : index (placed l.distance) ≤ index (placed l'.distance) := by
    rw [le_iff_value (isNaN_of_isFinite hd) (isNaN_of_isFinite hd')] at h
    apply grid_strictMono.le_iff_le.mp
    change value _ ≤ value _
    rw [hv, hv']
    exact max_le_max h le_rfl
  have hq := isNaN_div hn hp hpos.ne'
  have hq' := isNaN_div hn hp' hpos'.ne'
  have hpy := ht.principalPoint.2
  exact ⟨isNaN_add_right hq hpy, isNaN_add_right hq' hpy,
    index_add_mono hq' hq hpy (index_div_antitone hn h0 hp hp' hpos hle)⟩

/-- The farther a lead is, the higher its marker. -/
theorem anchor_y_antitone (ht : t.IsRegular) (hf : 0 < t.focalLength)
    (hd : l.distance.isFinite = true) (hd' : l'.distance.isFinite = true)
    (h : l.distance ≤ l'.distance) :
    clamp (t.row (t.downwards l')) 0 t.height ≤ clamp (t.row (t.downwards l)) 0 t.height := by
  obtain ⟨hn, hn', hle⟩ := downwards_antitone ht hf hd hd' h
  have hy := isNaN_row ht hn
  have hy' := isNaN_row ht hn'
  have h0 : value 0 ≤ value t.height := value_zero.trans_le ht.height.2
  have hside := isNaN_of_isFinite ht.height.1
  rw [le_iff_value (clamp_spec hy' rfl hside h0).1 (clamp_spec hy rfl hside h0).1]
  exact clamp_mono hy' hy rfl hside h0 (row_mono ht hn' hn hle)

/-! ### Columns -/

/-- Straight ahead, a lead is seen in the column of the principal point, whatever rounding makes of
it: what is added to it is a zero. -/
theorem column_of_ahead (ht : t.IsRegular) (hd : l.distance.isFinite = true)
    (hl : l.lateral == 0) : t.column (t.sideways l) = 0 * t.zoom + t.width / 2 := by
  obtain ⟨hn, -, hi⟩ := beq_iff.mp hl
  have hlat : (-l.lateral).isFinite = true := by
    rw [isFinite_neg, isFinite_iff, hi]
    exact ⟨hn, by decide⟩
  have hv : value (-l.lateral) = 0 := by
    rw [value_neg, value, hi]
    exact neg_eq_zero.mpr value_zero
  have hproduct : index (t.focalLength * -l.lateral) = 0 := by
    rw [index_mul ht.focalLength hlat, hv, mul_zero, nearest_zero]
  have hf : (t.focalLength * -l.lateral).isFinite = true := by
    rw [isFinite_iff, hproduct]
    exact ⟨isNaN_mul ht.focalLength hlat, by decide⟩
  have hp := (placed_spec hd).1
  have hpos := (index_placed_pos hd).ne'
  have hquotient : index (t.focalLength * -l.lateral / placed l.distance) = 0 := by
    rw [index_div hf hp hpos, value, hproduct, grid_zero, zero_div, nearest_zero]
  have hz : (t.focalLength * -l.lateral / placed l.distance).isFinite = true := by
    rw [isFinite_iff, hquotient]
    exact ⟨isNaN_div (isNaN_of_isFinite hf) hp hpos, by decide⟩
  rw [column, sideways, zero_add_sub hz hquotient ht.principalPoint.1]

/-- A lead is anchored by its distance and its lateral offset, up to the sign of a zero. -/
theorem leadAnchor?_congr (ht : t.IsRegular) (hd : l.distance.isFinite = true)
    (hd' : l'.distance.isFinite = true) (hl : l.lateral.isFinite = true)
    (hp : placed l.distance = placed l'.distance) (h : l.lateral == l'.lateral) :
    t.leadAnchor? l = t.leadAnchor? l' := by
  obtain ⟨hn, hn', hi⟩ := beq_iff.mp h
  have hl' : l'.lateral.isFinite = true := by
    rw [isFinite_iff, ← hi]
    exact ⟨hn', (isFinite_iff.mp hl).2⟩
  have hcolumn : t.column (t.sideways l) = t.column (t.sideways l') := by
    by_cases h0 : index l.lateral = 0
    · rw [column_of_ahead ht hd (beq_iff.mpr ⟨hn, rfl, h0⟩),
        column_of_ahead ht hd' (beq_iff.mpr ⟨hn', rfl, hi.symm.trans h0⟩)]
    · rw [sideways, sideways, eq_of_index_eq hn hn' hi h0, hp]
  rw [leadAnchor?_eq hd hl, leadAnchor?_eq hd' hl', hcolumn, downwards, downwards, hp]

/-! ### The law -/

/-- A camera with a finite principal point and a finite and positive zoom and focal length, and leads
at finite distances and lateral offsets: of two of them the farther one is anchored no lower; those at
no more than the least distance, and as far aside, have one anchor; and those straight ahead are
anchored in one column. -/
theorem perspective_law (camera : CameraSettings) (width height : UInt32)
    (hf : camera.focalLength.isFinite = true ∧ 0 < camera.focalLength)
    (hp : camera.principalPoint.1.isFinite = true ∧ camera.principalPoint.2.isFinite = true)
    (hz : (ofSettings camera width height).zoom.isFinite = true ∧
      0 < (ofSettings camera width height).zoom)
    (l l' : Lead) (hd : l.distance.isFinite = true) (hd' : l'.distance.isFinite = true)
    (hl : l.lateral.isFinite = true) (hl' : l'.lateral.isFinite = true) :
    let t := ofSettings camera width height
    ∃ p p', t.leadAnchor? l = some p ∧ t.leadAnchor? l' = some p' ∧
      (l.distance ≤ l'.distance → p'.y ≤ p.y) ∧
      (l.distance ≤ 0.5 → l'.distance ≤ 0.5 → l.lateral == l'.lateral → p = p') ∧
      (l.lateral == 0 → l'.lateral == 0 → p.x = p'.x) := by
  intro t
  have ht : t.IsRegular := isRegular_ofSettings hf.1 hp hz
  have he := leadAnchor?_eq (t := t) hd hl
  have he' := leadAnchor?_eq (t := t) hd' hl'
  refine ⟨_, _, he, he', anchor_y_antitone ht hf.2 hd hd', ?_, ?_⟩
  · intro hnear hnear' hside
    have hplaced : placed l.distance = placed l'.distance := by
      rw [placed_of_near hd hnear, placed_of_near hd' hnear']
    have hc := leadAnchor?_congr ht hd hd' hl hplaced hside
    rw [he, he'] at hc
    exact Option.some.inj hc
  · intro hahead hahead'
    rw [column_of_ahead ht hd hahead, column_of_ahead ht hd' hahead']

/-- Two leads straight ahead, the sign of whose lateral zero is not the same. -/
theorem perspective_law_inLine :
    let near : Lead := { distance := 10, lateral := 0, valid := true }
    let far : Lead := { distance := 100, lateral := -0, valid := true }
    let t := ofSettings {} 2160 1080
    ∃ p p', t.leadAnchor? near = some p ∧ t.leadAnchor? far = some p' ∧ p'.y ≤ p.y ∧ p.x = p'.x := by
  intro near far t
  obtain ⟨p, p', h, h', hrow, -, hcolumn⟩ := perspective_law {} 2160 1080 (by decide) (by decide)
    (by decide +kernel) near far (by decide) (by decide) (by decide) (by decide)
  exact ⟨p, p', h, h', hrow (by decide), hcolumn (by decide) (by decide)⟩

end DriveOverlay.CarTransform
