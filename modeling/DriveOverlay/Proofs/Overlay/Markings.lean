import DriveOverlay.Proofs.Overlay.Acceptance
import Mathlib.Data.List.FinRange
import Mathlib.Data.List.Indexes

/-! # Each marking in its own color

A lane line has the color of its own probability and a road edge that of its own deviation, whatever
the lengths of the four lists.  Lines and colors are joined place by place, and a polygon that is not
drawn keeps its place, so that the colors of those after it do not move up.

* `length_laneColors`, `getElem?_laneColors`, and the same for the edges: the colors;
* `derive_withoutSurplus`: what has no line or edge does not matter;
* `mapped?_eq`: the polygons that are left out, and only these;
* `marking_law`: the road as fills in turn. -/

namespace DriveOverlay

/-! ### Colors -/

namespace Snapshot

/-- The color of a lane line, by its place. -/
def laneColorAt (s : Snapshot) (i : ℕ) : Color :=
  laneColor (s.laneProbabilities[i]?.getD 0) s.isStock

/-- The color of a road edge, by its place. -/
def edgeColorAt (s : Snapshot) (i : ℕ) : Color :=
  edgeColor (s.roadEdgeDeviations[i]?.getD 1)

theorem length_laneColors (s : Snapshot) : s.laneColors.length = s.laneLines.length :=
  List.length_mapIdx

theorem length_edgeColors (s : Snapshot) : s.edgeColors.length = s.roadEdges.length :=
  List.length_mapIdx

theorem getElem?_laneColors (s : Snapshot) {i : ℕ} (h : i < s.laneLines.length) :
    s.laneColors[i]? = some (s.laneColorAt i) := by
  rw [laneColors, List.getElem?_mapIdx, List.getElem?_eq_getElem h]
  rfl

theorem getElem?_edgeColors (s : Snapshot) {i : ℕ} (h : i < s.roadEdges.length) :
    s.edgeColors[i]? = some (s.edgeColorAt i) := by
  rw [edgeColors, List.getElem?_mapIdx, List.getElem?_eq_getElem h]
  rfl

/-- Without the probabilities and deviations for which there is no line or edge. -/
def withoutSurplus (s : Snapshot) : Snapshot :=
  { s with
    laneProbabilities := s.laneProbabilities.take s.laneLines.length
    roadEdgeDeviations := s.roadEdgeDeviations.take s.roadEdges.length }

theorem laneColors_withoutSurplus (s : Snapshot) : s.withoutSurplus.laneColors = s.laneColors := by
  refine List.mapIdx_eq_mapIdx_iff.mpr fun i hi => ?_
  have hp : s.withoutSurplus.laneProbabilities[i]? = s.laneProbabilities[i]? :=
    List.getElem?_take_of_lt hi
  have hstock : s.withoutSurplus.isStock = s.isStock := rfl
  rw [hp, hstock]

theorem edgeColors_withoutSurplus (s : Snapshot) : s.withoutSurplus.edgeColors = s.edgeColors := by
  refine List.mapIdx_eq_mapIdx_iff.mpr fun i hi => ?_
  have hd : s.withoutSurplus.roadEdgeDeviations[i]? = s.roadEdgeDeviations[i]? :=
    List.getElem?_take_of_lt hi
  rw [hd]

end Snapshot

/-- No displayed value depends on them. -/
theorem HudDeriver.derive_withoutSurplus (d : HudDeriver) (s : Snapshot) (onScreen : Alert) :
    d.derive s.withoutSurplus onScreen = d.derive s onScreen := by
  have hv (held : HeldFlags) :
      s.withoutSurplus.hudValues onScreen.size held = s.hudValues onScreen.size held := by
    unfold Snapshot.hudValues
    rw [s.laneColors_withoutSurplus, s.edgeColors_withoutSurplus]
    rfl
  exact congrArg (Prod.mk _) (hv _)

/-! ### Fills -/

/-- The polygon is not drawn: a vertex is not finite, or on the surface it has no area. -/
def CarTransform.Skips (t : CarTransform) (polygon : Polygon) : Prop :=
  (∃ p ∈ polygon, p.isFinite = false) ∨ Polygon.isDrawable (polygon.map t.map) = false

instance (t : CarTransform) (polygon : Polygon) : Decidable (t.Skips polygon) :=
  inferInstanceAs (Decidable (_ ∨ _))

/-- A canvas on which a polygon of the camera image is filled with one color, if it is drawn. -/
def Canvas.fillMarking (c : Canvas) (t : CarTransform) (polygon : Polygon) (color : Color) : Canvas :=
  if t.Skips polygon then c else c.fillPolygon (polygon.map t.map) (.solid color)

namespace Overlay

open Painter

/-- Only those polygons are left out. -/
theorem mapped?_eq (t : CarTransform) (polygon : Polygon) :
    mapped? t polygon = if t.Skips polygon then none else some (polygon.map t.map) := by
  unfold mapped? CarTransform.mapPolygon?
  by_cases hs : t.Skips polygon
  · rw [if_pos hs]
    split
    · rename_i hfinite
      have hno : ¬∃ p ∈ polygon, p.isFinite = false := by
        simpa using hfinite
      rw [Option.filter_some, (or_iff_right hno).mp hs]
      rfl
    · rfl
  · obtain ⟨hno, hd⟩ := not_or.mp hs
    have hfinite : polygon.all Point.isFinite = true := by
      simpa using hno
    rw [Bool.not_eq_false] at hd
    rw [if_neg hs, if_pos hfinite, Option.filter_some, hd]
    rfl

theorem fillMapped_eq (t : CarTransform) (polygon : Polygon) (color : Color) (c : Canvas) :
    fillMapped t polygon (.solid color) c = (.ok (), c.fillMarking t polygon color) := by
  unfold fillMapped Canvas.fillMarking
  rw [mapped?_eq]
  by_cases h : t.Skips polygon
  · rw [if_pos h, if_pos h]
    rfl
  · rw [if_neg h, if_neg h]
    have hd := (not_or.mp h).2
    rw [Bool.not_eq_false] at hd
    exact Canvas.draw_of_check (check_of_isDrawable hd (.solid color)) c

theorem attempt_fillMarking (t : CarTransform) (markings : List (Polygon × Color)) (c : Canvas) :
    attempt (markings.map fun (polygon, color) => fillMapped t polygon (.solid color)) c =
      markings.foldl (fun c (polygon, color) => c.fillMarking t polygon color) c := by
  rw [attempt, List.foldl_map]
  refine List.foldl_ext _ _ _ fun c m _ => ?_
  obtain ⟨polygon, color⟩ := m
  dsimp only
  rw [fillMapped_eq]

theorem foldl_zip_mapIdx {α β γ : Type} (l : List α) (f : ℕ → β) (g : γ → α × β → γ) (init : γ) :
    (l.zip (l.mapIdx fun i _ => f i)).foldl g init =
      (List.finRange l.length).foldl (fun c i => g c (l[i], f i.val)) init := by
  have hzip : l.zip (l.mapIdx fun i _ => f i) =
      (List.finRange l.length).map fun i => (l[i], f i.val) := by
    refine List.ext_getElem (by simp) fun i hi hi' => ?_
    simp
  rw [hzip, List.foldl_map]

/-- Derived values have one color for each lane line and one for each road edge, that of its own
probability or deviation; where that is missing, of the probability 0 or the deviation 1, and what is
left over does not matter.  So on a canvas the road is the lane lines in turn and then the edges, each
in its own color; only those that are not drawn are left out, and with laneless planning all are. -/
theorem marking_law (d : HudDeriver) (s : Snapshot) (onScreen : Alert) (t : CarTransform)
    (c : Canvas) :
    let v := (d.derive s onScreen).2
    (v.laneColors.length = s.laneLines.length ∧
      ∀ i < s.laneLines.length, v.laneColors[i]? = some (s.laneColorAt i)) ∧
      (v.edgeColors.length = s.roadEdges.length ∧
        ∀ i < s.roadEdges.length, v.edgeColors[i]? = some (s.edgeColorAt i)) ∧
      (d.derive s.withoutSurplus onScreen).2 = v ∧
      lanes s v t c = (.ok (),
        if s.display.laneless then c else
          (List.finRange s.roadEdges.length).foldl
            (fun c i => c.fillMarking t s.roadEdges[i] (s.edgeColorAt i.val))
            ((List.finRange s.laneLines.length).foldl
              (fun c i => c.fillMarking t s.laneLines[i] (s.laneColorAt i.val)) c)) := by
  intro v
  refine ⟨⟨s.length_laneColors, fun i => s.getElem?_laneColors⟩,
    ⟨s.length_edgeColors, fun i => s.getElem?_edgeColors⟩,
    congrArg Prod.snd (d.derive_withoutSurplus s onScreen), ?_⟩
  unfold lanes
  split
  · rfl
  · have hlines : v.laneColors = s.laneLines.mapIdx fun i _ => s.laneColorAt i := rfl
    have hedges : v.edgeColors = s.roadEdges.mapIdx fun i _ => s.edgeColorAt i := rfl
    rw [each_apply, attempt_fillMarking, roadMarkings, List.foldl_append, hlines, hedges,
      foldl_zip_mapIdx, foldl_zip_mapIdx]

end Overlay

end DriveOverlay
