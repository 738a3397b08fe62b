import DriveOverlay.Proofs.Overlay.Commands

/-! # Isolated failures

A surface may refuse whatever it likes and change its mind at any command.  Nothing is assumed of it
here: a frame is still attempted to its end, element after element, and only the report tells what
was refused.

* `countingRefusals_eq`: painters that are counted are all attempted, each from where the one before
  stopped;
* `elements_eq_below`: the elements below the banner, one by one;
* `lanes_apply`, `leads_apply`: within these two layers each line and each marker is attempted;
* `isolation_law`: what a frame comes to on any surface. -/

namespace DriveOverlay

namespace Painter

variable {σ : Type}

/-- The surface after painters were attempted in turn, whatever became of each. -/
def attempt (ps : List (Painter σ Unit)) (s : σ) : σ :=
  ps.foldl (fun s p => (p s).2) s

/-- What became of painters that were attempted in turn. -/
def outcomes : List (Painter σ Unit) → σ → List (Except DrawError Unit)
  | [], _ => []
  | p :: ps, s => (p s).1 :: outcomes ps (p s).2

theorem attempt_cons (p : Painter σ Unit) (ps : List (Painter σ Unit)) (s : σ) :
    attempt (p :: ps) s = attempt ps (p s).2 :=
  rfl

end Painter

namespace Overlay

open Painter

variable {σ : Type}

/-! ### Painters in turn -/

/-- Counting refusals attempts every painter. -/
theorem countingRefusals_eq (ps : List (Painter σ Unit)) (s : σ) :
    countingRefusals ps s = ((outcomes ps s).countP (!·.isOk), attempt ps s) := by
  induction ps generalizing s with
  | nil => rfl
  | cons p ps ih =>
      rw [countingRefusals, outcomes, attempt_cons]
      obtain ⟨_ | _, s'⟩ := p s
      · rw [List.countP_cons_of_pos rfl]
        simp only [ih s']
      · rw [List.countP_cons_of_neg Bool.false_ne_true]
        simp only [ih s']

theorem each_apply (ps : List (Painter σ Unit)) (s : σ) :
    each ps s = (.ok (), attempt ps s) := by
  induction ps generalizing s with
  | nil => rfl
  | cons p ps ih => exact (bind_apply p.ignoringRefusal (fun _ => each ps) s).trans (ih (p s).2)

/-! ### Lines and leads -/

variable [Surface σ]

/-- The commands for the lane lines and the road edges: one for each that has an area on the
surface, unless planning is laneless. -/
def markingCommands (s : Snapshot) (v : HudValues) (t : CarTransform) : List Command :=
  if s.display.laneless then [] else (roadMarkings s v).filterMap fun (polygon, color) =>
    (mapped? t polygon).map fun polygon => .fillPolygon polygon (.solid color)

theorem attempt_fillMapped (t : CarTransform) (markings : List (Polygon × Color)) (s : σ) :
    attempt (markings.map fun (polygon, color) => fillMapped t polygon (.solid color)) s =
      attempt ((markings.filterMap fun (polygon, color) => (mapped? t polygon).map
        fun polygon => Command.fillPolygon polygon (.solid color)).map draw) s := by
  induction markings generalizing s with
  | nil => rfl
  | cons m markings ih =>
      obtain ⟨polygon, color⟩ := m
      cases hm : mapped? t polygon with
      | none =>
          rw [List.filterMap_cons_none (by simp only [hm, Option.map_none]), ← ih, List.map_cons,
            attempt_cons]
          simp only [fillMapped, hm]
          rfl
      | some mapped =>
          rw [List.filterMap_cons_some (by simp only [hm, Option.map_some]; rfl), List.map_cons,
            List.map_cons, attempt_cons, attempt_cons, ih]
          simp only [fillMapped, hm]

/-- The road is never refused; each line that can be drawn is attempted, also after another was
refused. -/
theorem lanes_apply (s : Snapshot) (v : HudValues) (t : CarTransform) (surface : σ) :
    lanes s v t surface = (.ok (), attempt ((markingCommands s v t).map draw) surface) := by
  unfold lanes markingCommands
  split
  · rfl
  · rw [each_apply, attempt_fillMapped]

/-- The leads are never refused; each marker is attempted, also after another was refused. -/
theorem leads_apply (v : HudValues) (t : CarTransform) (surface : σ) :
    leads v t surface = (.ok (), attempt (v.leads.reverse.map (lead t)) surface) :=
  each_apply _ surface

theorem map_fst_roadMarkings (s : Snapshot) (onScreen : AlertSize) (held : HeldFlags) :
    (roadMarkings s (s.hudValues onScreen held)).map Prod.fst = s.laneLines ++ s.roadEdges := by
  have hl : s.laneLines.length ≤ s.laneColors.length := by
    rw [Snapshot.laneColors, List.length_mapIdx]
  have he : s.roadEdges.length ≤ s.edgeColors.length := by
    rw [Snapshot.edgeColors, List.length_mapIdx]
  rw [roadMarkings, List.map_append]
  exact congrArg₂ _ (List.map_fst_zip hl) (List.map_fst_zip he)

/-! ### Whole frames -/

/-- The painters of a frame above the camera image and below the banner. -/
def aboveVideo (r : OverlayRenderer) (f : OverlayFrame) : List (Painter σ Unit) :=
  [lanes f.snapshot f.values r.transform, path f.snapshot f.values r.transform,
    leads f.values r.transform, header r.layout, speed r.layout f.values,
    icons r.layout f.snapshot f.values, sidePanels r.layout f.values,
    debugText r.layout f.snapshot f.values] ++
  (f.values.tires.toList.map fun tires =>
    tirePanel r.layout tires f.snapshot.display.settings.pressureUnit) ++
  [buttons r.layout f.snapshot, standstill r.layout f.snapshot f.values]

/-- The painters of a frame below the banner. -/
def below (r : OverlayRenderer) (f : OverlayFrame) : List (Painter σ Unit) :=
  border f.update.tint :: (f.video.toList.map (video r.transform) ++ aboveVideo r f)

/-- Every element has its place, and is there once. -/
theorem elements_eq_below (r : OverlayRenderer) (f : OverlayFrame) :
    (elements r f : List (Painter σ Unit)) = below r f := by
  obtain ⟨frame?, snapshot, values, update⟩ := f
  cases frame? <;> cases ht : values.tires <;>
    simp [elements, below, aboveVideo, element, OverlayElement.all, OverlayElement.isIn,
      List.filter_cons, ht]

theorem render_eq (r : OverlayRenderer) (f : OverlayFrame) (s : σ) :
    let top := banner r.layout f.update.alert f.update.tint (attempt (below r f) s)
    render r f s =
      (⟨(outcomes (below r f) s).countP (!·.isOk) + (if top.1.isOk then 0 else 1),
        top.1.toOption.getD 0⟩, top.2) := by
  rw [render, elements_eq_below, countingRefusals_eq]
  dsimp only
  generalize banner r.layout f.update.alert f.update.tint (attempt (below r f) s) = top
  obtain ⟨_ | area, s'⟩ := top
  · rfl
  · rfl

/-- Whatever a surface refuses, each element of a frame is attempted once, in the fixed order, and
the banner last; the report has the number of those that were refused something.  Within the road
each line that can be drawn is attempted, lane lines before edges, and of the leads each marker, the
last one first; neither layer ever counts as refused. -/
theorem isolation_law (r : OverlayRenderer) (f : OverlayFrame) :
    (∀ s : σ,
      let top := banner r.layout f.update.alert f.update.tint (attempt (below r f) s)
      render r f s =
        (⟨(outcomes (below r f) s).countP (!·.isOk) + (if top.1.isOk then 0 else 1),
          top.1.toOption.getD 0⟩, top.2)) ∧
    (∀ s : σ, lanes f.snapshot f.values r.transform s =
      (.ok (), attempt ((markingCommands f.snapshot f.values r.transform).map draw) s)) ∧
    (∀ s : σ, leads f.values r.transform s =
      (.ok (), attempt (f.values.leads.reverse.map (lead r.transform)) s)) ∧
    ∀ onScreen held, (roadMarkings f.snapshot (f.snapshot.hudValues onScreen held)).map Prod.fst =
      f.snapshot.laneLines ++ f.snapshot.roadEdges :=
  ⟨render_eq r f, lanes_apply _ _ _, leads_apply _ _, map_fst_roadMarkings f.snapshot⟩

end Overlay

end DriveOverlay
