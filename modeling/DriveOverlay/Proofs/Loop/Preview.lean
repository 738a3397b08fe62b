import DriveOverlay.Proofs.Alerts.Run
import DriveOverlay.Proofs.Loop.Ticks
import DriveOverlay.Proofs.Overlay.Ghosting

/-! # Preview and ignored fields

Two runs of the loop are compared whose snapshots agree in all that is ever looked at
(`Snapshot.visible`): they may have different numbers, one may be in preview where the other is not,
and where the control stream is stale the raw alert may be anything.

* `next_visible`, `derive_visible`, `render_visible`: machine, deriver and renderer take the visible
  part of a snapshot for the snapshot;
* `Shot.Matches`: two ticks look the same, and each announces what both activate unless it is in
  preview;
* `matches_shot`: ticks of loops with the same parts match, on canvases of one size;
* `preview_law`: so do whole runs, and more preview only takes announcements away. -/

namespace DriveOverlay

/-! ### The visible part of a snapshot -/

/-- The snapshot without its number and its preview mode, and without a raw alert that is stale. -/
def Snapshot.visible (s : Snapshot) : Snapshot :=
  { s with
    frame := 0
    display := { s.display with preview := false }
    alert := if s.controls.updated then s.alert else .empty }

theorem Snapshot.incomingAlert?_visible (s : Snapshot) (frequency : UInt32) :
    s.visible.incomingAlert? frequency = s.incomingAlert? frequency := by
  have hc : s.visible.controls = s.controls := rfl
  have ha : s.visible.alert = if s.controls.updated then s.alert else .empty := rfl
  unfold incomingAlert?
  cases hu : s.controls.updated with
  | true => simp only [hc, ha, hu, if_true]
  | false => simp only [hc, hu, Bool.false_eq_true, if_false]

theorem AlertMachine.next_visible (m : AlertMachine) (s : Snapshot) :
    m.next s.visible = m.next s := by
  unfold next Snapshot.nextAlert
  rw [s.incomingAlert?_visible]
  rfl

theorem HudDeriver.derive_visible (d : HudDeriver) (s : Snapshot) (onScreen : Alert) :
    d.derive s.visible onScreen = d.derive s onScreen :=
  rfl

namespace Overlay

variable {σ : Type} [Surface σ] (r : OverlayRenderer) (video : Option VideoFrame) (s : Snapshot)
  (v : HudValues) (u : AlertUpdate)

theorem element_visible (e : OverlayElement) :
    (element r ⟨video, s.visible, v, u⟩ e : Painter σ Unit) = element r ⟨video, s, v, u⟩ e := by
  cases e <;> rfl

theorem render_visible (surface : σ) :
    render r ⟨video, s.visible, v, u⟩ surface = render r ⟨video, s, v, u⟩ surface := by
  have hi : OverlayElement.isIn ⟨video, s.visible, v, u⟩ =
      OverlayElement.isIn ⟨video, s, v, u⟩ := by
    funext e
    cases e <;> rfl
  exact render_of_elements hi (element_visible r video s v u) rfl surface

end Overlay

namespace Pipeline

namespace Parts

variable (parts : Parts) (s : Snapshot)

theorem next_visible : parts.next s.visible = parts.next s := by
  simp only [next, AlertMachine.update, AlertMachine.next_visible, HudDeriver.derive_visible]

theorem update_visible : (parts.observe s.visible).update = (parts.observe s).update :=
  parts.alerts.next_visible s

theorem values_visible : (parts.observe s.visible).values = (parts.observe s).values := by
  simp only [observe, AlertMachine.update, AlertMachine.next_visible, HudDeriver.derive_visible]

/-- The paint of a tick. -/
def paint (video : Option VideoFrame) (c : Canvas) : RenderReport × Canvas :=
  Overlay.render parts.renderer (frame (parts.observe s) video s) c

theorem paint_visible (video : Option VideoFrame) (c : Canvas) :
    parts.paint s.visible video c = parts.paint s video c := by
  unfold paint frame
  rw [Overlay.render_visible, update_visible, values_visible]

end Parts

/-! ### Films -/

/-- What a tick is given. -/
structure Moment where
  video : Option VideoFrame
  snapshot : Snapshot
  started : Instant
  finished : Instant

namespace Moment

/-- The snapshot is in preview. -/
def inPreview (m : Moment) : Bool :=
  m.snapshot.display.preview

/-- The camera images are the same, and the snapshots as far as they are looked at. -/
structure Alike (m m' : Moment) : Prop where
  video : m.video = m'.video
  snapshot : m.snapshot.visible = m'.snapshot.visible

end Moment

/-- A tick: what it was given, what came of it, and the canvas after it. -/
structure Shot where
  moment : Moment
  outcome : FrameOutcome
  picture : Canvas

/-- The tick of a moment. -/
def shot (p : Pipeline) (c : Canvas) (m : Moment) : Shot × Pipeline :=
  let (outcome, p, c) := p.tick c m.video m.snapshot m.started m.finished
  (⟨m, outcome, c⟩, p)

/-- Tick after tick on one canvas. -/
def film (p : Pipeline) (c : Canvas) : List Moment → List Shot
  | [] => []
  | m :: moments =>
    let (shot, p) := p.shot c m
    shot :: film p shot.picture moments

/-- The alerts that whoever listens is told of. -/
def announcements (shots : List Shot) : List Alert :=
  shots.filterMap fun shot => shot.outcome.observation.announced

/-- Two ticks show, report and paint the same.  They activate the same alert, if any, and each
announces it unless it is in preview. -/
structure Shot.Matches (a b : Shot) : Prop where
  update : a.outcome.observation.update = b.outcome.observation.update
  values : a.outcome.observation.values = b.outcome.observation.values
  report : a.outcome.report = b.outcome.report
  picture : a.picture = b.picture
  announced : ∃ activated : Option Alert,
    a.outcome.observation.announced = (if a.moment.inPreview then none else activated) ∧
    b.outcome.observation.announced = if b.moment.inPreview then none else activated

/-! ### One tick -/

/-- The alert that an update activates. -/
def activated (u : AlertUpdate) : Option Alert :=
  if u.changed && !u.alert.isEmpty then some u.alert else none

theorem announced_shot (p : Pipeline) (c : Canvas) (m : Moment) :
    (p.shot c m).1.outcome.observation.announced =
      if m.inPreview then none else activated (p.alerts.next m.snapshot) := by
  have ha : (p.shot c m).1.outcome.observation.announced =
      if AlertMachine.announces m.snapshot (p.alerts.next m.snapshot) then
        some (p.alerts.next m.snapshot).alert
      else none := rfl
  rw [ha]
  unfold AlertMachine.announces activated Moment.inPreview
  cases m.snapshot.display.preview with
  | true => rw [Bool.not_true, Bool.and_false, if_pos rfl]; rfl
  | false => rw [Bool.not_false, Bool.and_true]; rfl

variable {p p' : Pipeline} {c c' : Canvas} {m m' : Moment}

/-- Ticks of loops with the same parts match, on canvases of one size, and leave loops with the same
parts. -/
theorem matches_shot (hp : p.parts = p'.parts) (hw : c.width = c'.width)
    (hh : c.height = c'.height) (h : m.Alike m') :
    (p.shot c m).1.Matches (p'.shot c' m').1 ∧
      (p.shot c m).2.parts = (p'.shot c' m').2.parts := by
  obtain ⟨hv, hs⟩ := h
  have hupdate : (p.parts.observe m.snapshot).update = (p'.parts.observe m'.snapshot).update := by
    rw [← Parts.update_visible, ← p'.parts.update_visible, hp, hs]
  have hvalues : (p.parts.observe m.snapshot).values = (p'.parts.observe m'.snapshot).values := by
    rw [← Parts.values_visible, ← p'.parts.values_visible, hp, hs]
  have hnext : p.parts.next m.snapshot = p'.parts.next m'.snapshot := by
    rw [← Parts.next_visible, ← p'.parts.next_visible, hp, hs]
  have hpaint : p.parts.paint m.snapshot m.video c = p'.parts.paint m'.snapshot m'.video c' := by
    rw [← Parts.paint_visible, ← p'.parts.paint_visible, hp, hs, hv]
    exact Overlay.render_congr _ _ hw hh
  have hrender := (render_tick p c m.video m.snapshot m.started m.finished).trans <|
    hpaint.trans (render_tick p' c' m'.video m'.snapshot m'.started m'.finished).symm
  have hb := announced_shot p' c' m'
  rw [show p'.alerts.next m'.snapshot = p.alerts.next m.snapshot from hupdate.symm] at hb
  exact ⟨⟨hupdate, hvalues, congrArg Prod.fst hrender, congrArg Prod.snd hrender, _,
      announced_shot p c m, hb⟩,
    (parts_tick p c m.video m.snapshot m.started m.finished).trans <|
      hnext.trans (parts_tick p' c' m'.video m'.snapshot m'.started m'.finished).symm⟩

theorem Shot.Matches.announced_eq {a b : Shot} (h : a.Matches b)
    (hpreview : a.moment.inPreview = true → b.moment.inPreview = true) :
    b.outcome.observation.announced =
      if b.moment.inPreview && !a.moment.inPreview then none
      else a.outcome.observation.announced := by
  obtain ⟨activated, ha, hb⟩ := h.announced
  rw [ha, hb]
  cases hpa : a.moment.inPreview with
  | true => simp [hpreview hpa]
  | false => simp

/-! ### Two films -/

theorem forall₂_film {R : Moment → Moment → Prop} (hR : ∀ {m m'}, R m m' → m.Alike m')
    {moments moments' : List Moment} (h : List.Forall₂ R moments moments')
    (hp : p.parts = p'.parts) (hw : c.width = c'.width) (hh : c.height = c'.height) :
    List.Forall₂ (fun a b => a.Matches b ∧ R a.moment b.moment) (film p c moments)
      (film p' c' moments') := by
  induction h generalizing p p' c c' with
  | nil => exact .nil
  | cons hm _ ih =>
      obtain ⟨hshot, hparts⟩ := matches_shot hp hw hh (hR hm)
      exact .cons ⟨hshot, hm⟩ (ih hparts (congrArg Canvas.width hshot.picture)
        (congrArg Canvas.height hshot.picture))

/-- Where ticks announce what others announce, or nothing, the announcements are some of theirs. -/
theorem sublist_announcements {shots shots' : List Shot} {left : Shot → Shot → Bool}
    (h : List.Forall₂ (fun a b => b.outcome.observation.announced =
      if left a b then none else a.outcome.observation.announced) shots shots') :
    (announcements shots').Sublist (announcements shots) := by
  induction h with
  | nil => exact .slnil
  | @cons a b shots shots' hab _ ih =>
      unfold announcements at ih ⊢
      rw [List.filterMap_cons, List.filterMap_cons, hab]
      cases left a b with
      | true =>
          cases a.outcome.observation.announced with
          | none => exact ih
          | some alert => exact ih.cons alert
      | false =>
          cases a.outcome.observation.announced with
          | none => exact ih
          | some alert => exact ih.cons_cons alert

theorem announcements_film_singleton (p : Pipeline) (c : Canvas) (m : Moment) :
    announcements (film p c [m]) = (p.shot c m).1.outcome.observation.announced.toList := by
  change List.filterMap _ [(p.shot c m).1] = _
  rw [List.filterMap_cons, List.filterMap_nil]
  cases (p.shot c m).1.outcome.observation.announced <;> rfl

/-- **The preview law.**  Two new loops of one configuration are run on canvases of one size, with
the same camera images, and with snapshots that agree but for their numbers, their preview modes and
the raw alerts of stale streams.  Then every tick shows the same alert and the same values, reports
the same and paints the same picture.  If the second run is in preview wherever the first is, it
announces what the first announces, tick by tick, but for the ticks in which only the second is in
preview, and nothing else. -/
theorem preview_law (settings : Settings) {c c' : Canvas} (hw : c.width = c'.width)
    (hh : c.height = c'.height) (moments moments' : List Moment) :
    let first := film (.ofSettings settings) c moments
    let second := film (.ofSettings settings) c' moments'
    (List.Forall₂ Moment.Alike moments moments' → List.Forall₂ Shot.Matches first second) ∧
    (List.Forall₂ (fun m m' => m.Alike m' ∧ (m.inPreview = true → m'.inPreview = true))
        moments moments' →
      List.Forall₂ (fun a b => b.outcome.observation.announced =
        if b.moment.inPreview && !a.moment.inPreview then none
        else a.outcome.observation.announced) first second ∧
      (announcements second).Sublist (announcements first)) := by
  intro first second
  refine ⟨fun h => ?_, fun h => ?_⟩
  · exact (forall₂_film id h rfl hw hh).imp fun _ _ hm => hm.1
  · have hfilm : List.Forall₂ _ first second := forall₂_film And.left h rfl hw hh
    have hticks := hfilm.imp fun _ _ hm => hm.1.announced_eq hm.2.2
    exact ⟨hticks, sublist_announcements hticks⟩

/-- An alert that comes in while the display is in preview, or is not. -/
def braking (preview : Bool) : Moment where
  video := none
  snapshot :=
    { frame := if preview then 7 else 0
      controls := { updated := true }
      alert := { title := "Brake", size := .full }
      display := { preview } }
  started := ⟨0⟩
  finished := ⟨0⟩

/-- It looks the same, on whatever was on the canvas, but is announced only once. -/
theorem preview_law_braking :
    let c := Canvas.filled 3 2 (Palette.white 255)
    let c' := Canvas.filled 3 2 (Palette.black 0)
    let first := film (.ofSettings {}) c [braking false]
    let second := film (.ofSettings {}) c' [braking true]
    c.width = c'.width ∧ c.height = c'.height ∧
      List.Forall₂ (fun m m' => m.Alike m' ∧ (m.inPreview = true → m'.inPreview = true))
        [braking false] [braking true] ∧
      List.Forall₂ Shot.Matches first second ∧
      (announcements second).Sublist (announcements first) ∧
      announcements first = [{ title := "Brake", size := .full }] ∧ announcements second = [] := by
  intro c c' first second
  have hw : c.width = c'.width := (Canvas.width_filled ..).trans (Canvas.width_filled ..).symm
  have hh : c.height = c'.height := (Canvas.height_filled ..).trans (Canvas.height_filled ..).symm
  have halike : (braking false).Alike (braking true) := ⟨rfl, rfl⟩
  have hpreview := List.Forall₂.cons (R := fun m m' : Moment =>
    m.Alike m' ∧ (m.inPreview = true → m'.inPreview = true)) ⟨halike, fun _ => rfl⟩ .nil
  have hlaw := preview_law {} hw hh [braking false] [braking true]
  refine ⟨hw, hh, hpreview, hlaw.1 (.cons halike .nil), (hlaw.2 hpreview).2, ?_, ?_⟩
  · exact (announcements_film_singleton ..).trans (congrArg _ (announced_shot ..))
  · exact (announcements_film_singleton ..).trans (congrArg _ (announced_shot ..))

end Pipeline

end DriveOverlay
