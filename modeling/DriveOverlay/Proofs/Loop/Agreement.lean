import DriveOverlay.Proofs.Alerts.Repaint
import DriveOverlay.Proofs.Loop.Accounting
import DriveOverlay.Proofs.Loop.Ticks
import DriveOverlay.Proofs.Overlay.Banner

/-! # One alert in all parts of a frame

Four parts of a tick decide whether an alert shows, each by something else: the alert by its text
and size, the deriver by the size, the layout by the size and the surface, and the report by the
area that was painted.  They agree because the machine keeps only alerts that have a size or are
empty (`Alert.Presentable`), and because the renderer stays that of the configuration.

* `FrameOutcome.Agrees`: what they agree on;
* `agrees_tick`: a tick of a loop whose machine has such an alert;
* `renderer_run`: the renderer of a run;
* `Coherent.step`: every action keeps the loop such, and the ticks so far agreeing;
* `agreement_law`: so it is with every tick of every run. -/

namespace DriveOverlay

/-- The parts of a frame agree on whether an alert shows. -/
structure FrameOutcome.Agrees (o : FrameOutcome) : Prop where
  text : o.observation.update.alert.isEmpty = false ↔ o.observation.update.alert.size ≠ .none
  cruiseBox : o.observation.values.hidesCruiseBox = true ↔
    o.observation.update.alert.size ≠ .none
  banner : 0 < o.report.bannerArea ↔ o.observation.update.alert.size ≠ .none

/-- Both sides are positive and fit in 31 bits. -/
def SurfaceSettings.IsSound (s : SurfaceSettings) : Prop :=
  (0 < s.width.toNat ∧ s.width.toNat < 2 ^ 31) ∧ 0 < s.height.toNat ∧ s.height.toNat < 2 ^ 31

namespace Overlay

theorem bannerArea_render {settings : Settings} (hs : settings.surface.IsSound) (f : OverlayFrame)
    (c : Canvas) : (render (.ofSettings settings) f c).1.bannerArea =
      (settings.surface.width.toNat *
        f.update.alert.size.bannerRows settings.surface.height.toNat : ℕ) := by
  have hb := fst_banner hs.1 hs.2 f.update.alert f.update.tint
    (Painter.attempt (below (.ofSettings settings) f) c)
  rw [render_eq]
  change ((banner (.ofSize _ _) _ _ _).1.toOption.getD 0) = _
  rw [hb]
  rfl

end Overlay

namespace Pipeline

/-! ### One tick -/

/-- From an alert on screen that can be shown, all parts of a tick agree. -/
theorem agrees_tick {settings : Settings} (hs : settings.surface.IsSound) {p : Pipeline}
    (hshown : p.alerts.shown.Presentable) (hr : p.renderer = .ofSettings settings) (c : Canvas)
    (video : Option VideoFrame) (s : Snapshot) (started finished : Instant) :
    (p.tick c video s started finished).1.Agrees := by
  have hnext := AlertMachine.presentable_next hshown s
  have hreport : (p.tick c video s started finished).1.report = _ :=
    congrArg Prod.fst (render_tick p c video s started finished)
  refine ⟨?_, ?_, ?_⟩
  · rw [← Bool.not_eq_true, not_iff_not]
    exact hnext.isEmpty_iff
  · exact decide_eq_true_iff
  · have hrows := AlertSize.bannerRows_pos_iff hs.2.1 (p.alerts.next s).alert.size
    have hr' : p.parts.renderer = .ofSettings settings := hr
    rw [hreport, hr', Overlay.bannerArea_render hs, Int.natCast_pos,
      Nat.mul_pos_iff_of_pos_left hs.1.1]
    exact hrows

/-! ### Runs -/

theorem renderer_step {σ : Type} [Surface σ] (r : Run) (action : Action σ) :
    (r.step action).pipeline.renderer = r.pipeline.renderer := by
  cases action with
  | tick surface video s started finished =>
      exact congrArg Parts.renderer (parts_tick r.pipeline surface video s started finished)
  | drainEvents => rfl
  | reset => rfl

/-- The renderer of a run stays that of the configuration. -/
theorem renderer_run {σ : Type} [Surface σ] (settings : Settings) (actions : List (Action σ)) :
    (run settings actions).pipeline.renderer = .ofSettings settings := by
  induction actions using List.reverseRecOn with
  | nil => rfl
  | append_singleton actions action ih =>
      rw [run_concat]
      exact (renderer_step _ action).trans ih

/-- What a run keeps: the alert on screen can be shown, the renderer is that of the configuration,
and the ticks so far agree. -/
structure Coherent (settings : Settings) (r : Run) : Prop where
  shown : r.pipeline.alerts.shown.Presentable
  renderer : r.pipeline.renderer = .ofSettings settings
  agrees : ∀ s o, .ticked s o ∈ r.record → o.Agrees

variable {settings : Settings}

theorem Coherent.step (hs : settings.surface.IsSound) {r : Run} (h : Coherent settings r)
    (action : Action Canvas) : Coherent settings (r.step action) := by
  cases action with
  | tick c video s started finished =>
      have hparts := parts_tick r.pipeline c video s started finished
      refine ⟨?_, ?_, fun s' o ho => ?_⟩
      · have ha := congrArg (fun parts => parts.alerts.shown) hparts
        exact ha ▸ AlertMachine.presentable_next h.shown s
      · exact (renderer_step r _).trans h.renderer
      · rcases List.mem_append.mp ho with ho | ho
        · exact h.agrees s' o ho
        · obtain ⟨rfl, rfl⟩ := Entry.ticked.inj (List.mem_singleton.mp ho)
          exact agrees_tick hs h.shown h.renderer c video s' started finished
  | drainEvents =>
      refine ⟨h.shown, h.renderer, fun s o ho => h.agrees s o ?_⟩
      simpa [Run.step] using ho
  | reset =>
      refine ⟨Alert.presentable_empty, h.renderer, fun s o ho => h.agrees s o ?_⟩
      simpa [Run.step] using ho

theorem coherent_run (hs : settings.surface.IsSound) (actions : List (Action Canvas)) :
    Coherent settings (run settings actions) := by
  induction actions using List.reverseRecOn with
  | nil => exact ⟨Alert.presentable_empty, rfl, fun s o h => by cases h⟩
  | append_singleton actions action ih =>
      rw [run_concat]
      exact ih.step hs action

/-- **The agreement law.**  In every tick of a run of ticks, drains and resets of a new loop, on
canvases and for a surface with positive sides, the alert is not empty exactly when it has a size,
the cruise box is hidden exactly then, and exactly then the banner covers some pixels. -/
theorem agreement_law (settings : Settings) (hs : settings.surface.IsSound)
    (actions : List (Action Canvas)) (s : Snapshot) (o : FrameOutcome)
    (h : Entry.ticked s o ∈ (run settings actions).record) : o.Agrees :=
  (coherent_run hs actions).agrees s o h

theorem ticked_mem_run (settings : Settings) (actions : List (Action Canvas)) (c : Canvas)
    (video : Option VideoFrame) (s : Snapshot) (started finished : Instant) :
    Entry.ticked s ((run settings actions).pipeline.tick c video s started finished).1 ∈
      (run settings (actions ++ [.tick c video s started finished])).record := by
  rw [run_concat]
  exact List.mem_append_right _ (List.mem_singleton_self _)

/-- An alert that has a text but no size shows nowhere. -/
theorem agreement_law_withoutSize :
    let s : Snapshot := { controls := { updated := true }, alert := { title := "Lane change" } }
    let c := Canvas.filled 1 1 (Palette.black 255)
    SurfaceSettings.IsSound {} ∧ s.alert.isEmpty = false ∧
      ∃ o, Entry.ticked s o ∈ (run {} [.tick c none s ⟨0⟩ ⟨0⟩]).record ∧ o.Agrees ∧
        o.observation.values.hidesCruiseBox = false := by
  intro s c
  have hs : SurfaceSettings.IsSound {} := by
    unfold SurfaceSettings.IsSound
    decide
  have hm := ticked_mem_run {} [] c none s ⟨0⟩ ⟨0⟩
  rw [List.nil_append] at hm
  refine ⟨hs, by decide, _, hm, agreement_law {} hs _ s _ hm, ?_⟩
  rw [observation_tick]
  rfl

end Pipeline

end DriveOverlay
