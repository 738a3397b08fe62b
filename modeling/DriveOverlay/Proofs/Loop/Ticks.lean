import DriveOverlay.Loop.Pipeline

/-! # What decides a picture

The alert machine, the deriver and the renderer of a loop decide what a tick shows.  The rest of the
loop only accounts for it: whatever is published, counted or timed, these parts go on in the same
way.

* `parts_tick`: the parts after a tick;
* `observation_tick`, `render_tick`: what a tick shows, reports and paints, from the parts alone. -/

namespace DriveOverlay.Pipeline

/-- The parts of a loop that decide what is shown. -/
structure Parts where
  alerts : AlertMachine
  deriver : HudDeriver
  renderer : OverlayRenderer

/-- The parts of a loop. -/
def parts (p : Pipeline) : Parts :=
  ⟨p.alerts, p.deriver, p.renderer⟩

namespace Parts

/-- What a tick shows. -/
def observe (parts : Parts) (s : Snapshot) : Observation :=
  let (_, update, announced) := parts.alerts.update s
  ⟨update, (parts.deriver.derive s update.alert).2, announced⟩

/-- The parts after a tick. -/
def next (parts : Parts) (s : Snapshot) : Parts :=
  let (alerts, update, _) := parts.alerts.update s
  ⟨alerts, (parts.deriver.derive s update.alert).1, parts.renderer⟩

end Parts

variable {σ : Type} [Surface σ] (p : Pipeline) (surface : σ) (video : Option VideoFrame)
  (s : Snapshot) (started finished : Instant)

theorem parts_publish? (event : Option HudEvent) : (p.publish? event).parts = p.parts := by
  cases event <;> rfl

theorem parts_observe : (p.observe s).2.parts = p.parts.next s :=
  parts_publish? _ _

theorem parts_settle (report : RenderReport) :
    (p.settle report started finished).2.parts = p.parts :=
  parts_publish? _ _

theorem parts_tick : (p.tick surface video s started finished).2.1.parts = p.parts.next s :=
  (parts_settle (p.observe s).2 started finished _).trans (parts_observe p s)

theorem observation_tick :
    (p.tick surface video s started finished).1.observation = p.parts.observe s :=
  rfl

theorem render_tick :
    ((p.tick surface video s started finished).1.report,
        (p.tick surface video s started finished).2.2) =
      Overlay.render p.parts.renderer (frame (p.parts.observe s) video s) surface := by
  have hr : (p.observe s).2.renderer = p.parts.renderer :=
    congrArg Parts.renderer (parts_observe p s)
  rw [← hr]
  rfl

end DriveOverlay.Pipeline
