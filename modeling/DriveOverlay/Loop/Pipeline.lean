import DriveOverlay.Loop.Backlog
import DriveOverlay.Loop.Counters
import DriveOverlay.Loop.Pacer
import DriveOverlay.Overlay.Frame

/-! # The frame loop

One tick takes a snapshot through the alert machine, the deriver, the renderer and the pacer.
`observe` decides what is to be shown, `settle` accounts for it once it is painted, and `tick` does
both around a paint.

Counters and events belong together: an announced alert is counted, handed to whoever listens, and
put into the backlog, before the slow frame of the same tick, if it is one.  Going back to the
start clears the alert and the pacer, but neither counters nor events. -/

namespace DriveOverlay

/-- What the loop tells the outside. -/
inductive HudEvent where
  | alertActivated (alert : Alert)
  /-- The interval in milliseconds. -/
  | slowFrame (interval : Float)

/-- Everything that survives a frame. -/
structure Pipeline where
  alerts : AlertMachine
  deriver : HudDeriver
  renderer : OverlayRenderer
  pacer : Pacer
  events : Backlog HudEvent
  counters : Counters

/-- What is to be shown in a frame, and the alert that is announced with it. -/
structure Observation where
  update : AlertUpdate
  values : HudValues
  announced : Option Alert

/-- What one tick produced. -/
structure FrameOutcome where
  observation : Observation
  report : RenderReport
  slowFrame : Option Float

namespace Pipeline

/-- How many events may wait. -/
def maxPending : Nat := 64

/-- The loop for a configuration. -/
def ofSettings (s : Settings) : Pipeline where
  alerts := { frequency := s.pacing.frequency }
  deriver := .every s.pacing.throttle
  renderer := .ofSettings s
  pacer := { limit := s.pacing.slowFrame }
  events := .ofCapacity maxPending
  counters := {}

/-- Adds an event, if there is one. -/
def publish? (p : Pipeline) (event : Option HudEvent) : Pipeline :=
  match event with
  | some e => { p with events := p.events.publish e }
  | none => p

/-- Counts something, if it happened. -/
def countIf (p : Pipeline) (counter : Counter) (happened : Bool) : Pipeline :=
  { p with counters := p.counters.countIf counter happened }

/-- Decides what is to be shown. -/
def observe (p : Pipeline) (s : Snapshot) : Observation × Pipeline :=
  let (alerts, update, announced) := p.alerts.update s
  let (deriver, values) := p.deriver.derive s update.alert
  let p := { p with alerts, deriver }
  let p := p.countIf .alertsActivated announced.isSome
  let p := p.publish? (announced.map .alertActivated)
  (⟨update, values, announced⟩, p.countIf .bannerRepaints update.repaint)

/-- Accounts for a painted frame, given when the paint started and ended. -/
def settle (p : Pipeline) (report : RenderReport) (started finished : Instant) :
    Option Float × Pipeline :=
  let microseconds := (finished.nanoseconds - started.nanoseconds) / 1000
  let (slow, pacer) := p.pacer.paintDone finished
  let counters := (p.counters.set .lastRender (UInt64.ofNat microseconds)).add .renderErrors
    (UInt64.ofNat report.failedElements)
  let p := { p with pacer, counters }
  let p := p.countIf .slowFrames slow.isSome
  (slow, (p.publish? (slow.map .slowFrame)).countIf .totalFrames true)

/-- What the renderer is to paint. -/
def frame (observation : Observation) (video : Option VideoFrame) (s : Snapshot) : OverlayFrame :=
  ⟨video, s, observation.values, observation.update⟩

/-- One tick: the snapshot is painted, with a camera image if there is one. -/
def tick {σ : Type} [Surface σ] (p : Pipeline) (surface : σ) (video : Option VideoFrame)
    (s : Snapshot) (started finished : Instant) : FrameOutcome × Pipeline × σ :=
  let (observation, p) := p.observe s
  let (report, surface) := Overlay.render p.renderer (frame observation video s) surface
  let (slow, p) := p.settle report started finished
  (⟨observation, report, slow⟩, p, surface)

/-- The button under a point; the banner takes no touches. -/
def buttonAt? (p : Pipeline) (point : Point) : Option Button :=
  p.renderer.layout.buttonAt? point

/-- Takes the events that wait. -/
def drainEvents (p : Pipeline) : List HudEvent × Pipeline :=
  let (events, rest) := p.events.drain
  (events, { p with events := rest })

/-- Back to no alert and an unarmed pacer. -/
def reset (p : Pipeline) : Pipeline :=
  { p with alerts := p.alerts.reset, pacer := p.pacer.reset }

end Pipeline

end DriveOverlay
