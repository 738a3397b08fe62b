import DriveOverlay.Json.Basic
import DriveOverlay.Loop.Counters

/-! # Reports

What is told about a run when it is over: the counters, how long it took and how many frames that
makes in a second, and the digest of the last frame.  Members are in the order of their names. -/

namespace DriveOverlay

/-- A run that is over; its time is in seconds. -/
structure RunReport where
  counters : Counters
  elapsed : Float
  lastFrame : String

namespace RunReport

/-- Runs no longer than this have no rate. -/
def leastElapsed : Float := 0.01

/-- Frames in a second. -/
def rate (r : RunReport) : Float :=
  if leastElapsed < r.elapsed then r.counters.totalFrames.toFloat / r.elapsed else 0

/-- The counters and the times by name. -/
def metrics (r : RunReport) : Json :=
  let count (c : Counter) : String × Json := (c.name, .whole (r.counters.get c).toNat)
  .object [
    count .alertsActivated,
    count .bannerRepaints,
    ("elapsed_secs", .real r.elapsed),
    ("fps", .real r.rate),
    count .lastRender,
    count .renderErrors,
    count .slowFrames,
    count .totalFrames]

/-- The report as a document. -/
def toJson (r : RunReport) : Json :=
  .object [("last_frame_sha256", .text r.lastFrame), ("metrics", r.metrics)]

end RunReport

end DriveOverlay
