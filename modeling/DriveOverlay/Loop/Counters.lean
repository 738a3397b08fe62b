/-! # Counters

What the frame loop counts, in 64 bits each.  They are added to, except for the time of the last
paint, which is set. -/

namespace DriveOverlay

/-- The counters of the frame loop. -/
structure Counters where
  totalFrames : UInt64 := 0
  alertsActivated : UInt64 := 0
  bannerRepaints : UInt64 := 0
  slowFrames : UInt64 := 0
  renderErrors : UInt64 := 0
  /-- Microseconds that the last frame took to paint. -/
  lastRender : UInt64 := 0
deriving Repr, DecidableEq, Inhabited

/-- The name of a counter. -/
inductive Counter where
  | totalFrames
  | alertsActivated
  | bannerRepaints
  | slowFrames
  | renderErrors
  | lastRender
deriving Repr, DecidableEq

namespace Counter

/-- The name of a counter in a report. -/
def name : Counter → String
  | .totalFrames => "total_frames"
  | .alertsActivated => "alerts_activated"
  | .bannerRepaints => "banner_repaints"
  | .slowFrames => "slow_frames"
  | .renderErrors => "render_errors"
  | .lastRender => "last_render_us"

end Counter

namespace Counters

/-- The value of a counter. -/
def get (c : Counters) : Counter → UInt64
  | .totalFrames => c.totalFrames
  | .alertsActivated => c.alertsActivated
  | .bannerRepaints => c.bannerRepaints
  | .slowFrames => c.slowFrames
  | .renderErrors => c.renderErrors
  | .lastRender => c.lastRender

/-- Sets a counter. -/
def set (c : Counters) (counter : Counter) (n : UInt64) : Counters :=
  match counter with
  | .totalFrames => { c with totalFrames := n }
  | .alertsActivated => { c with alertsActivated := n }
  | .bannerRepaints => { c with bannerRepaints := n }
  | .slowFrames => { c with slowFrames := n }
  | .renderErrors => { c with renderErrors := n }
  | .lastRender => { c with lastRender := n }

/-- Adds to a counter, which goes on from zero after its largest value. -/
def add (c : Counters) (counter : Counter) (n : UInt64) : Counters :=
  c.set counter (c.get counter + n)

/-- Adds one to a counter, if something happened. -/
def countIf (c : Counters) (counter : Counter) (happened : Bool) : Counters :=
  if happened then c.add counter 1 else c

end Counters

end DriveOverlay
