/-! # Pacing

The time between the ends of two paints, in milliseconds, is compared with a limit.  The first
paint after the start or a reset has nothing to be compared with.  Time that goes back counts as
no time. -/

namespace DriveOverlay

/-- A point of time, in nanoseconds from a common start. -/
structure Instant where
  nanoseconds : Nat
deriving Repr, DecidableEq, Inhabited

/-- The milliseconds from one point of time to another: whole seconds and the rest are made
doubles apart. -/
def Instant.millisecondsSince (now before : Instant) : Float :=
  let elapsed := now.nanoseconds - before.nanoseconds
  let seconds := (UInt64.ofNat (elapsed / 1000000000)).toFloat
  let rest := (UInt64.ofNat (elapsed % 1000000000)).toFloat
  (seconds + rest / 1000000000) * 1000

/-- The limit in milliseconds, and when the last paint ended. -/
structure Pacer where
  limit : Float
  last : Option Instant := none

namespace Pacer

/-- A paint has ended.  The result is the interval when it is over the limit. -/
def paintDone (p : Pacer) (now : Instant) : Option Float × Pacer :=
  let slow := p.last.bind fun before =>
    let interval := now.millisecondsSince before
    if p.limit < interval then some interval else none
  (slow, { p with last := some now })

/-- Back to the start. -/
def reset (p : Pacer) : Pacer :=
  { p with last := none }

end Pacer

end DriveOverlay
