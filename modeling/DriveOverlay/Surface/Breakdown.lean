import DriveOverlay.Surface.Raster

/-! # Commands that break down

Two commands come to a point where they cannot go on.  A shape with round corners has a pixel that
cannot be tested, and a camera image lacks the bytes of a pixel.  There is no outcome then, not even
a refusal, and whoever gave the command is stopped with it.

`Canvas.attempt?` carries out a command as far as that; `Canvas.draw` is what the command comes to
when it goes through.  A surface that may break down is a canvas or, from then on, none.

A command breaks down on a pixel that it comes to, so that it may go through on one canvas and break
down on a larger one. -/

namespace DriveOverlay

namespace Canvas

/-- A pixel of a rectangle on the canvas passes a test. -/
def anyPixel (c : Canvas) (rect : Rect) (test : Nat → Nat → Bool) : Bool :=
  let pixels (start stop : Int) (size : Nat) : List Nat :=
    List.range' start.toNat (min stop.toNat size - start.toNat)
  (pixels rect.y rect.bottom c.height).any fun y =>
    (pixels rect.x rect.right c.width).any fun x => test x y

/-- A command comes to a pixel where it cannot go on.  The inner contour of an outline is only looked
at inside of the outer one. -/
def breaksDown (c : Canvas) : Command → Bool
  | .fillRoundedRect rect radius color =>
    !rect.isEmpty && color.alpha ≠ 0 && c.anyPixel rect fun x y =>
      (Edges.ofRect rect).breaksDown radius (Scanline.middle x) (Scanline.middle y)
  | .strokeRoundedRect rect radius pen color =>
    let half := pen / 2
    let outer := (Edges.ofRect rect).grow half
    let inner := (Edges.ofRect rect).shrink half
    let innerRadius := Single.upper (radius - half) 0
    !(rect.isEmpty || pen ≤ 0) && color.alpha ≠ 0 &&
      c.anyPixel (rect.inset (-penReach pen)) fun x y =>
        let (x, y) := (Scanline.middle x, Scanline.middle y)
        outer.breaksDown (radius + half) x y ||
          outer.holds (radius + half) x y && inner.breaksDown innerRadius x y
  | .blit frame dest clip =>
    frame.check.isOk && !dest.isEmpty && c.anyPixel (dest.overlap clip) fun x y =>
      (frame.colorAt? (sampleIndex (x - dest.x) frame.width.toNat dest.w)
        (sampleIndex (y - dest.y) frame.height.toNat dest.h)).isNone
  | _ => false

/-- Carries out a command, unless it breaks down. -/
def attempt? (command : Command) (c : Canvas) : Option (Except DrawError Unit × Canvas) :=
  if c.breaksDown command then none else some (c.draw command)

/-- Carries out a command where nothing has broken down before. -/
def drawOn (command : Command) (c? : Option Canvas) : Except DrawError Unit × Option Canvas :=
  match c?.bind (attempt? command) with
  | some (outcome, c) => (outcome, some c)
  | none => (.ok (), none)

/-- Where a command has broken down nothing is left to look at. -/
instance : Surface (Option Canvas) where
  width c? := c?.elim 0 Canvas.width
  height c? := c?.elim 0 Canvas.height
  draw := drawOn

end Canvas

end DriveOverlay
