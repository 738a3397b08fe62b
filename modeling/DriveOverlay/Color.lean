import DriveOverlay.Single.Rounding

/-! # Colors

Straight (not premultiplied) red, green, blue and alpha, each from 0 to 255, and the palette of
the overlay.  `fade` scales the alpha, `mix` goes linearly from one color to another; in both a
factor that is no number, or infinite, counts as zero, and results round half away from zero. -/

namespace DriveOverlay

/-- A color with straight alpha. -/
structure Color where
  red : UInt8
  green : UInt8
  blue : UInt8
  alpha : UInt8
deriving Repr, DecidableEq, Inhabited

namespace Color

/-! ### Arithmetic -/

/-- A channel from a share of full intensity. -/
def channel (x : Float32) : UInt8 :=
  (Single.round (Single.share x * 255)).toUInt8

/-- A color from four shares; each is moved into `[0, 1]`, and `0` when it is not finite. -/
def ofShares (red green blue alpha : Float32) : Color :=
  ⟨channel red, channel green, channel blue, channel alpha⟩

/-- The same color with another alpha. -/
def withAlpha (c : Color) (alpha : UInt8) : Color :=
  { c with alpha }

/-- The same color with its alpha scaled by an opacity. -/
def fade (c : Color) (opacity : Float32) : Color :=
  c.withAlpha (Single.round (c.alpha.toFloat32 * Single.share opacity)).toUInt8

/-- One channel on the way from `a` to `b`. -/
def mixChannel (t : Float32) (a b : UInt8) : UInt8 :=
  (Single.round (a.toFloat32 + (b.toFloat32 - a.toFloat32) * t)).toUInt8

/-- The color at the share `t` of the way from `a` to `b`. -/
def mix (a b : Color) (t : Float32) : Color :=
  let t := Single.share t
  ⟨mixChannel t a.red b.red, mixChannel t a.green b.green,
    mixChannel t a.blue b.blue, mixChannel t a.alpha b.alpha⟩

end Color

/-! ### Palette -/

namespace Palette

def crimson (alpha : UInt8) : Color := ⟨201, 34, 49, alpha⟩
def black (alpha : UInt8) : Color := ⟨0, 0, 0, alpha⟩
def white (alpha : UInt8) : Color := ⟨255, 255, 255, alpha⟩
def yellow (alpha : UInt8) : Color := ⟨218, 202, 37, alpha⟩
def ochre (alpha : UInt8) : Color := ⟨218, 111, 37, alpha⟩
def green (alpha : UInt8) : Color := ⟨0, 255, 0, alpha⟩
def blue (alpha : UInt8) : Color := ⟨0, 0, 255, alpha⟩
def orange (alpha : UInt8) : Color := ⟨255, 175, 3, alpha⟩

/-! ### Fixed colors -/

/-- Tint of the surface while the system is off. -/
def disengagedTint : Color := ⟨0x17, 0x33, 0x49, 0xc8⟩
/-- Tint of the surface while the system drives. -/
def engagedTint : Color := ⟨0x17, 0x86, 0x44, 0xf1⟩
/-- Tint of the surface on a warning. -/
def warningTint : Color := ⟨0xda, 0x6f, 0x25, 0xf1⟩
/-- Tint of the surface on a critical alert. -/
def alertTint : Color := ⟨0xc9, 0x22, 0x31, 0xf1⟩

/-- Fill of the cruise box above the speed limit. -/
def overLimitFill : Color := ⟨218, 111, 37, 150⟩
/-- Fill of the cruise box under a known limit. -/
def withinLimitFill : Color := ⟨0, 120, 0, 150⟩
/-- Fill of the cruise box with adaptive cruise on. -/
def adaptiveCruiseFill : Color := ⟨0, 100, 200, 150⟩
/-- Fill of the cruise box with controls enabled. -/
def enabledFill : Color := ⟨255, 255, 255, 75⟩
/-- Fill of the cruise box otherwise. -/
def idleFill : Color := ⟨0, 0, 0, 100⟩

/-- Outline of panels and buttons. -/
def panelBorder : Color := ⟨255, 255, 255, 80⟩
/-- Fill of the tire panel when the pressures differ. -/
def imbalanceFill : Color := ⟨255, 0, 0, 150⟩
/-- Disc behind the face while the driver is monitored. -/
def monitoringDisc : Color := ⟨10, 120, 20, 70⟩
/-- Disc behind the face otherwise. -/
def idleDisc : Color := ⟨0, 0, 0, 70⟩

/-- Glow around a lead seen by radar. -/
def radarGlow : Color := ⟨218, 202, 37, 255⟩
/-- Glow around a lead seen by the camera. -/
def visionGlow : Color := ⟨0, 255, 0, 255⟩

end Palette

end DriveOverlay
