import DriveOverlay.Layout
import DriveOverlay.Scene.Alert
import DriveOverlay.Surface.Command

/-! # The alert banner

A band at the bottom of the surface, as high as the alert asks for, darker toward the bottom and
tinted, with the text of the alert in one or two blocks of centered lines.  Only a full banner
wraps its text; its title is smaller when it is long. -/

namespace DriveOverlay.Overlay

open Painter (draw)

/-- A line of text on a banner: its baseline is centered on the anchor. -/
structure BannerLine where
  text : String
  anchor : Point
  size : Float32

/-- Lines under each other, from `top` down; the baseline is three quarters down a line. -/
def stacked (lines : List String) (size centerX top : Float32) : List BannerLine :=
  let pitch := Text.lineHeight size
  lines.mapIdx fun i text =>
    ⟨text, ⟨centerX, top + 0.75 * pitch + Single.ofNat i * pitch⟩, size⟩

/-- A text on one line, if it is not empty. -/
def oneLine (text : String) (size centerX top : Float32) : List BannerLine :=
  if text = "" then [] else stacked [text] size centerX top

/-- A text wrapped to a width. -/
def wrapped (text : String) (size centerX top : Float32) (width : Int) : List BannerLine :=
  stacked (Text.wrap text size width) size centerX top

/-- A title of more characters than this is long. -/
def longTitle : Nat := 15

/-- The lines of an alert on a banner. -/
def bannerLines (alert : Alert) (banner : Rect) : List BannerLine :=
  let cx := Single.ofInt banner.centerX
  let cy := Single.ofInt banner.centerY
  match alert.size with
  | .none => []
  | .small => oneLine alert.title 74 cx (cy - Text.lineHeight 74 / 2)
  | .mid =>
    oneLine alert.title 88 cx (cy - 125) ++ oneLine alert.subtitle 66 cx (cy + 21)
  | .full =>
    let (size, titleTop, subtitleUp) : Float32 × Float32 × Float32 :=
      if longTitle < alert.title.length then (132, 240, 361) else (177, 270, 420)
    let top := Single.ofInt banner.y
    let subtitleTop := Single.upper (Single.ofInt banner.h - subtitleUp) top
    wrapped alert.title size cx (top + titleTop) banner.w ++
      wrapped alert.subtitle 88 cx subtitleTop banner.w

/-- The darkening of a banner. -/
def bannerShade (banner : Rect) : Paint :=
  .vertical (Single.ofInt banner.y) (Palette.black (Single.round (0.05 * 255)).toUInt8)
    (Single.ofInt banner.bottom) (Palette.black (Single.round (0.35 * 255)).toUInt8)

variable {σ : Type} [Surface σ]

/-- Writes the lines of a banner. -/
def writeLines : List BannerLine → Painter σ Unit
  | [] => pure ()
  | line :: lines => do
    draw (.drawText line.text line.anchor { size := line.size, color := Palette.white 255 })
    writeLines lines

/-- The banner of an alert over a tint.  The result is the number of pixels it covers. -/
def banner (l : Layout) (alert : Alert) (tint : Color) : Painter σ Int :=
  match l.banner? alert.size with
  | none => pure 0
  | some rect => do
    draw (.fillRect rect (bannerShade rect))
    draw (.fillRect rect (.solid tint))
    writeLines (bannerLines alert rect)
    return rect.area

end DriveOverlay.Overlay
