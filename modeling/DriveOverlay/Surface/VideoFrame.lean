import DriveOverlay.Color

/-! # Camera images

An image of the road camera: rows of pixels of three or four bytes, of which the first three are
red, green and blue.  `check` says what is wrong with one.  It counts bytes in 64 bits, so that an
image that needs `2 ^ 64` of them or more may pass with far fewer; `colorAt?` finds them
missing. -/

namespace DriveOverlay

/-- A camera image. -/
structure VideoFrame where
  width : UInt32
  height : UInt32
  channels : UInt8
  bytes : ByteArray

/-- Why a camera image is refused. -/
inductive FrameError where
  | zeroSize (width height : Nat)
  | channelCount (channels : Nat)
  | bufferSize (actual expected width height channels : Nat)
deriving Repr, DecidableEq

/-- The wording of an error. -/
def FrameError.message : FrameError → String
  | .zeroSize w h => "video frame has zero size " ++ toString w ++ "x" ++ toString h
  | .channelCount n => "unsupported video frame channel count " ++ toString n
  | .bufferSize actual expected w h n =>
    "video frame buffer is " ++ toString actual ++ " bytes, expected " ++ toString expected ++
      " for " ++ toString w ++ "x" ++ toString h ++ "x" ++ toString n

namespace VideoFrame

/-- How many bytes an image of this size is taken to have: a product of 64 bits, which is too small
when there are more than those can count. -/
def expectedSize (f : VideoFrame) : Nat :=
  (f.width.toUInt64 * f.height.toUInt64 * f.channels.toUInt64).toNat

/-- The first fault of an image: no size, no known number of channels, or the wrong number of
bytes. -/
def check (f : VideoFrame) : Except FrameError Unit :=
  if f.width = 0 || f.height = 0 then .error (.zeroSize f.width.toNat f.height.toNat)
  else if f.channels ≠ 3 && f.channels ≠ 4 then .error (.channelCount f.channels.toNat)
  else if f.bytes.size ≠ f.expectedSize then
    .error (.bufferSize f.bytes.size f.expectedSize f.width.toNat f.height.toNat f.channels.toNat)
  else .ok ()

/-- Where the bytes of a pixel begin, in 64 bits. -/
def offset (f : VideoFrame) (x y : Nat) : Nat :=
  ((y.toUInt64 * f.width.toUInt64 + x.toUInt64) * f.channels.toUInt64).toNat

/-- The opaque color of a pixel, if its bytes are there. -/
def colorAt? (f : VideoFrame) (x y : Nat) : Option Color :=
  let i := f.offset x y
  if h : i + 2 < f.bytes.size then some ⟨f.bytes[i], f.bytes[i + 1], f.bytes[i + 2], 255⟩ else none

end VideoFrame

end DriveOverlay
