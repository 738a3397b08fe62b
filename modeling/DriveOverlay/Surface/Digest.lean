import DriveOverlay.Digest.Sha256
import DriveOverlay.Surface.Canvas

/-! # Digests of canvases

A canvas is identified by the SHA-256 digest of its width and height, four bytes each from the
lowest, and its bytes. -/

namespace DriveOverlay.Canvas

/-- A number of 32 bits in four bytes, from the lowest. -/
def pushWord (b : ByteArray) (n : Nat) : ByteArray :=
  Nat.fold 4 (fun i _ b => b.push (n >>> (8 * i)).toUInt8) b

/-- The digest of size and pixels. -/
def digest (c : Canvas) : String :=
  Sha256.digest (pushWord (pushWord .empty c.width) c.height ++ c.bytes)

end DriveOverlay.Canvas
