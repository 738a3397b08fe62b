/-! # SHA-256

The digest of a byte sequence.  The message is followed by a one bit, zeros and its length in
bits, so that it fills blocks of 64 bytes; each block changes the eight words of the state in 64
rounds, each with its own constant and its own word of the schedule, which spreads the sixteen
words of the block. -/

namespace DriveOverlay.Sha256

/-! ### Words -/

/-- A word turned right. -/
@[inline] def rotate (x n : UInt32) : UInt32 :=
  (x >>> n) ||| (x <<< (32 - n))

/-- The constants of the rounds: leading bits of the cube roots of the first primes. -/
def roundConstants : Array UInt32 := #[
  0x428a2f98, 0x71374491, 0xb5c0fbcf, 0xe9b5dba5, 0x3956c25b, 0x59f111f1, 0x923f82a4, 0xab1c5ed5,
  0xd807aa98, 0x12835b01, 0x243185be, 0x550c7dc3, 0x72be5d74, 0x80deb1fe, 0x9bdc06a7, 0xc19bf174,
  0xe49b69c1, 0xefbe4786, 0x0fc19dc6, 0x240ca1cc, 0x2de92c6f, 0x4a7484aa, 0x5cb0a9dc, 0x76f988da,
  0x983e5152, 0xa831c66d, 0xb00327c8, 0xbf597fc7, 0xc6e00bf3, 0xd5a79147, 0x06ca6351, 0x14292967,
  0x27b70a85, 0x2e1b2138, 0x4d2c6dfc, 0x53380d13, 0x650a7354, 0x766a0abb, 0x81c2c92e, 0x92722c85,
  0xa2bfe8a1, 0xa81a664b, 0xc24b8b70, 0xc76c51a3, 0xd192e819, 0xd6990624, 0xf40e3585, 0x106aa070,
  0x19a4c116, 0x1e376c08, 0x2748774c, 0x34b0bcb5, 0x391c0cb3, 0x4ed8aa4a, 0x5b9cca4f, 0x682e6ff3,
  0x748f82ee, 0x78a5636f, 0x84c87814, 0x8cc70208, 0x90befffa, 0xa4506ceb, 0xbef9a3f7, 0xc67178f2]

/-- The eight words of the state. -/
structure State where
  a : UInt32
  b : UInt32
  c : UInt32
  d : UInt32
  e : UInt32
  f : UInt32
  g : UInt32
  h : UInt32

/-- The state before the first block: leading bits of the square roots of the first primes. -/
def initial : State :=
  ⟨0x6a09e667, 0xbb67ae85, 0x3c6ef372, 0xa54ff53a, 0x510e527f, 0x9b05688c, 0x1f83d9ab, 0x5be0cd19⟩

/-! ### Blocks -/

/-- The word at an index. -/
@[inline] def word (w : Array UInt32) (i : Nat) : UInt32 :=
  if h : i < w.size then w[i] else 0

/-- The byte at an index of a message. -/
@[inline] def byteAt (m : ByteArray) (i : Nat) : UInt32 :=
  if h : i < m.size then m[i].toUInt32 else 0

/-- The word that starts at an index of a message, its first byte highest. -/
def wordAt (m : ByteArray) (i : Nat) : UInt32 :=
  (byteAt m i <<< 24) ||| (byteAt m (i + 1) <<< 16) |||
    (byteAt m (i + 2) <<< 8) ||| byteAt m (i + 3)

/-- The sixteen words of the block that starts at an index. -/
def block (m : ByteArray) (start : Nat) : Array UInt32 :=
  Nat.fold 16 (fun i _ w => w.push (wordAt m (start + 4 * i))) (.emptyWithCapacity 64)

/-- The schedule of a block: each further word is made of four earlier ones. -/
def schedule (w : Array UInt32) : Array UInt32 :=
  Nat.fold 48 (fun i _ w =>
    let x := word w (i + 1)
    let y := word w (i + 14)
    let s0 := rotate x 7 ^^^ rotate x 18 ^^^ (x >>> 3)
    let s1 := rotate y 17 ^^^ rotate y 19 ^^^ (y >>> 10)
    w.push (word w i + s0 + word w (i + 9) + s1)) w

/-- One round with the sum of its constant and its word. -/
@[inline] def round (s : State) (kw : UInt32) : State :=
  let s1 := rotate s.e 6 ^^^ rotate s.e 11 ^^^ rotate s.e 25
  let choice := (s.e &&& s.f) ^^^ ((~~~ s.e) &&& s.g)
  let t1 := s.h + s1 + choice + kw
  let s0 := rotate s.a 2 ^^^ rotate s.a 13 ^^^ rotate s.a 22
  let majority := (s.a &&& s.b) ^^^ (s.a &&& s.c) ^^^ (s.b &&& s.c)
  ⟨t1 + (s0 + majority), s.a, s.b, s.c, s.d + t1, s.e, s.f, s.g⟩

/-- The words of two states added up. -/
def State.add (s t : State) : State :=
  ⟨s.a + t.a, s.b + t.b, s.c + t.c, s.d + t.d, s.e + t.e, s.f + t.f, s.g + t.g, s.h + t.h⟩

/-- The state after the block that starts at an index. -/
def compress (s : State) (m : ByteArray) (start : Nat) : State :=
  let w := schedule (block m start)
  s.add (Nat.fold 64 (fun i _ s => round s (word roundConstants i + word w i)) s)

/-! ### Messages -/

/-- The bytes behind a message of so many bytes. -/
def padding (size : Nat) : ByteArray :=
  let zeros := (119 - size % 64) % 64
  let bits := 8 * size
  Nat.fold 8 (fun i _ b => b.push (bits >>> (56 - 8 * i)).toUInt8)
    (Nat.fold zeros (fun _ _ b => b.push 0) (ByteArray.empty.push 0x80))

/-- The state after all blocks of a message. -/
def digestState (m : ByteArray) : State :=
  let m := m ++ padding m.size
  Nat.fold (m.size / 64) (fun i _ s => compress s m (64 * i)) initial

/-- A word in eight hexadecimal digits. -/
def hexWord (x : UInt32) : String :=
  String.ofList ((List.range 8).map fun i => Nat.digitChar ((x.toNat >>> (28 - 4 * i)) % 16))

/-- The digest of a message, in hexadecimal digits. -/
def digest (m : ByteArray) : String :=
  let s := digestState m
  String.join ([s.a, s.b, s.c, s.d, s.e, s.f, s.g, s.h].map hexWord)

end DriveOverlay.Sha256
