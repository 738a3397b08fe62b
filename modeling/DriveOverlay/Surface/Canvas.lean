import DriveOverlay.Color
import DriveOverlay.Geometry.Rect

/-! # Canvas

A picture in memory, four bytes to a pixel, row by row.  `Canvas.get?` looks at a pixel and
`Canvas.modify` changes one; `modifySpan` changes those of a stretch of a row that lie on the
canvas, and `forRows` goes through the rows of a range that do.

Colors are put on pixels by `Color.over`: the alpha of the source decides how much of the pixel
below still shows, every channel being rounded to the nearest whole number. -/

namespace DriveOverlay

/-! ### Blending -/

/-- A channel of a source over that of a pixel; a half is rounded up. -/
def Color.overChannel (alpha source below : UInt8) : UInt8 :=
  ((source.toUInt32 * alpha.toUInt32 + below.toUInt32 * (255 - alpha.toUInt32) + 127) / 255).toUInt8

/-- The alpha of a source over that of a pixel. -/
def Color.overAlpha (alpha below : UInt8) : UInt8 :=
  (alpha.toUInt32 + (below.toUInt32 * (255 - alpha.toUInt32) + 127) / 255).toUInt8

/-- A source over a pixel. -/
@[inline] def Color.over (source below : Color) : Color :=
  if source.alpha = 0 then below
  else if source.alpha = 255 then source
  else
    let a := source.alpha
    ⟨overChannel a source.red below.red, overChannel a source.green below.green,
      overChannel a source.blue below.blue, overAlpha a below.alpha⟩

/-! ### Pixels -/

/-- A picture: red, green, blue and alpha of each pixel.  Its sides are below `2 ^ 31`, so that columns
and rows are numbers of 32 bits with a sign. -/
structure Canvas where
  width : Nat
  height : Nat
  bytes : ByteArray
  size_eq : bytes.size = 4 * (width * height)

namespace Canvas

@[simp] theorem size_set (b : ByteArray) (i : Nat) (v : UInt8) (h : i < b.size) :
    (b.set i v h).size = b.size := by
  rw [← ByteArray.size_data, ← ByteArray.size_data, ByteArray.data_set, Array.size_set]

theorem index_lt {w h x y : Nat} (hx : x < w) (hy : y < h) : 4 * (y * w + x) + 3 < 4 * (w * h) := by
  have : (y + 1) * w ≤ h * w := Nat.mul_le_mul_right w hy
  rw [Nat.add_mul, Nat.one_mul, Nat.mul_comm h w] at this
  omega

/-- The pixel in column `x` of row `y`. -/
def get? (c : Canvas) (x y : Nat) : Option Color :=
  if h : x < c.width ∧ y < c.height then
    have hi := c.size_eq ▸ index_lt h.1 h.2
    let i := 4 * (y * c.width + x)
    some ⟨c.bytes[i], c.bytes[i + 1], c.bytes[i + 2], c.bytes[i + 3]⟩
  else none

/-- Changes the pixel in column `x` of row `y`, if it is on the canvas. -/
@[inline] def modify (c : Canvas) (x y : Nat) (f : Color → Color) : Canvas :=
  if h : x < c.width ∧ y < c.height then
    have hi := c.size_eq ▸ index_lt h.1 h.2
    let i := 4 * (y * c.width + x)
    let new := f ⟨c.bytes[i], c.bytes[i + 1], c.bytes[i + 2], c.bytes[i + 3]⟩
    { c with
      bytes :=
        (((c.bytes.set i new.red).set (i + 1) new.green (by simp; omega)).set (i + 2) new.blue
          (by simp; omega)).set (i + 3) new.alpha (by simp; omega)
      size_eq := by simpa using c.size_eq }
  else c

/-! ### Stretches and rows -/

/-- Changes the pixels of row `y` from column `x0` up to but not including `x1`, as far as they
are on the canvas; the change may depend on the column. -/
@[inline] def modifySpan (c : Canvas) (y x0 x1 : Int) (f : Nat → Color → Color) : Canvas :=
  if y < 0 then c else
  let row := y.toNat
  let start := x0.toNat
  let stop := min x1.toNat c.width
  (stop - start).fold (fun i _ c => c.modify (start + i) row (f (start + i))) c

/-- Puts a color over the pixels of row `y` from column `x0` up to but not including `x1`. -/
def blendSpan (c : Canvas) (y x0 x1 : Int) (color : Color) : Canvas :=
  c.modifySpan y x0 x1 fun _ below => color.over below

/-- Goes through the rows from `y0` up to but not including `y1`, as far as they are on the
canvas. -/
@[inline] def forRows (c : Canvas) (y0 y1 : Int) (f : Nat → Canvas → Canvas) : Canvas :=
  let start := y0.toNat
  let stop := min y1.toNat c.height
  (stop - start).fold (fun i _ c => f (start + i) c) c

/-- So many zero bytes. -/
def zeros (n : Nat) : ByteArray :=
  n.fold (fun _ _ b => b.push 0) (.emptyWithCapacity n)

theorem size_zeros (n : Nat) : (zeros n).size = n := by
  have h : ∀ n (b : ByteArray), (n.fold (fun _ _ b => b.push 0) b).size = b.size + n := by
    intro n b
    induction n with
    | zero => rfl
    | succ n ih => simp [Nat.fold, ByteArray.size_push, ih]; omega
  have := h n (.emptyWithCapacity n)
  rwa [show (ByteArray.emptyWithCapacity n).size = 0 from rfl, Nat.zero_add] at this

/-- Every pixel gets the color. -/
def clear (c : Canvas) (color : Color) : Canvas :=
  c.forRows 0 c.height fun y c => c.modifySpan y 0 c.width fun _ _ => color

/-- A canvas of one color. -/
def filled (width height : Nat) (color : Color) : Canvas :=
  clear ⟨width, height, zeros (4 * (width * height)), size_zeros _⟩ color

/-- The rectangle of the canvas. -/
def bounds (c : Canvas) : Rect :=
  ⟨0, 0, c.width, c.height⟩

end Canvas

end DriveOverlay
