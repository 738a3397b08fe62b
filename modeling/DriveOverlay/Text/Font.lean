/-! # Glyphs

A fixed font for Latin text: each glyph is a bitmap of 10 by 20 cells, written as one number whose
200 bits are the rows from the top, each from the left, the first cell being the highest bit.

`Font.glyph` gives the bitmap of a character; a character without one gets that of the question
mark.  `Font.isLit` looks at a cell. -/

namespace DriveOverlay.Font

/-- The width of a glyph. -/
def width : Nat := 10

/-- The height of a glyph. -/
def height : Nat := 20

/-- How many rows of a glyph stand above the baseline. -/
def ascent : Nat := 15

/-- Glyphs of the characters from U+0020 to U+007F. -/
def basicGlyphs : Array Nat := #[
  0x0,
  0x300c0300c0300c0300c0300c0000c0300000000000,
  0xcc330cc12000000000000000000000000000000000,
  0xd8360d8ff1b06c1b1fe360d8360000000000000,
  0x303f1b66c1b06c0fc0d8360d9b63f0300000000000,
  0x399b66f0ec060180c0301b87b36cce0000000000,
  0x70360d8360f0180e06c19b6398c778f30000000000,
  0x300c0300c020000000000000000000000000000000,
  0xc060300c06018060180600c0300600c0000000000,
  0xc0180300c01806018060180c030180c00000000000,
  0x330cc1e1fe1e0cc33000000000000000000,
  0xc0300c1fe0c0300c000000000000000000,
  0xe0381c00000000,
  0x1fe0000000000000000000000000,
  0x380e0380000000000,
  0x18060300c060180c03018060300c00000000000,
  0x301e0cc331866198661986330cc1e0300000000000,
  0x301c0f06c0300c0300c0300c0300c1fe0000000000,
  0x7833186618060180c0e06030180601fe0000000000,
  0x783318661806030380300661986330780000000000,
  0x40301c0f06c3318c631fe0300c0300c0000000000,
  0x1fe60180601806e1cc0180601986330780000000000,
  0x7833184601806e1cc6198661986330780000000000,
  0x1fe018060300c060180c03018060300c00000000000,
  0x783318661986330783318661986330780000000000,
  0x783318661986618ce1d80601886330780000000000,
  0xe03800000000000e0380000000000,
  0xe03800000000000e0381c00000000,
  0x4030180c06030180300600c018030040000000000,
  0x1fe00000000007f800000000000000000,
  0x80300600c01803006030180c060300800000000000,
  0x783318661986030180c0300c0000c0300000000000,
  0x7833186679be6d9b66d9bc661803187c0000000000,
  0x301e0cc33186619867f98661986619860000000000,
  0x1f06618c6318c661f86318661986631f80000000000,
  0x783318660180601806018060186330780000000000,
  0x1f86318661986619866198661986631f80000000000,
  0x1fe6018060180601f86018060180601fe0000000000,
  0x1fe6018060180601f86018060180601800000000000,
  0x7833186601806019e61986619863387a0000000000,
  0x1866198661986619fe6198661986619860000000000,
  0x1fe0c0300c0300c0300c0300c0300c1fe0000000000,
  0x3f0300c0300c0300c0300c6318c360700000000000,
  0x1866198c63198661f0661986318c619860000000000,
  0x1806018060180601806018060180601fe0000000000,
  0x186619ce739fe6d9b66d9b661986619860000000000,
  0x186719c6799e66d9b66799e6398e619860000000000,
  0x783318661986619866198661986330780000000000,
  0x1f863186619866198c7e18060180601800000000000,
  0x78331866198661986619866d99e3307c0180000000,
  0x1f863186619866198c7e1986318c619860000000000,
  0x783318660180300780300601986330780000000000,
  0x1fe0c0300c0300c0300c0300c0300c0300000000000,
  0x1866198661986619866198661986330780000000000,
  0x18661986618cc330cc1e0781e0300c0300000000000,
  0x18661986619866d9b66d9b6739ce619860000000000,
  0x186618cc330781e0301e078330cc619860000000000,
  0x186618cc330781e0300c0300c0300c0300000000000,
  0x1fe0180603018060301806030180601fe0000000000,
  0xfc300c0300c0300c0300c0300c0300fc0000000000,
  0x300c0180600c030060180300c018060000000000,
  0xfc0300c0300c0300c0300c0300c030fc0000000000,
  0x301e0cc61800000000000000000000000000000000,
  0x7fc0000000,
  0x600c01800000000000000000000000000000000000,
  0x1f0c6018fe61986618fa0000000000,
  0x18060180601806e1cc6198661986731b80000000000,
  0x1f0c660180601803187c0000000000,
  0x601806018061d8ce6198661986338760000000000,
  0x1e0cc619fe601803187c0000000000,
  0x3c19866180607e0601806018060180600000000000,
  0x3e98e6318c630f8600fc61986618fc,
  0x18060180601806e1cc6198661986619860000000000,
  0x300c0003c0300c0300c0300c1fe0000000000,
  0x60180007806018060180601806318c63187c,
  0x1806018060180631986c1e07c198631860000000000,
  0xf00c0300c0300c0300c0300c0300c1fe0000000000,
  0x5b1fe6d9b66d9b66d9b60000000000,
  0x6e1cc6198661986619860000000000,
  0x1e0cc6198661986330780000000000,
  0x6e1cc6198661986731b86018060180,
  0x1d8ce6198661986338760180601806,
  0x6f0e6300c0300c0300c00000000000,
  0x3f186600fc01806618fc0000000000,
  0x60180607e06018060180601983c0000000000,
  0x619866198661986338760000000000,
  0x61986330cc1e0780c0300000000000,
  0x61986619b66d9b67f8cc0000000000,
  0x618cc1e0300c078331860000000000,
  0x619866198661986338760198633078,
  0x3f806030180c060300fe0000000000,
  0x1e0c0300c0300c1e00c0300c0300c01e0000000000,
  0x300c0300c0300c0300c0300c0300c0300000000000,
  0x1e00c0300c0300c01e0c0300c0300c1e00000000000,
  0xe66d99c00000000000000000000000000000000000,
  0x783318661986030180c0300c0000c0300000000000]

/-- Glyphs of the characters from U+00A0 to U+00FF. -/
def latinGlyphs : Array Nat := #[
  0x0,
  0x300c0000c0300c0300c0300c0300c0300000000000,
  0xc0301e0cc6118060184330780c0300000000000,
  0xf06619860181f818060181f056dce0000000000,
  0x80b767f18c6318c7f376808000000000000,
  0x102618cc1e0fc0c0fc0c0300c0300000000000,
  0x300c0300c03000000000300c0300c0300000000000,
  0x783318c300f0660cc1983c030c6330780000000000,
  0xcc3300000000000000000000000000000000000000,
  0x78331865e94a5094a5e986330780000000000,
  0x7c218063f986618fa001fe00000000000000000000,
  0x120d86c361b0d81b03606c0d8120000000000,
  0x7f9fe0180600000000000000000000,
  0xfc0000000000000000000000000,
  0x78331865e94a5e95256986330780000000000,
  0x7f8000000000000000000000000000000000000000000,
  0x301e0cc330780c0000000000000000000000000000,
  0x300c1fe0c030001fe000000000000000,
  0x70360180c060300f80000000000000000000000000,
  0x70360180c018360700000000000000000000000000,
  0x180c06000000000000000000000000000000000000,
  0x18c6318c6318c771f46018060000,
  0xfe7f9f67d9f63d8360d8360d8360d8360000000000,
  0xe0380e00000000000000000000000,
  0xc01836070,
  0x603806018060180f00000000000000000000000000,
  0x703618c6318c36070001fc00000000000000000000,
  0x1206c0d81b03606c361b0d86c1200000000000,
  0x8060082211c804024130944f004010000000000000,
  0x8060082211c80402c1488241008078000000000000,
  0x1c0080c2091c804024130944f804010000000000000,
  0x300c0000c0300c0603018661986330780000000000,
  0xc018030000301e0cc61986619fe61986619860000000000,
  0xc06030000301e0cc61986619fe61986619860000000000,
  0x301e0cc000301e0cc61986619fe61986619860000000000,
  0x643f098000301e0cc61986619fe61986619860000000000,
  0xcc330000c078330cc61986619fe61986619860000000000,
  0x1e0cc33078000301e0cc61986619fe61986619860000000000,
  0x3e1e0d836198661fe66198661986619e0000000000,
  0x783318660180601806018060186330780c01836070,
  0xc018030001fe60180601807e18060180601fe0000000000,
  0x180c060001fe60180601807e18060180601fe0000000000,
  0x301e0cc001fe60180601807e18060180601fe0000000000,
  0xcc33000001fe60180601807e18060180601fe0000000000,
  0x600c018000fc0c0300c0300c0300c0300c0fc0000000000,
  0x180c060000fc0c0300c0300c0300c0300c0fc0000000000,
  0x301e0cc000fc0c0300c0300c0300c0300c0fc0000000000,
  0xcc330003f0300c0300c0300c0300c0300c0fc0000000000,
  0x1f8631866198661be66198661986631f80000000000,
  0x643f09800186719e6799b66d99e6798e619860000000000,
  0x600c0180007833186619866198661986330780000000000,
  0x180c0600007833186619866198661986330780000000000,
  0x301e0cc0007833186619866198661986330780000000000,
  0x643f0980007833186619866198661986330780000000000,
  0xcc330001e0cc61986619866198661986330780000000000,
  0x4118c360701c0d8631040000000000,
  0x87c3318e6399665996699a6699c6330f84000000000,
  0x600c0180018661986619866198661986330780000000000,
  0x180c0600018661986619866198661986330780000000000,
  0x301e0cc0018661986619866198661986330780000000000,
  0xcc330006198661986619866198661986330780000000000,
  0x180c06000186618cc330781e0300c0300c0300000000000,
  0xc0300c03f0c6318c6318c63f0c0300c00000000000,
  0x381b0c6318cc760d8330c6318c6330d80000000000,
  0x18030060003f186018fe61986618fa0000000000,
  0x6030180003f186018fe61986618fa0000000000,
  0xc078330003f186018fe61986618fa0000000000,
  0x190fc260003f186018fe61986618fa0000000000,
  0xcc330003f186018fe61986618fa0000000000,
  0x78330cc1e0003f186018fe61986618fa0000000000,
  0x3b1360d83c3c1b06c8dc0000000000,
  0x1f0c660180601803187c0c01836070,
  0x300600c0001e0cc619fe601803187c0000000000,
  0x30180c0001e0cc619fe601803187c0000000000,
  0xc078330001e0cc619fe601803187c0000000000,
  0xcc330001e0cc619fe601803187c0000000000,
  0x300600c0003c0300c0300c0300c1fe0000000000,
  0x6030180003c0300c0300c0300c1fe0000000000,
  0xc078330003c0300c0300c0300c1fe0000000000,
  0xcc330003c0300c0300c0300c1fe0000000000,
  0x1106c0e0381b04607c3398661986330780000000000,
  0x190fc260006e1cc6198661986619860000000000,
  0x300600c0001e0cc6198661986330780000000000,
  0x30180c0001e0cc6198661986330780000000000,
  0xc078330001e0cc6198661986330780000000000,
  0x190fc260001e0cc6198661986330780000000000,
  0xcc330001e0cc6198661986330780000000000,
  0x300c000001fe7f800000300c0000000000000,
  0x21f0cc65996699a6330f84000000000,
  0x1803006000619866198661986338760000000000,
  0x30180c000619866198661986338760000000000,
  0xc07833000619866198661986338760000000000,
  0xcc33000619866198661986338760000000000,
  0x603018000619866198661986338760198633078,
  0xc0300c0300c0300f8330c6318c6330f8300c0300c0,
  0xcc33000619866198661986338760198633078]

/-- The bitmap of a code point, if it has one. -/
def glyphAt? (code : Nat) : Option Nat :=
  if 0x20 ≤ code && code < 0x80 then basicGlyphs[code - 0x20]?
  else if 0xa0 ≤ code then latinGlyphs[code - 0xa0]?
  else none

/-- The bitmap of a character. -/
def glyph (c : Char) : Nat :=
  (glyphAt? c.toNat).getD (basicGlyphs.getD ('?'.toNat - 0x20) 0)

/-- The cell in a column and a row of a bitmap is lit. -/
def isLit (bitmap column row : Nat) : Bool :=
  column < width && row < height && bitmap.testBit (width * height - 1 - (width * row + column))

/-- The lit cells of a bitmap, as column and row. -/
def litCells (bitmap : Nat) : List (Nat × Nat) :=
  (List.range height).flatMap fun row =>
    (List.range width).filterMap fun column =>
      if isLit bitmap column row then some (column, row) else none

end DriveOverlay.Font
