import DriveOverlay.Hud.Panels
import DriveOverlay.Proofs.Overlay.Banner

/-! # The boxes of the instruments

Every box keeps to an edge of the surface, and what stands above what follows from how long the
panels may get.  A surface of 724 by 1060 pixels is large enough for the longest ones: the buttons
reach as far as the cruise box, and the tire panel begins where the right panel ends.

* `Rect.Apart`, `Rect.Fits`: boxes beside each other, and inside another one;
* `Rect.contains_iff`: which whole points count as inside;
* `length_leftPanel`, `length_rightPanel`: how many rows the panels have;
* `Layout.pairwise_boxes`, `Layout.fits_boxes`: the boxes have room;
* `Layout.contains_row`: so have the rows of a panel, whose pitch is not their height;
* `Layout.boxes_law`: all of it for the panels of a snapshot. -/

namespace DriveOverlay

open Single

/-! ### Rectangles beside each other -/

namespace Rect

/-- One lies beside or above the other. -/
def Apart (r s : Rect) : Prop :=
  r.right ≤ s.x ∨ s.right ≤ r.x ∨ r.bottom ≤ s.y ∨ s.bottom ≤ r.y

theorem Apart.not_holds {r s : Rect} (h : r.Apart s) (x y : ℤ) : ¬(r.Holds x y ∧ s.Holds x y) := by
  unfold Apart at h
  unfold Holds
  omega

/-- The rectangle has pixels, and all of them lie in the other one. -/
structure Fits (r s : Rect) : Prop where
  isEmpty : r.isEmpty = false
  holds : ∀ x y, r.Holds x y → s.Holds x y

theorem fits_of_edges {r s : Rect} (hw : 0 < r.w) (hh : 0 < r.h)
    (hx : s.x ≤ r.x ∧ r.right ≤ s.right) (hy : s.y ≤ r.y ∧ r.bottom ≤ s.bottom) : r.Fits s where
  isEmpty := isEmpty_eq_false_iff.mpr ⟨hw, hh⟩
  holds x y h := by
    unfold Holds at *
    omega

/-- Among whole points the rounded edges are those of the rectangle. -/
theorem contains_iff {r : Rect} {p : Point} {x y : ℤ} (hx : IsWhole x p.x) (hy : IsWhole y p.y)
    (hleft : r.x.natAbs ≤ 2 ^ 24) (hright : r.right.natAbs ≤ 2 ^ 24) (htop : r.y.natAbs ≤ 2 ^ 24)
    (hbottom : r.bottom.natAbs ≤ 2 ^ 24) : r.contains p = true ↔ r.Holds x y := by
  have le {z w : ℤ} {a b : Float32} (ha : IsWhole z a) (hb : IsWhole w b) : a ≤ b ↔ z ≤ w := by
    rw [le_iff_value ha.isNaN hb.isNaN, ha.value_eq, hb.value_eq, Int.cast_le]
  have lt {z w : ℤ} {a b : Float32} (ha : IsWhole z a) (hb : IsWhole w b) : a < b ↔ z < w := by
    rw [lt_iff_value ha.isNaN hb.isNaN, ha.value_eq, hb.value_eq, Int.cast_lt]
  simp only [contains, Holds, Bool.and_eq_true, decide_eq_true_eq, and_assoc]
  rw [le (isWhole_ofInt hleft) hx, lt hx (isWhole_ofInt hright), le (isWhole_ofInt htop) hy,
    lt hy (isWhole_ofInt hbottom)]

end Rect

/-! ### Rows -/

namespace Snapshot

/-- The left panel has four rows, and one for the cruise gap. -/
theorem length_leftPanel (s : Snapshot) :
    s.leftPanel.length = 4 ∨ s.leftPanel.length = 5 := by
  unfold leftPanel
  split
  · exact .inr rfl
  · exact .inl rfl

/-- The right panel has a row, one or two more for the power, and two for the position. -/
theorem length_rightPanel (s : Snapshot) :
    2 ≤ s.rightPanel.length ∧ s.rightPanel.length ≤ 5 := by
  have hpower : s.powerRows.length = 1 ∨ s.powerRows.length = 2 := by
    unfold powerRows
    dsimp only
    split
    · exact .inl rfl
    · exact .inr rfl
  have hposition : s.positionRows.length = 0 ∨ s.positionRows.length = 2 := by
    unfold positionRows
    dsimp only
    split
    · exact .inl rfl
    · exact .inr rfl
  rw [rightPanel, List.length_cons, List.length_append]
  omega

end Snapshot

namespace Layout

/-! ### Boxes -/

/-- The boxes of the instruments, with side panels of so many rows. -/
def boxes (l : Layout) (left right : ℕ) : List Rect :=
  [l.faceIcon, l.wheelIcon, l.leftPanel left, l.rightPanel right, l.tirePanel, l.cruiseBox] ++
    Button.all.map l.button

variable {l : Layout} {left right : ℕ}

theorem boxes_eq (l : Layout) (left right : ℕ) : l.boxes left right =
    [⟨30, 30, 180, 180⟩, ⟨l.width - 210, 30, 180, 180⟩, ⟨30, 230, 180, 104 * left⟩,
      ⟨l.width - 210, 230, 180, 104 * right⟩, ⟨l.width - 210, l.height - 310, 180, 130⟩,
      ⟨30, l.height - 232, 184, 202⟩, ⟨l.width - 190, l.height - 175, 140, 140⟩,
      ⟨l.width - 350, l.height - 175, 140, 140⟩, ⟨l.width - 510, l.height - 175, 140, 140⟩] := by
  have hradius : iconSize.tdiv 2 = 90 := rfl
  simp only [boxes, Button.all, List.map_cons, List.map_nil, List.cons_append, List.nil_append,
    faceIcon, wheelIcon, Rect.centered, hradius, leftPanel, rightPanel, tirePanel, cruiseBox, button,
    Button.slot, List.cons.injEq, Rect.mk.injEq, and_true]
  unfold iconSize border panelWidth
  omega

/-- The boxes have room beside and above each other. -/
theorem pairwise_boxes (hw : 724 ≤ l.width) (hh : 1060 ≤ l.height) (hleft : left ≤ 5)
    (hright : right ≤ 5) : (l.boxes left right).Pairwise Rect.Apart := by
  rw [boxes_eq]
  simp only [List.pairwise_cons, List.forall_mem_cons, Rect.Apart, Rect.right, Rect.bottom,
    List.not_mem_nil, IsEmpty.forall_iff, implies_true, List.Pairwise.nil, and_true]
  omega

/-- The boxes are on the surface. -/
theorem fits_boxes (hw : 724 ≤ l.width) (hh : 1060 ≤ l.height) (hleft : 0 < left ∧ left ≤ 5)
    (hright : 0 < right ∧ right ≤ 5) : ∀ r ∈ l.boxes left right, r.Fits l.surface := by
  have hedges : ∀ r ∈ l.boxes left right, (0 < r.w ∧ 0 < r.h) ∧
      (0 ≤ r.x ∧ r.right ≤ l.width) ∧ 0 ≤ r.y ∧ r.bottom ≤ l.height := by
    rw [boxes_eq]
    simp only [List.forall_mem_cons, Rect.right, Rect.bottom, List.not_mem_nil, IsEmpty.forall_iff,
      implies_true, and_true]
    omega
  intro r hr
  obtain ⟨⟨hrw, hrh⟩, hx, hy⟩ := hedges r hr
  apply Rect.fits_of_edges hrw hrh
  · simpa [surface, Rect.right] using hx
  · simpa [surface, Rect.bottom] using hy

/-! ### Anchors -/

/-- The baseline of the caption under a value. -/
def captionAnchor (anchor : Point) : Point :=
  ⟨anchor.x, anchor.y + 35⟩

/-- The rows of a panel are a little lower than its height has it, but the last one is still
inside. -/
theorem contains_row {x : ℤ} (hx : 0 ≤ x ∧ x ≤ 2 ^ 23) {rows row : ℕ} (hrows : rows ≤ 5)
    (hrow : row < rows) :
    let panel : Rect := ⟨x, border + 200, panelWidth, 104 * rows⟩
    panel.contains (rowAnchor panel row) = true ∧
      panel.contains (captionAnchor (rowAnchor panel row)) = true := by
  intro panel
  have hcenter : panel.centerX = x + 90 := rfl
  have hanchor : IsWhole (panel.centerX - 10) (rowAnchor panel row).x :=
    isWhole_ofInt (by omega)
  have hvalue : IsWhole (border + 260 + 100 * row) (rowAnchor panel row).y :=
    isWhole_ofInt (by unfold border; omega)
  have hcaption : IsWhole (border + 260 + 100 * row + 35) (captionAnchor (rowAnchor panel row)).y :=
    hvalue.add (isWhole_ofNat (n := 35) (by norm_num)) (by unfold border; omega)
  rw [hcenter] at hanchor
  rw [Rect.contains_iff hanchor hvalue, Rect.contains_iff (p := captionAnchor _) hanchor hcaption]
  all_goals simp only [panel, Rect.Holds, Rect.right, Rect.bottom, border, panelWidth]
  all_goals omega

/-! ### The law -/

/-- On every surface of at least 724 by 1060 pixels: the side panels of a snapshot have four or five
rows, and two to five; with so many rows, no two boxes of the instruments have a pixel in common and
all of them lie on the surface; and the values and captions of all rows are anchored in their
panel. -/
theorem boxes_law (width height : ℕ) (hw : 724 ≤ width ∧ width < 2 ^ 23)
    (hh : 1060 ≤ height ∧ height < 2 ^ 23) (s : Snapshot) :
    let l := ofSize width height
    let left := s.leftPanel.length
    let right := s.rightPanel.length
    (left = 4 ∨ left = 5) ∧ (2 ≤ right ∧ right ≤ 5) ∧
      (l.boxes left right).Pairwise (fun r r' => ∀ x y, ¬(r.Holds x y ∧ r'.Holds x y)) ∧
      (∀ r ∈ l.boxes left right, r.Fits l.surface) ∧
      (∀ row < left, (l.leftPanel left).contains (rowAnchor (l.leftPanel left) row) = true ∧
        (l.leftPanel left).contains (captionAnchor (rowAnchor (l.leftPanel left) row)) = true) ∧
      ∀ row < right, (l.rightPanel right).contains (rowAnchor (l.rightPanel right) row) = true ∧
        (l.rightPanel right).contains (captionAnchor (rowAnchor (l.rightPanel right) row)) = true := by
  intro l left right
  have hleft : left = 4 ∨ left = 5 := s.length_leftPanel
  have hright : 2 ≤ right ∧ right ≤ 5 := s.length_rightPanel
  have hl : l = ⟨width, height⟩ := by
    have hw' : signed32 width = width := signed32_of_isSigned32 ⟨by omega, by omega⟩
    have hh' : signed32 height = height := signed32_of_isSigned32 ⟨by omega, by omega⟩
    simp only [l, ofSize, hw', hh']
  have hlw : l.width = width := by rw [hl]
  have hlh : l.height = height := by rw [hl]
  have hapart : (l.boxes left right).Pairwise Rect.Apart :=
    pairwise_boxes (by omega) (by omega) (by omega) hright.2
  refine ⟨hleft, hright, hapart.imp Rect.Apart.not_holds, ?_, ?_, ?_⟩
  · exact fits_boxes (by omega) (by omega) (by omega) (by omega)
  · intro row hrow
    exact contains_row (x := border) ⟨by decide, by norm_num [border]⟩ (by omega) hrow
  · intro row hrow
    have hx : 0 ≤ l.width - border - panelWidth ∧ l.width - border - panelWidth ≤ 2 ^ 23 := by
      unfold border panelWidth
      omega
    exact contains_row hx hright.2 hrow

/-- The smallest surface, and a snapshot with the longest panels. -/
theorem boxes_law_smallest :
    let s : Snapshot := { longitudinal := { enabled := true }, device := { gpsAccuracy := 1 } }
    let l := ofSize 724 1060
    s.leftPanel.length = 5 ∧ s.rightPanel.length = 5 ∧
      (l.boxes 5 5).Pairwise (fun r r' => ∀ x y, ¬(r.Holds x y ∧ r'.Holds x y)) := by
  intro s l
  have hleft : s.leftPanel.length = 5 := rfl
  have hright : s.rightPanel.length = 5 := by decide +kernel
  obtain ⟨-, -, hpairwise, -⟩ := boxes_law 724 1060 (by norm_num) (by norm_num) s
  rw [hleft, hright] at hpairwise
  exact ⟨hleft, hright, hpairwise⟩

end Layout

end DriveOverlay
