import DriveOverlay.Proofs.Surface.Outcomes
import Mathlib.Data.Rat.Floor

/-! # Scaled camera images

A pixel shows that column of a camera image which lies in the same proportion of its width as the
pixel does in the width of the destination, cut to a whole number, and likewise for the rows.

* `Samples`, `samples`: what this comes to along one axis: no index is out of range, none is passed
  over when the destination is large enough, and none goes backwards;
* `Rect.intersect_eq_overlap`, `visits_intersect_iff`: which pixels are visited, computed in 32 bits;
* `intersect_farApart`: rectangles without a point in common that overlap all the same;
* `scaling_law`: a canvas shows a camera image in just this way. -/

namespace DriveOverlay

/-! ### One axis -/

/-- The column or row of an image with `count` of them that a place shows in a stretch from `start`
of a given size. -/
def sourceIndex (count : ℕ) (start size place : ℤ) : ℤ :=
  ⌊((place - start) * count / size : ℚ)⌋

/-- A stretch shows the columns or rows of an image in order, each index being in range before it is
cut, and computed without overflow. -/
structure Samples (count : ℕ) (start size : ℤ) : Prop where
  index_eq : ∀ place, start ≤ place → place < start + size →
    (Canvas.sampleIndex (place - start) count size : ℤ) = sourceIndex count start size place
  min_idle : ∀ place, start ≤ place → place < start + size →
    (place - start).toNat * count / size.toNat ≤ count - 1
  product_lt : ∀ place, start ≤ place → place < start + size → (place - start) * count < 2 ^ 63
  nonneg : ∀ place, start ≤ place → 0 ≤ sourceIndex count start size place
  lt_count : ∀ place, place < start + size → sourceIndex count start size place < count
  mono : ∀ place place', place ≤ place' →
    sourceIndex count start size place ≤ sourceIndex count start size place'
  onto : count ≤ size → ∀ i < count, ∃ place, (start ≤ place ∧ place < start + size) ∧
    sourceIndex count start size place = i

section

variable {count : ℕ} {start size : ℤ}

theorem sourceIndex_nonneg (hs : 0 < size) {place : ℤ} (h : start ≤ place) :
    0 ≤ sourceIndex count start size place := by
  have hs' : (0 : ℚ) < size := by exact_mod_cast hs
  have h' : (start : ℚ) ≤ place := by exact_mod_cast h
  exact Int.floor_nonneg.mpr (div_nonneg (mul_nonneg (sub_nonneg.mpr h') (Nat.cast_nonneg _)) hs'.le)

theorem sourceIndex_lt (hc : 0 < count) (hs : 0 < size) {place : ℤ} (h : place < start + size) :
    sourceIndex count start size place < count := by
  have hs' : (0 : ℚ) < size := by exact_mod_cast hs
  have hc' : (0 : ℚ) < count := by exact_mod_cast hc
  have h' : (place : ℚ) < start + size := by exact_mod_cast h
  rw [sourceIndex, Int.floor_lt, Int.cast_natCast, div_lt_iff₀ hs', mul_comm (count : ℚ)]
  exact mul_lt_mul_of_pos_right (by linarith) hc'

theorem sourceIndex_mono (hs : 0 < size) {place place' : ℤ} (h : place ≤ place') :
    sourceIndex count start size place ≤ sourceIndex count start size place' := by
  have hs' : (0 : ℚ) < size := by exact_mod_cast hs
  have h' : (place : ℚ) ≤ place' := by exact_mod_cast h
  refine Int.floor_mono (div_le_div_of_nonneg_right ?_ hs'.le)
  exact mul_le_mul_of_nonneg_right (by linarith) (Nat.cast_nonneg _)

theorem exists_sourceIndex_eq (hs : count ≤ size) {i : ℕ} (hi : i < count) :
    ∃ place, (start ≤ place ∧ place < start + size) ∧ sourceIndex count start size place = i := by
  have hc' : (0 : ℚ) < count := by exact_mod_cast Nat.zero_lt_of_lt hi
  have hcs : (count : ℚ) ≤ size := by exact_mod_cast hs
  have hs' : (0 : ℚ) < size := hc'.trans_le hcs
  have hi' : (i : ℚ) ≤ count - 1 := by
    rw [le_sub_iff_add_le]
    exact_mod_cast hi
  obtain ⟨o, ho⟩ : ∃ o : ℤ, ⌈(i * size / count : ℚ)⌉ = o := ⟨_, rfl⟩
  have hlo : (i * size / count : ℚ) ≤ o := ho ▸ Int.le_ceil _
  have hhi : (o : ℚ) < i * size / count + 1 := ho ▸ Int.ceil_lt_add_one _
  have h0 : 0 ≤ o := by
    rw [← ho]
    exact Int.ceil_nonneg (div_nonneg (mul_nonneg (Nat.cast_nonneg _) hs'.le) hc'.le)
  have hlast : o ≤ size - 1 := by
    rw [← ho, Int.ceil_le, div_le_iff₀ hc']
    push_cast
    nlinarith
  rw [div_le_iff₀ hc'] at hlo
  rw [← sub_lt_iff_lt_add, lt_div_iff₀ hc'] at hhi
  refine ⟨start + o, ⟨by omega, by omega⟩, ?_⟩
  rw [sourceIndex, Int.floor_eq_iff]
  push_cast
  rw [add_sub_cancel_left, le_div_iff₀ hs', div_lt_iff₀ hs']
  constructor
  · exact hlo
  · linarith

theorem quotient_eq_sourceIndex (hs : 0 < size) {place : ℤ} (h : start ≤ place) :
    (((place - start).toNat * count / size.toNat : ℕ) : ℤ) = sourceIndex count start size place := by
  obtain ⟨o, rfl⟩ : ∃ o : ℕ, place = start + o := ⟨(place - start).toNat, by omega⟩
  obtain ⟨n, rfl⟩ : ∃ n : ℕ, size = n := ⟨size.toNat, by omega⟩
  rw [add_sub_cancel_left, Int.toNat_natCast, Int.toNat_natCast, Int.natCast_ediv,
    ← Rat.floor_intCast_div_natCast, sourceIndex]
  congr 1
  push_cast
  rw [add_sub_cancel_left]

/-- Along each axis of a scaled image. -/
theorem samples (hc : 0 < count) (hc' : count < 2 ^ 32) (hs : 0 < size) (hs' : size < 2 ^ 31) :
    Samples count start size := by
  have hidle (place : ℤ) (h : start ≤ place) (h' : place < start + size) :
      (place - start).toNat * count / size.toNat ≤ count - 1 := by
    have hlt := sourceIndex_lt hc hs h'
    rw [← quotient_eq_sourceIndex hs h] at hlt
    omega
  exact {
    index_eq := fun place h h' => by
      rw [Canvas.sampleIndex, min_eq_left (hidle place h h'), quotient_eq_sourceIndex hs h]
    min_idle := hidle
    product_lt := fun place h h' => by
      have hp : (place - start) * count ≤ (2 ^ 31 - 1) * (2 ^ 32 - 1) :=
        mul_le_mul (by omega) (by omega) (by omega) (by norm_num)
      omega
    nonneg := fun place h => sourceIndex_nonneg hs h
    lt_count := fun place h => sourceIndex_lt hc hs h
    mono := fun place place' h => sourceIndex_mono hs h
    onto := fun h i hi => exists_sourceIndex_eq h hi }

end

/-! ### Rectangles in 32 bits -/

namespace Rect

/-- The numbers of a rectangle and its edges are of 32 bits. -/
structure IsSigned32 (r : Rect) : Prop where
  left : DriveOverlay.IsSigned32 r.x
  top : DriveOverlay.IsSigned32 r.y
  width : DriveOverlay.IsSigned32 r.w
  height : DriveOverlay.IsSigned32 r.h
  right : DriveOverlay.IsSigned32 r.right
  bottom : DriveOverlay.IsSigned32 r.bottom

/-- Neither rectangle ends more than `2 ^ 31` pixels before the other begins. -/
def IsNear (r s : Rect) : Prop :=
  -2 ^ 31 ≤ min r.right s.right - max r.x s.x ∧ -2 ^ 31 ≤ min r.bottom s.bottom - max r.y s.y

/-- A loop over the columns and rows of the rectangle comes to the pixel; where they end is computed in
32 bits. -/
def Visits (r : Rect) (x y : ℕ) : Prop :=
  (r.x ≤ x ∧ x < signed32 r.right) ∧ r.y ≤ y ∧ y < signed32 r.bottom

variable {r s : Rect}

/-- Of rectangles that are near each other the overlap is computed without loss. -/
theorem intersect_eq_overlap (hr : r.IsSigned32) (hs : s.IsSigned32) (h : r.IsNear s) :
    r.intersect s = r.overlap s := by
  have hside {start size a b : ℤ} (ha : start ≤ a) (hsize : size < 2 ^ 31)
      (hb : b ≤ start + size) (hnear : -2 ^ 31 ≤ b - a) : signed32 (b - a) = b - a :=
    signed32_of_isSigned32 ⟨hnear, by omega⟩
  have hwidth := hside (le_max_left r.x s.x) hr.width.2 (min_le_left r.right s.right) h.1
  have hheight := hside (le_max_left r.y s.y) hr.height.2 (min_le_left r.bottom s.bottom) h.2
  simp only [intersect, overlap, signed32_of_isSigned32 hr.right, signed32_of_isSigned32 hs.right,
    signed32_of_isSigned32 hr.bottom, signed32_of_isSigned32 hs.bottom, hwidth, hheight]

end Rect

/-- One axis of two overlaps, the second with the canvas: where the stretches are so far apart that
the first has a positive size, the second ends before it begins. -/
theorem visits_axis {start stop start' stop' size : ℤ} (hstart : IsSigned32 start)
    (hstop : IsSigned32 stop) (hstart' : IsSigned32 start') (hstop' : IsSigned32 stop')
    (hlength : stop - start < 2 ^ 31) (hsize : 0 ≤ size ∧ size < 2 ^ 31) {x : ℤ}
    (hx : 0 ≤ x ∧ x < size) :
    let first := max start start'
    let length := max (signed32 (min stop stop' - first)) 0
    let second := max first 0
    let length' := max (signed32 (min (signed32 (first + length)) size - second)) 0
    second ≤ x ∧ x < signed32 (second + length') ↔
      (start ≤ x ∧ x < stop) ∧ start' ≤ x ∧ x < stop' := by
  intro first length second length'
  obtain ⟨last, hlast⟩ : ∃ last, last = min stop stop' := ⟨_, rfl⟩
  unfold IsSigned32 at hstart hstop hstart' hstop'
  have hfirst : IsSigned32 first := ⟨by omega, by omega⟩
  have hlast' : IsSigned32 last := ⟨by omega, by omega⟩
  unfold IsSigned32 at hfirst hlast'
  rcases le_or_gt (-2 ^ 31) (last - first) with hnear | hfar
  · have h₁ : signed32 (last - first) = last - first :=
      signed32_of_isSigned32 ⟨by omega, by omega⟩
    have hl : length = max (last - first) 0 := by rw [← h₁, hlast]
    have h₂ : signed32 (first + length) = first + length :=
      signed32_of_isSigned32 ⟨by omega, by omega⟩
    have h₃ : signed32 (min (first + length) size - second) = min (first + length) size - second :=
      signed32_of_isSigned32 ⟨by omega, by omega⟩
    have hl' : length' = max (min (first + length) size - second) 0 := by rw [← h₃, ← h₂]
    rw [signed32_of_isSigned32 ⟨by omega, by omega⟩]
    omega
  · -- both sums come back to the end of the stretches, which is before they begin
    have h₁ : signed32 (last - first) = last - first + 4294967296 := by
      rw [← signed32_add_period]
      exact signed32_of_isSigned32 ⟨by omega, by omega⟩
    have hl : length = last - first + 4294967296 := by
      rw [← h₁, hlast]
      exact max_eq_left (by rw [← hlast, h₁]; omega)
    have h₂ : signed32 (first + length) = last := by
      rw [hl, show first + (last - first + 4294967296) = last + 4294967296 by omega,
        signed32_add_period]
      exact signed32_of_isSigned32 hlast'
    have hl' : length' = length := by
      have h₃ : min last size - second = last - first := by omega
      show max (signed32 (min (signed32 (first + length)) size - second)) 0 = length
      rw [h₂, h₃, hlast]
    have h₄ : second = first := by omega
    rw [hl', h₄, h₂]
    omega

/-! ### Canvases -/

namespace Canvas

variable {c : Canvas} {frame : VideoFrame} {dest clip : Rect}

/-- The pixels of the canvas that are visited in the two overlaps are those of destination and
clip. -/
theorem visits_intersect_iff (hd : dest.IsSigned32) (hc : clip.IsSigned32)
    (hw : c.width < 2 ^ 31) (hh : c.height < 2 ^ 31) {x y : ℕ} (hx : x < c.width)
    (hy : y < c.height) :
    ((dest.intersect clip).intersect c.bounds).Visits x y ↔ dest.Has x y ∧ clip.Has x y := by
  have hright : signed32 c.bounds.right = c.width := by
    show signed32 (0 + c.width) = c.width
    rw [zero_add]
    exact signed32_of_isSigned32 ⟨by omega, by omega⟩
  have hbottom : signed32 c.bounds.bottom = c.height := by
    show signed32 (0 + c.height) = c.height
    rw [zero_add]
    exact signed32_of_isSigned32 ⟨by omega, by omega⟩
  have hlength : dest.right - dest.x < 2 ^ 31 ∧ dest.bottom - dest.y < 2 ^ 31 := by
    have hwidth := hd.width.2
    have hheight := hd.height.2
    unfold Rect.right Rect.bottom
    omega
  have hsize : (0 : ℤ) ≤ c.width ∧ (c.width : ℤ) < 2 ^ 31 := ⟨by omega, by omega⟩
  have hsize' : (0 : ℤ) ≤ c.height ∧ (c.height : ℤ) < 2 ^ 31 := ⟨by omega, by omega⟩
  have hacross := visits_axis hd.left hd.right hc.left hc.right hlength.1 hsize
    (x := x) ⟨by omega, by omega⟩
  have hdown := visits_axis hd.top hd.bottom hc.top hc.bottom hlength.2 hsize'
    (x := y) ⟨by omega, by omega⟩
  have hvisits : ((dest.intersect clip).intersect c.bounds).Visits x y ↔
      ((dest.x ≤ x ∧ (x : ℤ) < dest.right) ∧ clip.x ≤ x ∧ (x : ℤ) < clip.right) ∧
        (dest.y ≤ y ∧ (y : ℤ) < dest.bottom) ∧ clip.y ≤ y ∧ (y : ℤ) < clip.bottom := by
    unfold Rect.Visits
    rw [Rect.intersect, hright, hbottom]
    rw [Rect.intersect, signed32_of_isSigned32 hd.right, signed32_of_isSigned32 hd.bottom,
      signed32_of_isSigned32 hc.right, signed32_of_isSigned32 hc.bottom]
    exact and_congr hacross hdown
  exact hvisits.trans and_and_and_comm

theorem samples_blit (hf : frame.check = .ok ()) (hd : dest.isEmpty = false)
    (hw : dest.w < 2 ^ 31) (hh : dest.h < 2 ^ 31) :
    Samples frame.width.toNat dest.x dest.w ∧ Samples frame.height.toNat dest.y dest.h := by
  obtain ⟨hcolumns, hrows⟩ := VideoFrame.size_pos_of_check hf
  rw [Rect.isEmpty_eq_false_iff] at hd
  constructor
  · exact samples hcolumns frame.width.toNat_lt hd.1 hw
  · exact samples hrows frame.height.toNat_lt hd.2 hh

/-- Inside the clip, the destination shows the pixels of the image in the same proportion, if their
bytes are there. -/
theorem get?_blit (hx : Samples frame.width.toNat dest.x dest.w)
    (hy : Samples frame.height.toNat dest.y dest.h) {x y : ℕ} (hin : dest.Has x y ∧ clip.Has x y) :
    ∃ i j : ℕ, (sourceIndex frame.width.toNat dest.x dest.w x = i ∧ i < frame.width.toNat) ∧
      (sourceIndex frame.height.toNat dest.y dest.h y = j ∧ j < frame.height.toNat) ∧
      (c.blit frame dest clip).get? x y = (c.get? x y).map (frame.colorAt? i j).getD := by
  obtain ⟨⟨⟨hx₁, hx₂⟩, hy₁, hy₂⟩, -⟩ := id hin
  have hcolumn := hx.lt_count x hx₂
  have hrow := hy.lt_count y hy₂
  rw [← hx.index_eq x hx₁ hx₂] at hcolumn ⊢
  rw [← hy.index_eq y hy₁ hy₂] at hrow ⊢
  refine ⟨_, _, ⟨rfl, by omega⟩, ⟨rfl, by omega⟩, ?_⟩
  rw [(paints_blit frame dest clip).get?_eq]
  exact congrArg (Option.map · _) (funext fun below => if_pos hin)

theorem get?_blit_of_outside {x y : ℕ} (h : ¬(dest.Has x y ∧ clip.Has x y)) :
    (c.blit frame dest clip).get? x y = c.get? x y := by
  have hsame : Command.rule (.blit frame dest clip) x y = id := by
    funext below
    exact if_neg h
  rw [(paints_blit frame dest clip).get?_eq, hsame, Option.map_id_fun, id]

theorem exists_get?_blit (hf : frame.Valid) (hx : Samples frame.width.toNat dest.x dest.w)
    (hy : Samples frame.height.toNat dest.y dest.h) {x y : ℕ}
    (hon : x < c.width ∧ y < c.height) (hin : dest.Has x y ∧ clip.Has x y) :
    ∃ p, (c.blit frame dest clip).get? x y = some p ∧
      frame.Shows (sourceIndex frame.width.toNat dest.x dest.w x)
        (sourceIndex frame.height.toNat dest.y dest.h y) p := by
  obtain ⟨i, j, ⟨hi, hi'⟩, ⟨hj, hj'⟩, hp⟩ := get?_blit (c := c) hx hy hin
  obtain ⟨below, hbelow⟩ := get?_eq_some hon.1 hon.2
  obtain ⟨color, hcolor⟩ := hf.exists_colorAt? hi' hj'
  rw [hbelow, hcolor] at hp
  rw [hi, hj]
  exact ⟨color, hp, VideoFrame.shows_of_colorAt? hi' hj' hcolor⟩

/-- The destination lies inside the clip and on the canvas. -/
def Unclipped (c : Canvas) (dest clip : Rect) : Prop :=
  ∀ x y, dest.Holds x y → clip.Holds x y ∧ c.bounds.Holds x y

theorem Unclipped.exists_pixel (h : c.Unclipped dest clip) {x y : ℤ} (hd : dest.Holds x y) :
    ∃ i j : ℕ, i = x ∧ j = y ∧ (i < c.width ∧ j < c.height) ∧ dest.Has i j ∧ clip.Has i j := by
  obtain ⟨hc, ⟨hx₁, hx₂⟩, hy₁, hy₂⟩ := h x y hd
  obtain ⟨i, rfl⟩ := Int.eq_ofNat_of_zero_le hx₁
  obtain ⟨j, rfl⟩ := Int.eq_ofNat_of_zero_le hy₁
  simp only [bounds, Rect.right, Rect.bottom] at hx₂ hy₂
  exact ⟨i, j, rfl, rfl, ⟨by omega, by omega⟩, hd, hc⟩

/-- Where nothing is clipped, a destination of enough columns has one for each of the image. -/
theorem Unclipped.exists_column (h : c.Unclipped dest clip) (hd : dest.isEmpty = false)
    (hx : Samples frame.width.toNat dest.x dest.w) (hle : frame.width.toNat ≤ dest.w) {i : ℕ}
    (hi : i < frame.width.toNat) :
    ∃ x y : ℕ, (x < c.width ∧ y < c.height) ∧ (dest.Has x y ∧ clip.Has x y) ∧
      sourceIndex frame.width.toNat dest.x dest.w x = i := by
  rw [Rect.isEmpty_eq_false_iff] at hd
  obtain ⟨place, hplace, hi⟩ := hx.onto hle i hi
  have hfirst : dest.Holds place dest.y := ⟨hplace, le_rfl, lt_add_of_pos_right _ hd.2⟩
  obtain ⟨x, y, rfl, -, hon, hin⟩ := h.exists_pixel hfirst
  exact ⟨x, y, hon, hin, hi⟩

theorem Unclipped.exists_row (h : c.Unclipped dest clip) (hd : dest.isEmpty = false)
    (hy : Samples frame.height.toNat dest.y dest.h) (hle : frame.height.toNat ≤ dest.h) {j : ℕ}
    (hj : j < frame.height.toNat) :
    ∃ x y : ℕ, (x < c.width ∧ y < c.height) ∧ (dest.Has x y ∧ clip.Has x y) ∧
      sourceIndex frame.height.toNat dest.y dest.h y = j := by
  rw [Rect.isEmpty_eq_false_iff] at hd
  obtain ⟨place, hplace, hj⟩ := hy.onto hle j hj
  have hfirst : dest.Holds dest.x place := ⟨⟨le_rfl, lt_add_of_pos_right _ hd.1⟩, hplace⟩
  obtain ⟨x, y, -, rfl, hon, hin⟩ := h.exists_pixel hfirst
  exact ⟨x, y, hon, hin, hj⟩

/-- Two rectangles of 32 bits that have no point in common, and an overlap with points; and a camera
image that is not refused, and is read beyond its end. -/
theorem intersect_farApart :
    let r : Rect := ⟨2147483638, 0, 5, 5⟩
    let s : Rect := ⟨-2147483648, 0, 5, 5⟩
    (r.IsSigned32 ∧ s.IsSigned32 ∧ (r.intersect s).Holds 2147483638 0 ∧
        ¬s.Holds 2147483638 0) ∧
      uncountable.check = .ok () ∧ (filled 1 1 (Palette.black 255)).breaksDown
        (.blit uncountable ⟨0, 0, 1, 1⟩ ⟨0, 0, 1, 1⟩) = true := by
  intro r s
  refine ⟨⟨?_, ?_, ?_, ?_⟩, rfl, breaksDown_uncountable (x := 0) (y := 0) (by simp) (by simp)
    (by decide) (by decide)⟩
  · constructor <;> decide
  · constructor <;> decide
  · unfold Rect.Holds
    decide
  · unfold Rect.Holds
    decide

/-- A camera image without a fault that needs fewer than `2 ^ 64` bytes, and rectangles of 32 bits: the
command goes through; each pixel of the destination inside the clip shows the pixel of the image in
the same proportion, and every other pixel stays.  Along each axis the indices are in range and in
order, every byte that is read is one of the image, and where nothing is clipped and the destination
is large enough, no column and no row is passed over.  The overlap of destination and clip has the
points that are in both, unless they are far apart; and the pixels that are visited for it and for the
canvas are those of both in any case. -/
theorem scaling_law {c : Canvas} {frame : VideoFrame} {dest clip : Rect}
    (hf : frame.check = .ok ()) (hb : frame.byteCount < 2 ^ 64) (he : dest.isEmpty = false)
    (hd : dest.IsSigned32) (hc : clip.IsSigned32) (hw : c.width < 2 ^ 31)
    (hh : c.height < 2 ^ 31) :
    let column := sourceIndex frame.width.toNat dest.x dest.w
    let row := sourceIndex frame.height.toNat dest.y dest.h
    (∃ c', c.attempt? (.blit frame dest clip) = some (.ok (), c') ∧
        (c'.width = c.width ∧ c'.height = c.height) ∧
        (∀ x y, x < c.width ∧ y < c.height → dest.Has x y ∧ clip.Has x y →
          ∃ p, c'.get? x y = some p ∧ frame.Shows (column x) (row y) p) ∧
        ∀ x y, ¬(dest.Has x y ∧ clip.Has x y) → c'.get? x y = c.get? x y) ∧
      (Samples frame.width.toNat dest.x dest.w ∧ Samples frame.height.toNat dest.y dest.h) ∧
      (∀ i < frame.width.toNat, ∀ j < frame.height.toNat,
        frame.offset i j = (j * frame.width.toNat + i) * frame.channels.toNat ∧
          frame.offset i j + 2 < frame.bytes.size) ∧
      (c.Unclipped dest clip →
        (frame.width.toNat ≤ dest.w → ∀ i < frame.width.toNat, ∃ x y : ℕ,
          (x < c.width ∧ y < c.height) ∧ (dest.Has x y ∧ clip.Has x y) ∧ column x = i) ∧
        (frame.height.toNat ≤ dest.h → ∀ j < frame.height.toNat, ∃ x y : ℕ,
          (x < c.width ∧ y < c.height) ∧ (dest.Has x y ∧ clip.Has x y) ∧ row y = j)) ∧
      (∀ r s : Rect, r.IsSigned32 → s.IsSigned32 → r.IsNear s →
        ∀ x y : ℤ, (r.intersect s).Holds x y ↔ r.Holds x y ∧ s.Holds x y) ∧
      ∀ x < c.width, ∀ y < c.height,
        ((dest.intersect clip).intersect c.bounds).Visits x y ↔ dest.Has x y ∧ clip.Has x y := by
  intro column row
  have hv := VideoFrame.valid_of_check hf hb
  obtain ⟨hx, hy⟩ := samples_blit hf he hd.width.2 hd.height.2
  have hp := paints_blit frame dest clip
  refine ⟨⟨c.blit frame dest clip, ?_, ⟨hp.width_eq c, hp.height_eq c⟩, ?_, ?_⟩, ⟨hx, hy⟩, ?_, ?_,
    ?_, ?_⟩
  · have hcheck : (Command.blit frame dest clip).check = .ok () := by
      rw [Command.check, hf]
      rfl
    have hsteady : ¬(Command.blit frame dest clip).MayBreakDown := not_le.mpr hb
    rw [attempt?_of_steady hsteady, draw_of_check hcheck, paint]
  · intro x y hon hin
    exact exists_get?_blit hv hx hy hon hin
  · intro x y hout
    exact get?_blit_of_outside hout
  · intro i hi j hj
    have hlast := hv.last_lt hi hj
    rw [← hv.offset_eq hi hj] at hlast
    exact ⟨hv.offset_eq hi hj, hlast⟩
  · intro hwhole
    exact ⟨fun hle i hi => hwhole.exists_column he hx hle hi,
      fun hle j hj => hwhole.exists_row he hy hle hj⟩
  · intro r s hr hs hnear x y
    rw [Rect.intersect_eq_overlap hr hs hnear]
    exact Rect.holds_overlap
  · intro x hx y hy
    exact visits_intersect_iff hd hc hw hh hx hy

/-- An image of two pixels side by side. -/
def twoColumns : VideoFrame :=
  ⟨2, 1, 3, ⟨#[10, 20, 30, 40, 50, 60]⟩⟩

/-- Scaled to twice its width, a pixel of it off the canvas and the last one clipped, it shows its
second column in the second pixel of the canvas. -/
theorem scaling_law_twoColumns :
    let c := filled 3 1 (Palette.black 255)
    let dest : Rect := ⟨-1, 0, 4, 1⟩
    let clip : Rect := ⟨0, 0, 2, 1⟩
    (twoColumns.check = .ok () ∧ twoColumns.byteCount < 2 ^ 64 ∧ dest.isEmpty = false ∧
        dest.IsSigned32 ∧ clip.IsSigned32 ∧ dest.IsNear clip) ∧
      (∃ c', c.attempt? (.blit twoColumns dest clip) = some (.ok (), c') ∧
        (∃ p, c'.get? 1 0 = some p ∧ twoColumns.Shows 1 0 p) ∧
        c'.get? 2 0 = some (Palette.black 255)) ∧
      (dest.intersect clip).Holds 1 0 := by
  intro c dest clip
  have hcheck : twoColumns.check = .ok () := by decide
  have hcount : twoColumns.byteCount < 2 ^ 64 := by decide
  have he : dest.isEmpty = false := by decide
  have hd : dest.IsSigned32 := by constructor <;> decide
  have hc : clip.IsSigned32 := by constructor <;> decide
  have hnear : dest.IsNear clip := by
    unfold Rect.IsNear
    decide
  obtain ⟨⟨c', hdraw, -, hshown, hkept⟩, -, -, -, hboth, -⟩ := scaling_law (c := c) hcheck hcount he
    hd hc (by simp [c]) (by simp [c])
  refine ⟨⟨hcheck, hcount, he, hd, hc, hnear⟩, ⟨c', hdraw, ?_, ?_⟩, ?_⟩
  · have hp := hshown 1 0 (by simp [c]) (by decide)
    have hcolumn : sourceIndex twoColumns.width.toNat dest.x dest.w (1 : ℕ) = 1 := by decide +kernel
    have hrow : sourceIndex twoColumns.height.toNat dest.y dest.h (0 : ℕ) = 0 := by decide +kernel
    rwa [hcolumn, hrow] at hp
  · rw [hkept 2 0 (by decide), get?_filled (by decide) (by decide)]
  · refine (hboth dest clip hd hc hnear 1 0).mpr ⟨?_, ?_⟩
    · unfold Rect.Holds
      decide
    · unfold Rect.Holds
      decide

end Canvas

end DriveOverlay
