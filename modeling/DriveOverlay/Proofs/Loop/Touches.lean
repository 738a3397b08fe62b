import DriveOverlay.Proofs.Loop.Agreement
import DriveOverlay.Proofs.Overlay.Boxes

/-! # Touches

The buttons stand beside each other, and rounding their edges to singles moves no edge past another
one, however large the surface is.  A point therefore lies in one button at most: it does not matter
in which order the buttons are looked through, and the alert on screen has no part in it.

* `Rect.contains_iff_index`: which points count as inside;
* `Rect.Apart.not_contains`, `Rect.contains_of_edges`: boxes beside each other and inside another
  one, with rounded edges;
* `Layout.firstAmong?_eq_some_iff`: which button is found, in any order;
* `Layout.touch_law`: all of it. -/

namespace DriveOverlay

open Single

/-! ### Rounded edges -/

namespace Rect

/-- The edges are no larger than what rounds to the nearest single. -/
structure HasNearestEdges (r : Rect) : Prop where
  left : r.x.natAbs < 2 ^ 64
  right : r.right.natAbs < 2 ^ 64
  top : r.y.natAbs < 2 ^ 64
  bottom : r.bottom.natAbs < 2 ^ 64

variable {r s : Rect} {p : Point}

/-- Points compare with the rounded edges like their indices; NaN is outside. -/
theorem contains_iff_index : r.contains p = true ↔ p.x.isNaN = false ∧ p.y.isNaN = false ∧
    (index (ofInt r.x) ≤ index p.x ∧ index p.x < index (ofInt r.right)) ∧
    index (ofInt r.y) ≤ index p.y ∧ index p.y < index (ofInt r.bottom) := by
  simp only [contains, Bool.and_eq_true, decide_eq_true_eq, le_iff, lt_iff, isNaN_ofInt, true_and]
  tauto

/-- Rounding moves no edge past one of a box beside it. -/
theorem Apart.not_contains (h : r.Apart s) (hr : r.HasNearestEdges) (hs : s.HasNearestEdges) :
    ¬(r.contains p = true ∧ s.contains p = true) := by
  rintro ⟨hp, hp'⟩
  obtain ⟨-, -, hx, hy⟩ := contains_iff_index.mp hp
  obtain ⟨-, -, hx', hy'⟩ := contains_iff_index.mp hp'
  rcases h with h | h | h | h
  · have := index_ofInt_mono hr.right hs.left h
    omega
  · have := index_ofInt_mono hs.right hr.left h
    omega
  · have := index_ofInt_mono hr.bottom hs.top h
    omega
  · have := index_ofInt_mono hs.bottom hr.top h
    omega

/-- Nor does it move an edge out of a box around it. -/
theorem contains_of_edges (hr : r.HasNearestEdges) (hs : s.HasNearestEdges)
    (hx : s.x ≤ r.x ∧ r.right ≤ s.right) (hy : s.y ≤ r.y ∧ r.bottom ≤ s.bottom)
    (hp : r.contains p = true) : s.contains p = true := by
  obtain ⟨hnx, hny, hpx, hpy⟩ := contains_iff_index.mp hp
  have hleft := index_ofInt_mono hs.left hr.left hx.1
  have hright := index_ofInt_mono hr.right hs.right hx.2
  have htop := index_ofInt_mono hs.top hr.top hy.1
  have hbottom := index_ofInt_mono hr.bottom hs.bottom hy.2
  refine contains_iff_index.mpr ⟨hnx, hny, ?_, ?_⟩ <;> omega

end Rect

namespace Layout

/-! ### Buttons -/

theorem button_eq (l : Layout) (b : Button) :
    l.button b = ⟨l.width - 190 - 160 * b.slot, l.height - 175, 140, 140⟩ := by
  simp only [button, border, Rect.mk.injEq, and_true]
  omega

theorem slot_mem (b : Button) : 0 ≤ b.slot ∧ b.slot ≤ 2 := by
  cases b <;> decide

theorem slot_injective : Function.Injective Button.slot := by
  intro b c h
  cases b <;> cases c <;> simp [Button.slot] at h ⊢

theorem apart_buttons (l : Layout) {b c : Button} (h : b ≠ c) :
    (l.button b).Apart (l.button c) := by
  have := slot_injective.ne h
  simp only [button_eq, Rect.Apart, Rect.right, Rect.bottom]
  omega

variable {l : Layout} {p : Point}

theorem hasNearestEdges_button (hw : l.width.natAbs ≤ 2 ^ 31) (hh : l.height.natAbs ≤ 2 ^ 31)
    (b : Button) : (l.button b).HasNearestEdges := by
  have := slot_mem b
  rw [button_eq]
  constructor <;> simp only [Rect.right, Rect.bottom] <;> omega

theorem eq_of_contains (hw : l.width.natAbs ≤ 2 ^ 31) (hh : l.height.natAbs ≤ 2 ^ 31) {b c : Button}
    (hb : (l.button b).contains p = true) (hc : (l.button c).contains p = true) : b = c := by
  by_contra h
  exact (l.apart_buttons h).not_contains (hasNearestEdges_button hw hh b)
    (hasNearestEdges_button hw hh c) ⟨hb, hc⟩

/-- The first button under a point, of those in a list. -/
def firstAmong? (l : Layout) (order : List Button) (p : Point) : Option Button :=
  if p.isFinite then order.find? fun b => (l.button b).contains p else none

/-- Where all buttons are looked through, the one is found that the point lies in. -/
theorem firstAmong?_eq_some_iff (hw : l.width.natAbs ≤ 2 ^ 31) (hh : l.height.natAbs ≤ 2 ^ 31)
    {order : List Button} (horder : ∀ b, b ∈ order) (b : Button) :
    l.firstAmong? order p = some b ↔ p.isFinite = true ∧ (l.button b).contains p = true := by
  unfold firstAmong?
  split
  · rename_i hp
    constructor
    · intro h
      have hb := List.find?_some h
      exact ⟨hp, hb⟩
    · rintro ⟨-, hb⟩
      have hsome : (order.find? fun b => (l.button b).contains p).isSome = true :=
        List.find?_isSome.mpr ⟨b, horder b, hb⟩
      obtain ⟨c, hc⟩ := Option.isSome_iff_exists.mp hsome
      have hc' := List.find?_some hc
      rw [hc, eq_of_contains hw hh hc' hb]
  · rename_i hp
    exact iff_of_false (Option.some_ne_none b).symm fun h => hp h.1

/-! ### Surfaces with room for the buttons -/

theorem fits_button (hw : 510 ≤ l.width) (hh : 175 ≤ l.height) (b : Button) :
    (l.button b).Fits l.surface := by
  have := slot_mem b
  rw [button_eq]
  apply Rect.fits_of_edges <;> simp only [surface, Rect.right, Rect.bottom] <;> omega

theorem full_banner_contains (hw : l.width.natAbs ≤ 2 ^ 31) (hh : l.height.natAbs ≤ 2 ^ 31)
    (hw' : 510 ≤ l.width) (hh' : 175 ≤ l.height) {b : Button}
    (hp : (l.button b).contains p = true) :
    ∃ r, l.banner? .full = some r ∧ r.contains p = true := by
  have hslot := slot_mem b
  have hsurface : l.surface.HasNearestEdges := by
    constructor <;> simp only [surface, Rect.right, Rect.bottom] <;> omega
  refine ⟨l.surface, ?_, Rect.contains_of_edges (hasNearestEdges_button hw hh b) hsurface ?_ ?_ hp⟩
  · simp [banner?, bannerHeight, surface]
  · rw [button_eq]
    simp only [surface, Rect.right]
    omega
  · rw [button_eq]
    simp only [surface, Rect.bottom]
    omega

/-! ### The law -/

/-- On every surface with sides of 32 bits and for every point, with NaN and infinite ones: the point
lies in one button at most, so that a button is found exactly when the point is finite and lies in
it, in whatever order the buttons are looked through, and after every run of the frame loop,
whatever its alerts were.  A surface of at least 510 by 175 pixels has all buttons inside, from left
to right, and the banner of a full alert, which is over them, takes no touch from them. -/
theorem touch_law (l : Layout) (hw : l.width.natAbs ≤ 2 ^ 31) (hh : l.height.natAbs ≤ 2 ^ 31)
    (p : Point) :
    (∀ b c, (l.button b).contains p = true → (l.button c).contains p = true → b = c) ∧
    (∀ b, l.buttonAt? p = some b ↔ p.isFinite = true ∧ (l.button b).contains p = true) ∧
    (∀ order : List Button, (∀ b, b ∈ order) → l.firstAmong? order p = l.buttonAt? p) ∧
    (∀ (settings : Settings) (actions : List (Pipeline.Action Canvas)),
      (OverlayRenderer.ofSettings settings).layout = l →
        (Pipeline.run settings actions).pipeline.buttonAt? p = l.buttonAt? p) ∧
    (510 ≤ l.width → 175 ≤ l.height →
      (∀ b, (l.button b).Fits l.surface) ∧
      (l.button .navigation).right ≤ (l.button .laneMode).x ∧
      (l.button .laneMode).right ≤ (l.button .record).x ∧
      ∀ b, (l.button b).contains p = true →
        ∃ r, l.banner? .full = some r ∧ r.contains p = true) := by
  have hall : ∀ b, b ∈ Button.all := by
    intro b
    cases b <;> decide
  have hfound : ∀ b, l.buttonAt? p = some b ↔ p.isFinite = true ∧ (l.button b).contains p = true :=
    firstAmong?_eq_some_iff hw hh hall
  refine ⟨fun b c => eq_of_contains hw hh, hfound, ?_, ?_, ?_⟩
  · intro order horder
    apply Option.ext
    intro b
    rw [firstAmong?_eq_some_iff hw hh horder, hfound]
  · intro settings actions hl
    rw [Pipeline.buttonAt?, Pipeline.renderer_run, hl]
  · intro hw' hh'
    refine ⟨fits_button hw' hh', ?_, ?_, fun b => full_banner_contains hw hh hw' hh'⟩
    · simp only [button_eq, Rect.right, Button.slot]
      omega
    · simp only [button_eq, Rect.right, Button.slot]
      omega

/-- On the largest surface the edges are rounded to multiples of 128, and the last button has one
column of points. -/
theorem touch_law_largest :
    let l : Layout := ⟨2147483647, 2147483647⟩
    let p : Point := ⟨2147483520, 2147483520⟩
    l.buttonAt? p = some .record ∧ l.firstAmong? [.navigation, .laneMode, .record] p = some .record := by
  intro l p
  obtain ⟨-, hfound, horder, -⟩ := touch_law l (by decide) (by decide) p
  have hrecord : l.buttonAt? p = some .record := (hfound .record).mpr (by decide +kernel)
  refine ⟨hrecord, (horder _ ?_).trans hrecord⟩
  intro b
  cases b <;> decide

end Layout

end DriveOverlay
