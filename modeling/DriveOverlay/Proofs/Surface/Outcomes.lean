import DriveOverlay.Proofs.Surface.Faults
import DriveOverlay.Proofs.Surface.Rules
import DriveOverlay.Surface.Breakdown

/-! # What becomes of a command

A command is carried out, is refused or breaks down.  A canvas refuses the commands that have a fault
and no others.  Only two kinds of commands can break down: those for shapes with round corners some
pixel of which lies between corners that have passed each other, and those for camera images that
need `2 ^ 64` bytes or more.

* `breaksDown_congr`: whether a command breaks down depends on the size of the canvas only;
* `mayBreakDown_of_breaksDown`: what must be the case for a command to break down;
* `attempt?_eq_some_iff`: a command that does not break down is carried out or refused;
* `attempt?_uncountable`: a camera image without bytes that is not refused;
* `refusal_law`: a canvas refuses exactly the faults, and then it stays as it was. -/

namespace DriveOverlay

open Scanline

/-! ### Corners and bytes -/

namespace Edges

theorem breaksDown_eq (e : Edges) (radius x y : Float32) :
    e.breaksDown radius x y = (e.encloses x y && !e.cornersInOrder radius) := by
  unfold breaksDown test?
  cases e.encloses x y with
  | false => rfl
  | true => cases e.cornersInOrder radius <;> rfl

/-- The middle of some pixel cannot be tested. -/
def MayBreakDown (e : Edges) (radius : Float32) : Prop :=
  ∃ x y : ℕ, e.breaksDown radius (middle x) (middle y) = true

end Edges

/-- What must be the case for a command to break down. -/
def Command.MayBreakDown : Command → Prop
  | .fillRoundedRect rect radius _ => (Edges.ofRect rect).MayBreakDown radius
  | .strokeRoundedRect rect radius pen _ =>
    ((Edges.ofRect rect).grow (pen / 2)).MayBreakDown (radius + pen / 2) ∨
      ((Edges.ofRect rect).shrink (pen / 2)).MayBreakDown (Single.upper (radius - pen / 2) 0)
  | .blit frame _ _ => 2 ^ 64 ≤ frame.byteCount
  | _ => False

namespace Canvas

variable {c c' : Canvas} {command : Command}

/-! ### Pixels -/

theorem anyPixel_iff {rect : Rect} {test : ℕ → ℕ → Bool} : c.anyPixel rect test = true ↔
    ∃ x y, (x < c.width ∧ y < c.height) ∧ rect.Has x y ∧ test x y = true := by
  simp only [anyPixel, List.any_eq_true, List.mem_range'_1, Rect.Has]
  constructor
  · rintro ⟨y, hy, x, hx, h⟩
    exact ⟨x, y, ⟨by omega, by omega⟩, ⟨⟨by omega, by omega⟩, by omega, by omega⟩, h⟩
  · rintro ⟨x, y, ⟨hx, hy⟩, ⟨⟨hx₁, hx₂⟩, hy₁, hy₂⟩, h⟩
    exact ⟨y, by omega, x, by omega, h⟩

theorem sampleIndex_lt {count : ℕ} (h : 0 < count) (offset size : ℤ) :
    sampleIndex offset count size < count := by
  have := Nat.min_le_right (offset.toNat * count / size.toNat) (count - 1)
  unfold sampleIndex
  omega

/-! ### Commands -/

/-- Whether a command breaks down depends on the size of a canvas only. -/
theorem breaksDown_congr (hw : c.width = c'.width) (hh : c.height = c'.height)
    (command : Command) : c.breaksDown command = c'.breaksDown command := by
  have hany (rect : Rect) (test : ℕ → ℕ → Bool) : c.anyPixel rect test = c'.anyPixel rect test := by
    unfold anyPixel
    rw [hw, hh]
  cases command <;> simp only [breaksDown, hany]

theorem mayBreakDown_of_breaksDown (h : c.breaksDown command = true) : command.MayBreakDown := by
  cases command with
  | fillRoundedRect rect radius color =>
      simp only [breaksDown, Bool.and_eq_true] at h
      obtain ⟨x, y, -, -, htest⟩ := anyPixel_iff.mp h.2
      exact ⟨x, y, htest⟩
  | strokeRoundedRect rect radius pen color =>
      simp only [breaksDown, Bool.and_eq_true] at h
      obtain ⟨x, y, -, -, htest⟩ := anyPixel_iff.mp h.2
      rcases Bool.or_eq_true_iff.mp htest with hout | hin
      · exact .inl ⟨x, y, hout⟩
      · exact .inr ⟨x, y, (Bool.and_eq_true_iff.mp hin).2⟩
  | blit frame dest clip =>
      simp only [breaksDown, Bool.and_eq_true] at h
      obtain ⟨⟨hok, -⟩, hany⟩ := h
      obtain ⟨x, y, -, -, hnone⟩ := anyPixel_iff.mp hany
      have hcheck : frame.check = .ok () := by
        cases hc : frame.check with
        | ok => rfl
        | error e =>
            rw [hc] at hok
            cases hok
      by_contra hcount
      have hv := VideoFrame.valid_of_check hcheck (not_le.mp hcount)
      obtain ⟨color, hcolor⟩ := hv.exists_colorAt? (sampleIndex_lt hv.width_pos (x - dest.x) dest.w)
        (sampleIndex_lt hv.height_pos (y - dest.y) dest.h)
      rw [hcolor] at hnone
      cases hnone
  | _ => cases h

theorem attempt?_of_not_breaksDown (h : c.breaksDown command = false) :
    c.attempt? command = some (c.draw command) := by
  rw [attempt?, h, if_neg Bool.false_ne_true]

theorem attempt?_of_breaksDown (h : c.breaksDown command = true) : c.attempt? command = none := by
  rw [attempt?, h, if_pos rfl]

theorem breaksDown_of_attempt? (h : c.attempt? command = none) : c.breaksDown command = true := by
  by_contra hb
  rw [attempt?_of_not_breaksDown (Bool.eq_false_iff.mpr hb)] at h
  cases h

theorem attempt?_of_steady (h : ¬command.MayBreakDown) (c : Canvas) :
    c.attempt? command = some (c.draw command) :=
  attempt?_of_not_breaksDown (Bool.eq_false_iff.mpr fun hb => h (mayBreakDown_of_breaksDown hb))

theorem attempt?_eq_some_iff {outcome : Except DrawError Unit} :
    c.attempt? command = some (outcome, c') ↔
      c.breaksDown command = false ∧ c.draw command = (outcome, c') := by
  cases h : c.breaksDown command with
  | true => simp [attempt?_of_breaksDown h]
  | false => simp [attempt?_of_not_breaksDown h]

/-! ### Camera images that cannot be counted -/

/-- An image of `2 ^ 62` pixels of four bytes that has no bytes. -/
def uncountable : VideoFrame :=
  ⟨0x80000000, 0x80000000, 4, .empty⟩

theorem breaksDown_uncountable {dest clip : Rect} {x y : ℕ} (hx : x < c.width) (hy : y < c.height)
    (hd : dest.Has x y) (hc : clip.Has x y) :
    c.breaksDown (.blit uncountable dest clip) = true := by
  have he : dest.isEmpty = false := Bool.eq_false_iff.mpr fun he => Rect.not_has he x y hd
  have hnone (i j : ℕ) : uncountable.colorAt? i j = none := by
    rw [VideoFrame.colorAt?]
    exact dif_neg (Nat.not_lt_zero _)
  simp only [breaksDown, he, hnone]
  exact anyPixel_iff.mpr ⟨x, y, ⟨hx, hy⟩, Rect.has_overlap.mpr ⟨hd, hc⟩, rfl⟩

/-! ### Refusals -/

theorem attempt?_of_fault {e : DrawError} (h : command.Fault e) (c : Canvas) :
    c.attempt? command = some (.error e, c) := by
  have hcheck := Command.check_eq_error_iff.mpr h
  have hdraw : c.draw command = (.error e, c) := by rw [draw, hcheck]
  refine attempt?_eq_some_iff.mpr ⟨?_, hdraw⟩
  cases h with
  | badFrame hf =>
      simp only [breaksDown, VideoFrame.check_eq_error_iff.mpr hf, Except.isOk, Except.toBool,
        Bool.false_and]
  | _ => rfl

theorem attempt?_eq_error_iff {e : DrawError} :
    c.attempt? command = some (.error e, c') ↔ command.Fault e ∧ c' = c := by
  constructor
  · intro h
    obtain ⟨-, hdraw⟩ := attempt?_eq_some_iff.mp h
    have hcheck : command.check = .error e := by rw [← fst_draw command c, hdraw]
    refine ⟨Command.check_eq_error_iff.mp hcheck, ?_⟩
    rw [← snd_draw_of_error hcheck c, hdraw]
  · rintro ⟨h, rfl⟩
    exact attempt?_of_fault h c'

/-- A canvas refuses a command with an error exactly when that is its first fault, and so exactly
when it has one; a refused command leaves the canvas as it was.  Every other command is carried out,
unless it is of those that may break down; and the number of bytes that a camera image must have is
that of its pixels, unless it needs `2 ^ 64` or more. -/
theorem refusal_law (command : Command) (c : Canvas) :
    (∀ e c', c.attempt? command = some (.error e, c') ↔ command.Fault e ∧ c' = c) ∧
      ((∃ e c', c.attempt? command = some (.error e, c')) ↔ command.IsFaulty) ∧
      (¬command.IsFaulty → ¬command.MayBreakDown →
        c.attempt? command = some (.ok (), c.paint command)) ∧
      ∀ frame : VideoFrame, frame.expectedSize = frame.byteCount % 2 ^ 64 := by
  refine ⟨fun e c' => attempt?_eq_error_iff, ?_, fun hf hb => ?_, VideoFrame.expectedSize_eq⟩
  · rw [← Command.exists_fault_iff]
    constructor
    · rintro ⟨e, c', h⟩
      exact ⟨e, (attempt?_eq_error_iff.mp h).1⟩
    · rintro ⟨e, h⟩
      exact ⟨e, c, attempt?_of_fault h c⟩
  · rw [attempt?_of_steady hb, draw_of_check (Command.check_eq_ok_iff.mpr hf)]

/-- A camera image without columns is refused even where none of it would show, and one of a single
pixel is drawn. -/
theorem refusal_law_noColumns :
    let c := filled 2 1 (Palette.black 255)
    let empty : Command := .blit ⟨0, 2, 3, .empty⟩ ⟨0, 0, 0, 0⟩ ⟨0, 0, 2, 1⟩
    let single : Command := .blit ⟨1, 1, 3, ⟨#[10, 20, 30]⟩⟩ ⟨0, 0, 2, 2⟩ ⟨0, 0, 2, 1⟩
    c.attempt? empty = some (.error (.badFrame (.zeroSize 0 2)), c) ∧
      (¬single.IsFaulty ∧ ¬single.MayBreakDown) ∧
      c.attempt? single = some (.ok (), c.paint single) := by
  intro c empty single
  have hfault : empty.Fault (.badFrame (.zeroSize 0 2)) := .badFrame (.zeroSize (.inl rfl))
  have hsound : ¬single.IsFaulty := by
    unfold single Command.IsFaulty
    decide
  have hsteady : ¬single.MayBreakDown := not_le.mpr (by decide)
  exact ⟨((refusal_law empty c).1 _ c).mpr ⟨hfault, rfl⟩, ⟨hsound, hsteady⟩,
    (refusal_law single c).2.2.1 hsound hsteady⟩

/-- The image that cannot be counted lacks `2 ^ 64` bytes, and yet it is not refused: where none of it
shows nothing is drawn, and anywhere else the command breaks down. -/
theorem attempt?_uncountable :
    uncountable.bytes.size ≠ uncountable.byteCount ∧ ∀ clip : Rect,
      (filled 1 1 (Palette.black 255)).attempt? (.blit uncountable ⟨0, 0, 0, 0⟩ clip) =
          some (.ok (), filled 1 1 (Palette.black 255)) ∧
        (filled 1 1 (Palette.black 255)).attempt?
          (.blit uncountable ⟨0, 0, 1, 1⟩ ⟨0, 0, 1, 1⟩) = none := by
  refine ⟨by decide +kernel, fun clip => ⟨rfl, attempt?_of_breaksDown ?_⟩⟩
  exact breaksDown_uncountable (x := 0) (y := 0) (by simp) (by simp) (by decide) (by decide)

end Canvas

end DriveOverlay
