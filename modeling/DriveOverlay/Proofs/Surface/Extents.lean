import DriveOverlay.Proofs.Single.Division
import DriveOverlay.Proofs.Surface.Outcomes

/-! # How far commands reach

A command reaches the pixels of its extent and no others.  What it makes of one of them does not
depend on the others, so that commands whose extents have no pixel in common can be swapped.

* `penReach_le`: an outline reaches half the width of its pen beyond the edge, rounded up;
* `effect_of_not_extent`: nothing changes outside the extent;
* `draw_comm`, `attemptBoth?_comm`: commands with separate extents can be swapped;
* `attempt?_strokeRoundedRect_nanPen`: an outline without a width breaks down;
* `locality_law`: all this of any canvases of one size, with the statuses. -/

namespace DriveOverlay

open Scanline Single

/-! ### The extents -/

/-- How many pixels a pen reaches beyond an edge: half its width, rounded up; none if the width is not
a number. -/
def penGrowth (pen : Float32) : ℤ :=
  if pen.isNaN then 0 else ⌈value (pen / 2)⌉

/-- The pixels that a command may change. -/
def Command.Extent (command : Command) (x y : ℕ) : Prop :=
  match command with
  | .clear _ => True
  | .fillRect rect _ => rect.Has x y
  | .fillPolygon polygon _ =>
    (∃ p ∈ polygon, ⌊value p.y⌋ ≤ y) ∧ ∃ p ∈ polygon, (y : ℤ) < ⌈value p.y⌉
  | .fillRoundedRect rect _ _ => rect.Has x y
  | .strokeRoundedRect rect _ pen _ => (rect.inset (-penGrowth pen)).Has x y
  | .fillEllipse rect _ => rect.Has x y
  | .strokeEllipse rect pen _ => (rect.inset (-penGrowth pen)).Has x y
  | .drawText _ _ _ => True
  | .blit _ dest clip => (dest.overlap clip).Has x y

/-! ### Outlines -/

theorem index_two_pos : 0 < index 2 := by decide

/-- The range of 32 bits only makes the reach of a pen smaller, unless the pen does not draw at
all. -/
theorem penReach_le {pen : Float32} (h : ¬pen ≤ 0) : Canvas.penReach pen ≤ penGrowth pen := by
  unfold Canvas.penReach penGrowth
  cases hn : pen.isNaN with
  | true =>
      have hq := isNaN_div_of_isNaN hn 2
      rw [ceil_of_isNaN hq, toInt32_of_isNaN hq]
      simp
  | false =>
      have h0 : 0 ≤ index pen := by
        by_contra hlt
        exact h (le_iff.mpr ⟨hn, rfl, (not_le.mp hlt).le⟩)
      have hq := isNaN_div hn (b := 2) rfl index_two_pos.ne'
      have hv : 0 ≤ ⌈value (pen / 2)⌉ :=
        Int.ceil_nonneg (value_nonneg (index_div_nonneg hn rfl index_two_pos h0))
      obtain ⟨hc, hz⟩ := ceil_spec hq
      rw [toInt32_eq hc hz]
      simp only [Bool.false_eq_true, if_false]
      omega

theorem Rect.Has.mono_inset {r : Rect} {d e : ℤ} (hde : d ≤ e) {x y : ℕ}
    (h : (r.inset (-d)).Has x y) : (r.inset (-e)).Has x y := by
  unfold inset Has right bottom at *
  dsimp only at *
  omega

/-! ### What a command does -/

/-- What becomes of a pixel: the command is carried out, or refused. -/
def Command.effect (command : Command) (x y : ℕ) (below : Color) : Color :=
  match command.check with
  | .ok () => command.rule x y below
  | .error _ => below

theorem Command.isFinite_of_check {polygon : Polygon} {paint : Paint}
    (h : (Command.fillPolygon polygon paint).check = .ok ()) {p : Point} (hp : p ∈ polygon) :
    p.isFinite = true := by
  by_contra hf
  exact check_eq_ok_iff.mp h (.inr ⟨p, hp, Bool.not_eq_true _ ▸ hf⟩)

theorem rule_of_not_extent {command : Command} (hc : command.check = .ok ()) {x y : ℕ}
    (h : ¬command.Extent x y) (below : Color) : command.rule x y below = below := by
  cases command with
  | clear color => exact absurd trivial h
  | fillRect rect paint => exact if_neg fun h' => h h'.2
  | fillPolygon polygon paint =>
      refine if_neg fun h' => h ?_
      have hp (p : Point) (hm : p ∈ polygon) : p.y.isNaN = false :=
        isNaN_of_isFinite (Bool.and_eq_true_iff.mp (Command.isFinite_of_check hc hm)).2
      exact rows_between hp h'.2.1 h'.2.2
  | fillRoundedRect rect radius color => exact if_neg fun h' => h h'.1
  | strokeRoundedRect rect radius pen color =>
      refine if_neg fun h' => h ?_
      have hpen : ¬pen ≤ 0 := by simpa using (Bool.or_eq_false_iff.mp h'.1).2
      exact h'.2.1.mono_inset (penReach_le hpen)
  | fillEllipse rect color => exact if_neg fun h' => h h'.1
  | strokeEllipse rect pen color =>
      refine if_neg fun h' => h ?_
      have hpen : ¬pen ≤ 0 := by simpa using (Bool.or_eq_false_iff.mp h'.1).2
      exact h'.2.1.mono_inset (penReach_le hpen)
  | drawText text anchor style => exact absurd trivial h
  | blit frame dest clip => exact if_neg fun h' => h (Rect.has_overlap.mpr h')

/-- Nothing changes outside the extent. -/
theorem effect_of_not_extent {command : Command} {x y : ℕ} (h : ¬command.Extent x y)
    (below : Color) : command.effect x y below = below := by
  unfold Command.effect
  split
  · rename_i hc
    exact rule_of_not_extent hc h below
  · rfl

namespace Canvas

theorem paints_draw (command : Command) :
    Paints (fun c => (c.draw command).2) command.effect := by
  unfold draw Command.effect
  cases command.check with
  | ok => exact paints_paint command
  | error e => exact Paints.unchanged

/-- Commands that have no pixel of the canvas in common can be swapped. -/
theorem draw_comm {c : Canvas} {a b : Command}
    (h : ∀ x < c.width, ∀ y < c.height, ¬(a.Extent x y ∧ b.Extent x y)) :
    ((c.draw a).2.draw b).2 = ((c.draw b).2.draw a).2 := by
  have hab := (paints_draw b).comp (paints_draw a)
  have hba := (paints_draw a).comp (paints_draw b)
  refine ext_get? ?_ ?_ fun x y => ?_
  · rw [hab.width_eq, hba.width_eq]
  · rw [hab.height_eq, hba.height_eq]
  · rw [hab.get?_eq, hba.get?_eq]
    refine map_get?_congr fun hx hy => funext fun below => ?_
    rcases not_and_or.mp (h x hx y hy) with ha | hb
    · rw [effect_of_not_extent ha, effect_of_not_extent ha]
    · rw [effect_of_not_extent hb, effect_of_not_extent hb]

/-! ### Commands that may break down -/

variable {c c' : Canvas} {a b : Command}

theorem breaksDown_draw (c : Canvas) (a b : Command) :
    (c.draw a).2.breaksDown b = c.breaksDown b :=
  breaksDown_congr ((paints_draw a).width_eq c) ((paints_draw a).height_eq c) b

/-- Carries out two commands one after the other, unless one of them breaks down. -/
def attemptBoth? (c : Canvas) (a b : Command) :
    Option ((Except DrawError Unit × Except DrawError Unit) × Canvas) :=
  (c.attempt? a).bind fun first =>
    (first.2.attempt? b).map fun second => ((first.1, second.1), second.2)

theorem attemptBoth?_eq (c : Canvas) (a b : Command) : c.attemptBoth? a b =
    if c.breaksDown a || c.breaksDown b then none
    else some ((a.check, b.check), ((c.draw a).2.draw b).2) := by
  unfold attemptBoth?
  cases ha : c.breaksDown a with
  | true => rw [attempt?_of_breaksDown ha, Option.bind_none, Bool.true_or, if_pos rfl]
  | false =>
      rw [attempt?_of_not_breaksDown ha, Option.bind_some]
      have hsecond := breaksDown_draw c a b
      cases hb : c.breaksDown b with
      | true => rw [attempt?_of_breaksDown (hsecond.trans hb), Option.map_none, Bool.or_true,
          if_pos rfl]
      | false => rw [attempt?_of_not_breaksDown (hsecond.trans hb), Option.map_some, fst_draw,
          fst_draw, Bool.or_false, if_neg Bool.false_ne_true]

/-- Commands that have no pixel of the canvas in common can be swapped, also where one of them breaks
down. -/
theorem attemptBoth?_comm (h : ∀ x < c.width, ∀ y < c.height, ¬(a.Extent x y ∧ b.Extent x y)) :
    c.attemptBoth? a b =
      (c.attemptBoth? b a).map fun ((second, first), c) => ((first, second), c) := by
  rw [attemptBoth?_eq, attemptBoth?_eq, draw_comm h, Bool.or_comm]
  split <;> rfl

theorem map_fst_attempt?_congr (hw : c.width = c'.width) (hh : c.height = c'.height)
    (command : Command) :
    (c.attempt? command).map Prod.fst = (c'.attempt? command).map Prod.fst := by
  unfold attempt?
  rw [breaksDown_congr hw hh]
  split
  · rfl
  · simp only [Option.map_some, fst_draw]

/-- The middles of the corners of an outline are no numbers when its pen has none. -/
theorem attempt?_strokeRoundedRect_nanPen :
    (filled 1 1 (Palette.black 255)).attempt?
      (.strokeRoundedRect ⟨0, 0, 1, 1⟩ 0 (.ofBits 0x7fc00000) ⟨255, 0, 0, 255⟩) = none := by
  refine attempt?_of_breaksDown ?_
  decide +kernel

/-- On canvases of one size a command has one status, or breaks down on both, which only commands do
that may; where the canvases agree on a pixel they do so after it; a pixel outside its extent stays
as it is; and two commands whose extents have no pixel of the canvas in common come to the same in
either order, statuses and all. -/
theorem locality_law {c c' : Canvas} (hw : c.width = c'.width) (hh : c.height = c'.height)
    (command other : Command) :
    (c.attempt? command).map Prod.fst = (c'.attempt? command).map Prod.fst ∧
      (¬command.MayBreakDown → c.attempt? command = some (c.draw command)) ∧
      (∀ status d status' d', c.attempt? command = some (status, d) →
        c'.attempt? command = some (status', d') →
        ∀ x y, c.get? x y = c'.get? x y → d.get? x y = d'.get? x y) ∧
      (∀ status d, c.attempt? command = some (status, d) →
        ∀ x y, ¬command.Extent x y → d.get? x y = c.get? x y) ∧
      ((∀ x < c.width, ∀ y < c.height, ¬(command.Extent x y ∧ other.Extent x y)) →
        c.attemptBoth? command other = (c.attemptBoth? other command).map
          fun ((second, first), c) => ((first, second), c)) := by
  have hp := paints_draw command
  refine ⟨map_fst_attempt?_congr hw hh command, fun hb => attempt?_of_steady hb c, ?_, ?_,
    attemptBoth?_comm⟩
  · intro status d status' d' hd hd' x y h
    obtain rfl : (c.draw command).2 = d := congrArg Prod.snd (attempt?_eq_some_iff.mp hd).2
    obtain rfl : (c'.draw command).2 = d' := congrArg Prod.snd (attempt?_eq_some_iff.mp hd').2
    rw [hp.get?_eq, hp.get?_eq, h]
  · intro status d hd x y h
    obtain rfl : (c.draw command).2 = d := congrArg Prod.snd (attempt?_eq_some_iff.mp hd).2
    rw [hp.get?_eq, funext (effect_of_not_extent h), Option.map_id']

/-- A veil over the left pixel of four, and a ring that grows by one pixel to each side. -/
theorem locality_law_veilAndRing :
    let veil : Command := .fillRect ⟨0, 0, 1, 1⟩ (.solid ⟨255, 0, 0, 128⟩)
    let ring : Command := .strokeEllipse ⟨2, 0, 1, 1⟩ 1 (Palette.white 128)
    let c := filled 4 1 (Palette.black 255)
    (∀ x < c.width, ∀ y < c.height, ¬(veil.Extent x y ∧ ring.Extent x y)) ∧
      c.attemptBoth? veil ring = (c.attemptBoth? ring veil).map
        (fun ((second, first), c) => ((first, second), c)) ∧
      ∃ d, c.attempt? ring = some d ∧ d.2.get? 0 0 = some (Palette.black 255) := by
  intro veil ring c
  have hpen : penGrowth 1 = 1 := by decide +kernel
  have hring (y : ℕ) : ¬ring.Extent 0 y := by
    simp only [ring, Command.Extent, hpen, Rect.Has, Rect.inset, Rect.right]
    omega
  have hsep : ∀ x < c.width, ∀ y < c.height, ¬(veil.Extent x y ∧ ring.Extent x y) := by
    rintro x - y - ⟨hv, hr⟩
    simp only [veil, Command.Extent, Rect.Has, Rect.right] at hv
    obtain rfl : x = 0 := by omega
    exact hring y hr
  obtain ⟨-, -, -, -, hswap⟩ := locality_law (rfl : c.width = c.width) rfl veil ring
  obtain ⟨-, hgoes, -, hkept, -⟩ := locality_law (rfl : c.width = c.width) rfl ring veil
  have hdraw := hgoes id
  have hleft := hkept _ _ hdraw 0 0 (hring 0)
  rw [get?_filled (by decide) (by decide)] at hleft
  exact ⟨hsep, hswap hsep, c.draw ring, hdraw, hleft⟩

end Canvas

end DriveOverlay
