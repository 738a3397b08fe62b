import DriveOverlay.Proofs.Surface.EvenOdd

/-! # What commands do to a pixel

What a command makes of a pixel depends on the place and the old color of that pixel only.
`Command.rule` is the new color.

* `ext_get?`: a canvas is known by its size and its pixels;
* `paints_paint`: a canvas carries out each command by its rule;
* `paint_clear_congr`: clearing leaves nothing of what was there. -/

namespace DriveOverlay

open Scanline

/-! ### Pixels of a rectangle -/

namespace Rect

/-- The pixel in column `x` of row `y` lies inside. -/
def Has (r : Rect) (x y : ℕ) : Prop :=
  (r.x ≤ x ∧ x < r.right) ∧ r.y ≤ y ∧ y < r.bottom

instance (r : Rect) (x y : ℕ) : Decidable (r.Has x y) :=
  inferInstanceAs (Decidable (_ ∧ _))

theorem not_has {r : Rect} (h : r.isEmpty = true) (x y : ℕ) : ¬r.Has x y := by
  rw [isEmpty, Bool.or_eq_true, decide_eq_true_eq, decide_eq_true_eq] at h
  unfold Has right bottom
  omega

theorem isEmpty_eq_false_iff {r : Rect} : r.isEmpty = false ↔ 0 < r.w ∧ 0 < r.h := by
  simp [isEmpty]

/-- The point lies inside, on the surface or off it. -/
def Holds (r : Rect) (x y : ℤ) : Prop :=
  (r.x ≤ x ∧ x < r.right) ∧ r.y ≤ y ∧ y < r.bottom

theorem holds_overlap {r s : Rect} {x y : ℤ} :
    (r.overlap s).Holds x y ↔ r.Holds x y ∧ s.Holds x y := by
  unfold overlap Holds right bottom
  dsimp only
  omega

theorem has_overlap {r s : Rect} {x y : ℕ} :
    (r.overlap s).Has x y ↔ r.Has x y ∧ s.Has x y :=
  holds_overlap

end Rect

/-! ### The rules -/

/-- The blocks of pixels that a text lights, one for each lit cell. -/
def Text.blocks (text : String) (anchor : Point) (style : TextStyle) : List Rect :=
  let k := glyphScale style.size
  (cells text style.align).map fun cell =>
    let (x, y) := if style.vertical then turn cell else cell
    ⟨signed32 (Single.toInt32 (Single.round anchor.x) + x * k),
      signed32 (Single.toInt32 (Single.round anchor.y) + y * k), k, k⟩

/-- The text lights a pixel. -/
def Text.Lights (text : String) (anchor : Point) (style : TextStyle) (x y : ℕ) : Prop :=
  ∃ block ∈ blocks text anchor style, block.Has x y

instance (text : String) (anchor : Point) (style : TextStyle) (x y : ℕ) :
    Decidable (Text.Lights text anchor style x y) :=
  inferInstanceAs (Decidable (∃ block ∈ Text.blocks text anchor style, _))

/-- A color where a condition holds. -/
def Color.overIf (source : Color) (condition : Prop) [Decidable condition] (below : Color) : Color :=
  if condition then source.over below else below

/-- The color that a command makes of the pixel in column `x` of row `y`. -/
def Command.rule (command : Command) (x y : ℕ) (below : Color) : Color :=
  match command with
  | .clear color => color
  | .fillRect rect paint =>
    (paint.colorAt (middle y)).overIf (paint.isInvisible = false ∧ rect.Has x y) below
  | .fillPolygon polygon paint =>
    if paint.isInvisible = false ∧ (rows polygon).1 ≤ y ∧ (y : ℤ) < (rows polygon).2 then
      (paint.colorAt (middle y)).over^[cover x (spans (crossings polygon.edges (middle y)))] below
    else below
  | .fillRoundedRect rect radius color =>
    color.overIf (rect.Has x y ∧ (Edges.ofRect rect).holds radius (middle x) (middle y)) below
  | .strokeRoundedRect rect radius pen color =>
    let outer := (Edges.ofRect rect).grow (pen / 2)
    let inner := (Edges.ofRect rect).shrink (pen / 2)
    color.overIf ((rect.isEmpty || pen ≤ 0) = false ∧
      (rect.inset (-Canvas.penReach pen)).Has x y ∧
      outer.holds (radius + pen / 2) (middle x) (middle y) ∧
      inner.holds (Single.upper (radius - pen / 2) 0) (middle x) (middle y) = false) below
  | .fillEllipse rect color =>
    color.overIf (rect.Has x y ∧ (Ellipse.ofRect rect).holds (middle x) (middle y)) below
  | .strokeEllipse rect pen color =>
    let outer := (Ellipse.ofRect rect).grow (pen / 2)
    let inner := (Ellipse.ofRect rect).shrink (pen / 2)
    color.overIf ((rect.isEmpty || pen ≤ 0) = false ∧
      (rect.inset (-Canvas.penReach pen)).Has x y ∧
      outer.holds (middle x) (middle y) ∧ inner.holds (middle x) (middle y) = false) below
  | .drawText text anchor style =>
    if text = "" ∨ style.color.alpha = 0 then below
    else style.color.over^[(Text.blocks text anchor style).countP fun block => block.Has x y] below
  | .blit frame dest clip =>
    if dest.Has x y ∧ clip.Has x y then
      (frame.colorAt? (Canvas.sampleIndex (x - dest.x) frame.width.toNat dest.w)
        (Canvas.sampleIndex (y - dest.y) frame.height.toNat dest.h)).getD below
    else below

namespace Canvas

/-! ### Canvases by their pixels -/

theorem get?_eq_some {c : Canvas} {x y : ℕ} (hx : x < c.width) (hy : y < c.height) :
    ∃ p, c.get? x y = some p := by
  rw [get?, dif_pos ⟨hx, hy⟩]
  exact ⟨_, rfl⟩

/-- A canvas is known by its size and its pixels. -/
theorem ext_get? {c c' : Canvas} (hw : c.width = c'.width) (hh : c.height = c'.height)
    (h : ∀ x y, c.get? x y = c'.get? x y) : c = c' := by
  obtain ⟨w, n, b, hs⟩ := c
  obtain ⟨w', n', b', hs'⟩ := c'
  obtain rfl : w = w' := hw
  obtain rfl : n = n' := hh
  suffices hb : b = b' by subst hb; rfl
  refine ByteArray.ext_getElem (hs.trans hs'.symm) fun i hi hi' => ?_
  -- byte `i` belongs to the pixel with number `i / 4`
  have hq : i / 4 < w * n := by omega
  have hpos : 0 < w := by
    rcases Nat.eq_zero_or_pos w with rfl | hpos
    · rw [Nat.zero_mul] at hq
      exact absurd hq (Nat.not_lt_zero _)
    · exact hpos
  have hx := Nat.mod_lt (i / 4) hpos
  have hy : i / 4 / w < n := Nat.div_lt_of_lt_mul hq
  have hi4 : i / 4 / w * w + i / 4 % w = i / 4 := Nat.div_add_mod' _ _
  have hp := h (i / 4 % w) (i / 4 / w)
  simp only [get?, hx, hy, and_self, ↓reduceDIte, hi4, Option.some.injEq, Color.mk.injEq] at hp
  obtain ⟨h0, h1, h2, h3⟩ := hp
  have hr := Nat.div_add_mod i 4
  have hlt := Nat.mod_lt i (show 0 < 4 by omega)
  generalize i / 4 = q at *
  obtain h | h | h | h : i % 4 = 0 ∨ i % 4 = 1 ∨ i % 4 = 2 ∨ i % 4 = 3 := by omega
  all_goals
    rw [h] at hr
    subst hr
    assumption

namespace Paints

variable {g g' : Canvas → Canvas} {rule : ℕ → ℕ → Color → Color}

theorem of_eq (hg : Paints g rule) (e : ∀ c, g' c = g c) : Paints g' rule := by
  obtain rfl : g' = g := funext e
  exact hg

theorem of_skip (e : ∀ c, g c = c) (h : ∀ x y p, rule x y p = p) : Paints g rule :=
  (unchanged.congr_rule fun x y p => (h x y p).symm).of_eq e

theorem of_each (step : Canvas → Canvas → Canvas) (stepRule : Canvas → ℕ → ℕ → Color → Color)
    (hstep : ∀ c, Paints (step c) (stepRule c)) (hg : ∀ c, g c = step c c)
    (hrule : ∀ c x y p, x < c.width → y < c.height → stepRule c x y p = rule x y p) :
    Paints g rule :=
  ⟨fun c => by rw [hg, (hstep c).width_eq], fun c => by rw [hg, (hstep c).height_eq],
    fun c x y => by
      rw [hg, (hstep c).get?_eq]
      exact map_get?_congr fun hx hy => funext fun p => hrule c x y p hx hy⟩

end Paints

/-! ### Commands that paint a rectangle of pixels -/

theorem paints_rect (r : Rect) (f : ℕ → ℕ → Color → Color) :
    Paints (fun c => c.forRows r.y r.bottom fun y c => c.modifySpan y r.x r.right fun x => f x y)
      fun x y p => if r.Has x y then f x y p else p := by
  have hrow (row : ℕ) : Paints (fun c => c.modifySpan row r.x r.right fun x => f x row)
      fun x y p => if y = row then (if r.x ≤ x ∧ x < r.right then f x y p else p) else p := by
    refine (paints_modifySpan row r.x r.right fun x => f x row).congr_rule fun x y p => ?_
    by_cases hy : y = row
    · subst hy
      simp
    · rw [if_neg hy, if_neg (by omega)]
  refine (Paints.forRows hrow r.y r.bottom).congr_rule fun x y p => ?_
  rw [← ite_and]
  congr 1
  exact propext and_comm

theorem paints_clear (color : Color) : Paints (fun c => c.clear color) fun _ _ _ => color := by
  have hrow (row : ℕ) : Paints (fun c => c.modifySpan row 0 c.width fun _ _ => color)
      fun _ y p => if y = row then color else p := by
    refine Paints.of_each (fun c c' => c'.modifySpan row 0 c.width fun _ _ => color) _
      (fun c => paints_modifySpan row 0 c.width fun _ _ => color) (fun _ => rfl)
      fun c x y p hx _ => ?_
    congr 1
    exact propext ⟨fun h => by omega, fun h => by omega⟩
  refine Paints.of_each (fun c c' => c'.forRows 0 c.height fun y c => c.modifySpan y 0 c.width
    fun _ _ => color) _ (fun c => Paints.forRows hrow 0 c.height) (fun _ => rfl) fun c x y p _ hy => ?_
  rw [if_pos (by omega)]

@[simp] theorem width_filled (width height : ℕ) (color : Color) :
    (filled width height color).width = width :=
  (paints_clear color).width_eq _

@[simp] theorem height_filled (width height : ℕ) (color : Color) :
    (filled width height color).height = height :=
  (paints_clear color).height_eq _

theorem get?_filled {width height x y : ℕ} (hx : x < width) (hy : y < height) (color : Color) :
    (filled width height color).get? x y = some color := by
  obtain ⟨p, hp⟩ := get?_eq_some (c := ⟨width, height, zeros _, size_zeros _⟩) hx hy
  rw [filled, (paints_clear color).get?_eq, hp]
  rfl

theorem paints_fillRect (rect : Rect) (paint : Paint) :
    Paints (fun c => c.fillRect rect paint) (Command.fillRect rect paint).rule := by
  by_cases h : (rect.isEmpty || paint.isInvisible) = true
  · refine Paints.of_skip (fun c => by rw [fillRect, if_pos h]) fun x y p => if_neg ?_
    rintro ⟨hv, hr⟩
    rw [hv, Bool.or_false] at h
    exact Rect.not_has h x y hr
  · have hv : paint.isInvisible = false := by
      rw [Bool.or_eq_true, not_or, Bool.not_eq_true, Bool.not_eq_true] at h
      exact h.2
    refine ((paints_rect rect fun _ y => (paint.colorAt (middle y)).over).of_eq
      fun c => ?_).congr_rule fun x y p => ?_
    · rw [fillRect, if_neg h]
      rfl
    · simp only [Command.rule, Color.overIf, hv, true_and]

theorem over_of_invisible {source : Color} (h : source.alpha = 0) (below : Color) :
    source.over below = below := by
  rw [Color.over, if_pos h]

theorem over_of_full {source : Color} (h : source.alpha = 255) (below : Color) :
    source.over below = source := by
  rw [Color.over, if_neg (by rw [h]; decide), if_pos h]

theorem paints_fillWhere (rect : Rect) (color : Color) (inside : Float32 → Float32 → Bool) :
    Paints (fun c => c.fillWhere rect color inside)
      fun x y => color.overIf (rect.Has x y ∧ inside (middle x) (middle y)) := by
  by_cases h : color.alpha = 0
  · refine Paints.of_skip (fun c => by rw [fillWhere, if_pos h]) fun x y p => ?_
    rw [Color.overIf, over_of_invisible h, ite_self]
  · refine ((paints_rect rect fun x y => color.overIf (inside (middle x) (middle y))).of_eq
      fun c => ?_).congr_rule fun x y p => (ite_and _ _ _ _).symm
    rw [fillWhere, if_neg h]
    rfl

theorem paints_fillWhere_of (skip : Bool) (rect : Rect) (color : Color)
    (inside : Float32 → Float32 → Bool) :
    Paints (fun c => if skip then c else c.fillWhere rect color inside)
      fun x y => color.overIf (skip = false ∧ rect.Has x y ∧ inside (middle x) (middle y)) := by
  cases skip with
  | true => exact Paints.unchanged.congr_rule fun x y p => by simp [Color.overIf]
  | false =>
      exact (paints_fillWhere rect color inside).congr_rule fun x y p => by simp [Color.overIf]

/-- A filled shape has no pixel outside its rectangle, so that an empty one need not be asked for. -/
theorem paints_filledShape (rect : Rect) (color : Color) (inside : Float32 → Float32 → Bool) :
    Paints (fun c => if rect.isEmpty then c else c.fillWhere rect color inside)
      fun x y => color.overIf (rect.Has x y ∧ inside (middle x) (middle y)) := by
  refine (paints_fillWhere_of rect.isEmpty rect color inside).congr_rule fun x y p => ?_
  cases h : rect.isEmpty with
  | true => simp [Color.overIf, Rect.not_has h]
  | false => simp [Color.overIf]

theorem paints_outline (rect : Rect) (pen : Float32) (color : Color)
    (outer inner : Float32 → Float32 → Bool) :
    Paints (fun c => if rect.isEmpty || pen ≤ 0 then c else
        c.fillWhere (rect.inset (-penReach pen)) color fun x y => outer x y && !inner x y)
      fun x y => color.overIf ((rect.isEmpty || pen ≤ 0) = false ∧
        (rect.inset (-penReach pen)).Has x y ∧
        outer (middle x) (middle y) ∧ inner (middle x) (middle y) = false) := by
  refine (paints_fillWhere_of (rect.isEmpty || pen ≤ 0) (rect.inset (-penReach pen)) color
    fun x y => outer x y && !inner x y).congr_rule fun x y p => ?_
  simp only [Color.overIf, Bool.and_eq_true, Bool.not_eq_true']

/-! ### Text and camera images -/

theorem paints_blendBlock {r : Rect} (h : r.h = r.w) (color : Color) :
    Paints (fun c => c.blendBlock r.x r.y r.w color) fun x y => color.overIf (r.Has x y) := by
  obtain ⟨x0, y0, w, n⟩ := r
  obtain rfl : n = w := h
  exact paints_rect ⟨x0, y0, n, n⟩ fun _ _ => color.over

theorem paints_blocks (color : Color) (blocks : List Rect) (h : ∀ r ∈ blocks, r.h = r.w) :
    Paints (fun c => blocks.foldl (fun c r => c.blendBlock r.x r.y r.w color) c)
      fun x y => color.over^[blocks.countP fun r => r.Has x y] := by
  induction blocks with
  | nil => exact Paints.unchanged
  | cons r rest ih =>
      have hr := paints_blendBlock (h r List.mem_cons_self) color
      have hrest := ih fun r' h' => h r' (List.mem_cons_of_mem r h')
      refine (hrest.comp hr).congr_rule fun x y p => ?_
      rw [List.countP_cons]
      by_cases hx : r.Has x y
      · simp only [Color.overIf, hx, decide_true, if_true, Function.iterate_succ_apply]
      · simp only [Color.overIf, hx, decide_false, Bool.false_eq_true, if_false, Nat.add_zero]

theorem square_of_mem_blocks {text : String} {anchor : Point} {style : TextStyle} {r : Rect}
    (h : r ∈ Text.blocks text anchor style) : r.h = r.w := by
  obtain ⟨cell, -, rfl⟩ := List.mem_map.mp h
  rfl

theorem paints_drawText (text : String) (anchor : Point) (style : TextStyle) :
    Paints (fun c => c.drawText text anchor style) (Command.drawText text anchor style).rule := by
  by_cases h : text = "" ∨ style.color.alpha = 0
  · refine Paints.of_skip (fun c => ?_) fun x y p => ?_
    · rw [drawText, if_pos (by simpa using h)]
    · simp only [Command.rule, h, if_true]
  · refine ((paints_blocks style.color (Text.blocks text anchor style) fun r hr =>
      square_of_mem_blocks hr).of_eq fun c => ?_).congr_rule fun x y p => ?_
    · rw [drawText, if_neg (by simpa using h), Text.blocks, List.foldl_map]
    · simp only [Command.rule, h, if_false]

/-- Writing in a color without transparency gives the color to the pixels that the text lights. -/
theorem rule_drawText_of_full {text : String} {anchor : Point} {style : TextStyle}
    (h : style.color.alpha = 255) (x y : ℕ) (below : Color) :
    (Command.drawText text anchor style).rule x y below =
      if Text.Lights text anchor style x y then style.color else below := by
  have hcolor (n : ℕ) : style.color.over^[n + 1] below = style.color := by
    rw [Function.iterate_succ_apply', over_of_full h]
  have h0 : ¬style.color.alpha = 0 := by
    rw [h]
    decide
  by_cases ht : text = ""
  · have hl : ¬Text.Lights text anchor style x y := by
      rintro ⟨block, hb, -⟩
      rw [ht] at hb
      exact absurd hb List.not_mem_nil
    rw [if_neg hl]
    exact if_pos (.inl ht)
  · refine (if_neg (not_or.mpr ⟨ht, h0⟩)).trans ?_
    by_cases hl : Text.Lights text anchor style x y
    · have hpos : 0 < (Text.blocks text anchor style).countP fun block => block.Has x y := by
        rw [List.countP_pos_iff]
        obtain ⟨block, hb, hx⟩ := hl
        exact ⟨block, hb, decide_eq_true hx⟩
      obtain ⟨n, hn⟩ := Nat.exists_eq_add_of_lt hpos
      rw [if_pos hl, hn, Nat.zero_add]
      exact hcolor n
    · rw [if_neg hl, List.countP_eq_zero.mpr fun block hb => ?_]
      · rfl
      · rw [decide_eq_true_eq]
        exact fun hx => hl ⟨block, hb, hx⟩

theorem paints_blit (frame : VideoFrame) (dest clip : Rect) :
    Paints (fun c => c.blit frame dest clip) (Command.blit frame dest clip).rule := by
  by_cases h : dest.isEmpty = true
  · refine Paints.of_skip (fun c => by rw [blit, if_pos h]) fun x y p => if_neg ?_
    exact fun hd => Rect.not_has h x y hd.1
  · let sample (x y : ℕ) : Color → Color :=
      (frame.colorAt? (sampleIndex (x - dest.x) frame.width.toNat dest.w)
        (sampleIndex (y - dest.y) frame.height.toNat dest.h)).getD
    let area (c : Canvas) : Rect := (dest.overlap clip).overlap c.bounds
    refine Paints.of_each (fun c c' => c'.forRows (area c).y (area c).bottom fun y c' =>
      c'.modifySpan y (area c).x (area c).right fun x => sample x y) _
      (fun c => paints_rect (area c) sample)
      (fun c => by rw [blit, if_neg h]) fun c x y p hx hy => ?_
    have hb : c.bounds.Has x y := by
      unfold Rect.Has Rect.right Rect.bottom bounds
      dsimp only
      omega
    simp only [Command.rule, area, sample, Rect.has_overlap, hb, and_true]

/-! ### All commands -/

/-- A canvas carries out each command by its rule. -/
theorem paints_paint (command : Command) : Paints (fun c => c.paint command) command.rule := by
  cases command with
  | clear color => exact paints_clear color
  | fillRect rect paint => exact paints_fillRect rect paint
  | fillPolygon polygon paint =>
      cases hv : paint.isInvisible with
      | true =>
          refine Paints.of_skip (fun c => by rw [Canvas.paint, fillPolygon, if_pos hv]) fun x y p => ?_
          simp only [Command.rule, hv, Bool.true_eq_false, false_and, if_false]
      | false =>
          refine (paints_fillPolygon polygon hv).congr_rule fun x y p => ?_
          simp only [Command.rule, hv, true_and]
  | fillRoundedRect rect radius color => exact paints_filledShape rect color _
  | strokeRoundedRect rect radius pen color => exact paints_outline rect pen color _ _
  | fillEllipse rect color => exact paints_filledShape rect color _
  | strokeEllipse rect pen color => exact paints_outline rect pen color _ _
  | drawText text anchor style => exact paints_drawText text anchor style
  | blit frame dest clip => exact paints_blit frame dest clip

/-- Filling a polygon puts the color over the pixels that have passed an odd number of crossings. -/
theorem rule_fillPolygon {polygon : Polygon} (hp : ∀ p ∈ polygon, p.IsBounded) (color : Color)
    {x y : ℕ} (hx : x < 2 ^ 22) (hy : y < 2 ^ 22) (below : Color) :
    (Command.fillPolygon polygon (.solid color)).rule x y below =
      if Odd (passed polygon x y) then color.over below else below := by
  cases hv : (Paint.solid color).isInvisible with
  | true =>
      have h0 : color.alpha = 0 := by simpa [Paint.isInvisible] using hv
      rw [over_of_invisible h0, ite_self]
      simp [Command.rule, hv]
  | false =>
      simp only [Command.rule, hv, true_and]
      by_cases hrows : (rows polygon).1 ≤ y ∧ (y : ℤ) < (rows polygon).2
      · rw [if_pos hrows, iterate_cover hp hx hy]
        rfl
      · rw [if_neg hrows, passed_eq_zero hp hy hrows, if_neg Nat.not_odd_zero]

/-- Clearing leaves nothing of what was there. -/
theorem paint_clear_congr {c c' : Canvas} (hw : c.width = c'.width) (hh : c.height = c'.height)
    (color : Color) : c.paint (.clear color) = c'.paint (.clear color) := by
  have hp := paints_paint (.clear color)
  refine ext_get? ?_ ?_ fun x y => ?_
  · rw [hp.width_eq, hp.width_eq, hw]
  · rw [hp.height_eq, hp.height_eq, hh]
  · rw [hp.get?_eq, hp.get?_eq]
    by_cases h : x < c.width ∧ y < c.height
    · obtain ⟨p, e⟩ := get?_eq_some h.1 h.2
      obtain ⟨p', e'⟩ := get?_eq_some (hw ▸ h.1) (hh ▸ h.2)
      rw [e, e']
      rfl
    · rw [get?_eq_none h, get?_eq_none (hw ▸ hh ▸ h)]

/-! ### Opaque canvases -/

/-- No pixel lets anything through. -/
def IsOpaque (c : Canvas) : Prop :=
  ∀ x y p, c.get? x y = some p → p.alpha = 255

theorem isOpaque_clear (c : Canvas) {color : Color} (h : color.alpha = 255) :
    (c.paint (.clear color)).IsOpaque := by
  intro x y p hp
  rw [(paints_paint (.clear color)).get?_eq, Option.map_eq_some_iff] at hp
  obtain ⟨_, -, rfl⟩ := hp
  exact h

end Canvas

/-- A command that puts something over what is there: any but clearing. -/
def Command.isOver : Command → Bool
  | .clear _ => false
  | _ => true

end DriveOverlay
