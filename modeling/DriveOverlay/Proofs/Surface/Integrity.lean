import DriveOverlay.Proofs.Surface.Blending
import DriveOverlay.Proofs.Surface.Outcomes
import Mathlib.Logic.Relation

/-! # What every command keeps

A command changes one pixel after the other, all of which lie on the canvas: clearing overwrites a
pixel, and everything else puts a color over it.  What one such change keeps, a command keeps, and
what every command keeps, a run of commands keeps.

* `reaches_paint`: a command is a chain of changes of single pixels, none of them off the canvas;
* `Reaches.size`, `Reaches.alpha_le`: what such chains keep;
* `keeps_draw`: what a command keeps, carried out or not;
* `IsOpaque.run?`: nothing but clearing makes a pixel let something through;
* `run?_uncountable`: a camera image that is read beyond its end;
* `integrity_law`: all this of whatever is done to a new canvas. -/

namespace DriveOverlay

/-- A color is put over what is there. -/
def Color.IsOver (change : Color → Color) : Prop :=
  ∃ source : Color, change = source.over

/-- What a command may make of a color: clearing overwrites it, and everything else puts a color
over it. -/
def Command.Changes (command : Command) (change : Color → Color) : Prop :=
  match command with
  | .clear color => change = fun _ => color
  | _ => Color.IsOver change

/-- A change by a command that does not clear keeps the alpha of a color or raises it. -/
theorem Command.Changes.alpha_le {command : Command} {change : Color → Color}
    (h : command.Changes change) (ho : command.isOver = true) (p : Color) :
    p.alpha ≤ (change p).alpha := by
  cases command
  case clear => cases ho
  all_goals
    obtain ⟨source, rfl⟩ := h
    exact Color.alpha_le_over source p

namespace Canvas

open Color (IsOver Blends)

/-! ### Chains of changes -/

variable {allowed : (Color → Color) → Prop} {c c' : Canvas} {x y : ℕ}

/-- The pixel lies on the canvas, and its four bytes in the memory. -/
structure InRange (c : Canvas) (x y : ℕ) : Prop where
  column_lt : x < c.width
  row_lt : y < c.height
  byte_lt : 4 * (y * c.width + x) + 3 < c.bytes.size

theorem inRange (hx : x < c.width) (hy : y < c.height) : c.InRange x y where
  column_lt := hx
  row_lt := hy
  byte_lt := c.size_eq ▸ index_lt hx hy

/-- One pixel changes, and it lies on the canvas. -/
def Touches (allowed : (Color → Color) → Prop) (c c' : Canvas) : Prop :=
  ∃ x y change, c.InRange x y ∧ allowed change ∧ c' = c.modify x y change

/-- Pixels change one after the other, and all of them lie on the canvas. -/
def Reaches (allowed : (Color → Color) → Prop) : Canvas → Canvas → Prop :=
  Relation.ReflTransGen (Touches allowed)

theorem Reaches.size (h : Reaches allowed c c') : c'.width = c.width ∧ c'.height = c.height := by
  induction h with
  | refl => exact ⟨rfl, rfl⟩
  | tail _ hs ih =>
      obtain ⟨x, y, change, -, -, rfl⟩ := hs
      rwa [width_modify, height_modify]

/-- Where every change keeps the alpha or raises it, so does the chain. -/
theorem Reaches.alpha_le (h : Reaches allowed c c')
    (ha : ∀ change, allowed change → ∀ p, p.alpha ≤ (change p).alpha) {p : Color}
    (hp : c.get? x y = some p) : ∃ q, c'.get? x y = some q ∧ p.alpha ≤ q.alpha := by
  induction h with
  | refl => exact ⟨p, hp, UInt8.le_refl _⟩
  | tail _ hs ih =>
      obtain ⟨q, hq, hle⟩ := ih
      obtain ⟨x', y', change, -, hc, rfl⟩ := hs
      rw [get?_modify, hq, Option.map_some]
      refine ⟨_, rfl, ?_⟩
      split
      · exact UInt8.le_trans hle (ha change hc q)
      · exact hle

theorem Reaches.unless {skip : Prop} [Decidable skip] (h : Reaches allowed c c') :
    Reaches allowed c (if skip then c else c') := by
  split
  · exact .refl
  · exact h

/-! ### Loops -/

theorem reaches_fold (n : ℕ) (step : ℕ → Canvas → Canvas) (c : Canvas)
    (h : ∀ i < n, ∀ c', c'.width = c.width → c'.height = c.height →
      Reaches allowed c' (step i c')) :
    Reaches allowed c (n.fold (fun i _ c => step i c) c) := by
  induction n with
  | zero => exact .refl
  | succ n ih =>
      have hn := ih fun i hi => h i (Nat.lt_succ_of_lt hi)
      rw [Nat.fold_succ]
      exact hn.trans (h n (Nat.lt_succ_self n) _ hn.size.1 hn.size.2)

theorem reaches_foldl {α : Type} (l : List α) (step : Canvas → α → Canvas) (c : Canvas)
    (h : ∀ a, ∀ c', c'.height = c.height → Reaches allowed c' (step c' a)) :
    Reaches allowed c (l.foldl step c) := by
  induction l generalizing c with
  | nil => exact .refl
  | cons a l ih =>
      have ha := h a c rfl
      exact ha.trans (ih _ fun b c' hc => h b c' (hc.trans ha.size.2))

theorem reaches_modifySpan {f : ℕ → Color → Color} (hf : ∀ x, allowed (f x)) {y : ℕ}
    (hy : y < c.height) (x0 x1 : ℤ) : Reaches allowed c (c.modifySpan y x0 x1 f) := by
  rw [modifySpan, if_neg (by omega)]
  refine reaches_fold _ (fun i c => c.modify (x0.toNat + i) (y : ℤ).toNat (f (x0.toNat + i))) c
    fun i hi c' hw hh => ?_
  exact .single ⟨_, _, _, inRange (by omega) (by omega), hf _, rfl⟩

theorem reaches_forRows {f : ℕ → Canvas → Canvas}
    (hf : ∀ row c, row < c.height → Reaches allowed c (f row c)) (y0 y1 : ℤ) (c : Canvas) :
    Reaches allowed c (c.forRows y0 y1 f) :=
  reaches_fold _ (fun i c => f (y0.toNat + i) c) c fun i hi c' _ hh => hf _ c' (by omega)

/-! ### Commands -/

theorem reaches_blendSpan {y : ℕ} (hy : y < c.height) (x0 x1 : ℤ) (color : Color) :
    Reaches IsOver c (c.blendSpan y x0 x1 color) :=
  reaches_modifySpan (fun _ => ⟨color, rfl⟩) hy x0 x1

theorem isOver_id : IsOver id :=
  ⟨Palette.black 0, funext fun below => (@over_of_invisible (Palette.black 0) rfl below).symm⟩

theorem reaches_fillWhere (rect : Rect) (color : Color) (inside : Float32 → Float32 → Bool)
    (c : Canvas) : Reaches IsOver c (c.fillWhere rect color inside) := by
  refine .unless (reaches_forRows (fun row c hr => reaches_modifySpan (fun x => ?_) hr _ _) _ _ c)
  cases h : inside (Scanline.middle x) (Scanline.middle row) with
  | true => exact ⟨color, rfl⟩
  | false => exact isOver_id

/-- A camera image is without alpha: a pixel of it replaces what is there, if it has its bytes. -/
theorem isOver_colorAt? (frame : VideoFrame) (x y : ℕ) : IsOver (frame.colorAt? x y).getD := by
  cases h : frame.colorAt? x y with
  | none => exact isOver_id
  | some color =>
      obtain ⟨_, _, _, rfl⟩ := VideoFrame.colorAt?_eq_some_iff.mp h
      exact ⟨_, funext fun below => (over_of_full rfl below).symm⟩

/-- A command is a chain of changes of pixels on the canvas. -/
theorem reaches_paint (command : Command) (c : Canvas) :
    Reaches command.Changes c (c.paint command) := by
  cases command with
  | clear color =>
      have hf (_ : ℕ) : (Command.clear color).Changes fun _ => color := rfl
      unfold Canvas.paint clear
      dsimp only
      exact reaches_forRows (fun row c hr => reaches_modifySpan hf hr _ _) _ _ c
  | fillRect rect paint =>
      refine .unless (reaches_forRows (fun row c hr => ?_) _ _ c)
      exact reaches_blendSpan hr _ _ _
  | fillPolygon polygon paint =>
      refine .unless (reaches_forRows (fun row c hr => ?_) _ _ c)
      exact reaches_foldl _ _ c fun span c' hc => reaches_blendSpan (hc ▸ hr) _ _ _
  | fillRoundedRect rect radius color => exact .unless (reaches_fillWhere _ _ _ c)
  | strokeRoundedRect rect radius pen color => exact .unless (reaches_fillWhere _ _ _ c)
  | fillEllipse rect color => exact .unless (reaches_fillWhere _ _ _ c)
  | strokeEllipse rect pen color => exact .unless (reaches_fillWhere _ _ _ c)
  | drawText text anchor style =>
      refine .unless (reaches_foldl _ _ c fun cell c' _ => ?_)
      exact reaches_forRows (fun row c hr => reaches_blendSpan hr _ _ _) _ _ c'
  | blit frame dest clip =>
      refine .unless (reaches_forRows (fun row c hr => ?_) _ _ c)
      exact reaches_modifySpan (fun x => isOver_colorAt? frame _ _) hr _ _

/-! ### Single commands -/

/-- What a command keeps: the size of the canvas, which it does not leave, and the alpha of every
pixel unless it clears. -/
structure Keeps (command : Command) (c c' : Canvas) : Prop where
  width_eq : c'.width = c.width
  height_eq : c'.height = c.height
  size_eq : c'.bytes.size = c.bytes.size
  reaches : Reaches command.Changes c c'
  alpha_le : command.isOver = true → ∀ x y p, c.get? x y = some p →
    ∃ q, c'.get? x y = some q ∧ p.alpha ≤ q.alpha

theorem Reaches.keeps {command : Command} (h : Reaches command.Changes c c') :
    Keeps command c c' := by
  obtain ⟨hw, hh⟩ := h.size
  exact {
    width_eq := hw
    height_eq := hh
    size_eq := by rw [Canvas.size_eq, Canvas.size_eq, hw, hh]
    reaches := h
    alpha_le := fun ho x y p hp => h.alpha_le (fun change hc => hc.alpha_le ho) hp }

/-- A command keeps all this, carried out or not. -/
theorem keeps_draw (command : Command) (c : Canvas) : Keeps command c (c.draw command).2 := by
  unfold draw
  split
  · exact (reaches_paint command c).keeps
  · exact Reaches.keeps .refl

theorem Keeps.isOpaque {command : Command} (h : Keeps command c c') (ho : command.isOver = true)
    (hc : c.IsOpaque) : c'.IsOpaque := by
  intro x y q hq
  have hon : x < c'.width ∧ y < c'.height := by
    by_contra hn
    rw [get?_eq_none hn] at hq
    cases hq
  obtain ⟨p, hp⟩ := get?_eq_some (h.width_eq ▸ hon.1) (h.height_eq ▸ hon.2)
  obtain ⟨q', hq', hle⟩ := h.alpha_le ho x y p hp
  obtain rfl : q' = q := Option.some.inj (hq'.symm.trans hq)
  rw [hc x y p hp] at hle
  exact UInt8.le_antisymm (UInt8.le_iff_toNat_le.mpr (Color.toNat_le _)) hle

theorem IsOpaque.paint (hc : c.IsOpaque) {command : Command} (ho : command.isOver = true) :
    (c.paint command).IsOpaque :=
  (reaches_paint command c).keeps.isOpaque ho hc

theorem IsOpaque.draw (hc : c.IsOpaque) {command : Command}
    (h : ∀ color, command = .clear color → color.alpha = 255) : (c.draw command).2.IsOpaque := by
  cases command
  case clear color => exact isOpaque_clear c (h color rfl)
  all_goals exact (keeps_draw _ c).isOpaque rfl hc

theorem keeps_of_attempt? {command : Command} {status : Except DrawError Unit}
    (h : c.attempt? command = some (status, c')) : Keeps command c c' := by
  obtain rfl : (c.draw command).2 = c' := congrArg Prod.snd (attempt?_eq_some_iff.mp h).2
  exact keeps_draw command c

/-! ### Runs of commands -/

/-- Carries out commands one after the other, whether they are refused or not, up to the first that
breaks down. -/
def run? (c : Canvas) : List Command → Option Canvas
  | [] => some c
  | command :: rest => (c.attempt? command).bind fun outcome => outcome.2.run? rest

theorem run?_cons_eq_some_iff {command : Command} {rest : List Command} :
    c.run? (command :: rest) = some c' ↔
      ∃ status d, c.attempt? command = some (status, d) ∧ d.run? rest = some c' := by
  rw [run?, Option.bind_eq_some_iff, Prod.exists]

theorem size_run? {commands : List Command} (h : c.run? commands = some c') :
    c'.width = c.width ∧ c'.height = c.height := by
  induction commands generalizing c with
  | nil =>
      obtain rfl := Option.some.inj h
      exact ⟨rfl, rfl⟩
  | cons command rest ih =>
      obtain ⟨status, d, hd, hrest⟩ := run?_cons_eq_some_iff.mp h
      have hkeeps := keeps_of_attempt? hd
      have hr := ih hrest
      exact ⟨hr.1.trans hkeeps.width_eq, hr.2.trans hkeeps.height_eq⟩

theorem exists_run? {commands : List Command} (h : ∀ command ∈ commands, ¬command.MayBreakDown)
    (c : Canvas) : ∃ c', c.run? commands = some c' := by
  induction commands generalizing c with
  | nil => exact ⟨c, rfl⟩
  | cons command rest ih =>
      obtain ⟨c', hc'⟩ := ih (fun other ho => h other (List.mem_cons_of_mem command ho))
        (c.draw command).2
      have hd := attempt?_of_steady (h command List.mem_cons_self) c
      exact ⟨c', run?_cons_eq_some_iff.mpr ⟨_, _, hd, hc'⟩⟩

/-- Nothing but clearing makes a pixel let something through. -/
theorem IsOpaque.run? (hc : c.IsOpaque) {commands : List Command}
    (h : ∀ color, .clear color ∈ commands → color.alpha = 255)
    (hrun : c.run? commands = some c') : c'.IsOpaque := by
  induction commands generalizing c with
  | nil =>
      obtain rfl := Option.some.inj hrun
      exact hc
  | cons command rest ih =>
      obtain ⟨status, d, hd, hrest⟩ := run?_cons_eq_some_iff.mp hrun
      obtain rfl : (c.draw command).2 = d := congrArg Prod.snd (attempt?_eq_some_iff.mp hd).2
      have hopaque : (c.draw command).2.IsOpaque :=
        hc.draw fun color e => h color (e ▸ List.mem_cons_self)
      exact ih hopaque (fun color hm => h color (List.mem_cons_of_mem command hm)) hrest

/-- Of a camera image of `2 ^ 62` pixels no byte is there, and it is read all the same. -/
theorem run?_uncountable :
    (filled 1 1 (Palette.black 255)).run? [.blit uncountable ⟨0, 0, 1, 1⟩ ⟨0, 0, 1, 1⟩] = none := by
  have hbreaks : (filled 1 1 (Palette.black 255)).breaksDown
      (.blit uncountable ⟨0, 0, 1, 1⟩ ⟨0, 0, 1, 1⟩) = true :=
    breaksDown_uncountable (x := 0) (y := 0) (by simp) (by simp) (by decide) (by decide)
  rw [run?, attempt?_of_breaksDown hbreaks]
  rfl

/-- Whatever is done to a new canvas, it goes through unless it is of what may break down, and then
the canvas has its size and its number of bytes; every command that goes through changes pixels on
the canvas only, and unless it clears it takes alpha from none of them; a color over a pixel gives
means between the two, computed without loss; and a canvas that lets nothing through stays so unless
it is cleared with a color that does. -/
theorem integrity_law (width height : ℕ) (commands : List Command) :
    let black := filled width height (Palette.black 255)
    ((∀ command ∈ commands, ¬command.MayBreakDown) → ∃ c, black.run? commands = some c) ∧
      (∀ c, black.run? commands = some c →
        c.width = width ∧ c.height = height ∧ c.bytes.size = 4 * (width * height)) ∧
      (∀ (c : Canvas) command status c', c.attempt? command = some (status, c') →
        Keeps command c c') ∧
      (∀ source below : Color, Blends source below (source.over below)) ∧
      ∀ solid c' : Canvas, solid.IsOpaque → ∀ more, solid.run? more = some c' →
        (∀ color, .clear color ∈ more → color.alpha = 255) → c'.IsOpaque := by
  intro black
  refine ⟨fun h => exists_run? h black, fun c hc => ?_,
    fun c command status c' h => keeps_of_attempt? h, Color.blends_over,
    fun solid c' hs more hrun h => hs.run? h hrun⟩
  obtain ⟨hw, hh⟩ := size_run? hc
  rw [width_filled] at hw
  rw [height_filled] at hh
  exact ⟨hw, hh, by rw [c.size_eq, hw, hh]⟩

/-- A veil that sticks out of the canvas, an ellipse whose pen is not a number, and white. -/
def veil : List Command :=
  [.fillRect ⟨-1, -1, 2, 2⟩ (.solid ⟨255, 0, 0, 128⟩),
    .strokeEllipse ⟨0, 0, 2, 1⟩ (.ofBits 0x7fc00000) (Palette.white 255), .clear (Palette.white 255)]

/-- They leave a black canvas opaque, and the veil alone takes no alpha from its pixels. -/
theorem integrity_law_veil :
    let black := filled 2 1 (Palette.black 255)
    black.IsOpaque ∧ (∀ color, .clear color ∈ veil → color.alpha = 255) ∧
      (∃ c, black.run? veil = some c ∧ c.width = 2 ∧ c.IsOpaque) ∧
      ∃ status c q, black.attempt? (.fillRect ⟨-1, -1, 2, 2⟩ (.solid ⟨255, 0, 0, 128⟩)) =
        some (status, c) ∧ c.get? 0 0 = some q ∧ 255 ≤ q.alpha := by
  intro black
  obtain ⟨hgoes, hsize, hkeeps, -, hrun⟩ := integrity_law 2 1 veil
  have hblack : black.IsOpaque := isOpaque_clear _ rfl
  have hclear : ∀ color, .clear color ∈ veil → color.alpha = 255 := by
    intro color h
    have : color = Palette.white 255 := by simpa [veil] using h
    rw [this]
    rfl
  have hsteady : ∀ command ∈ veil, ¬command.MayBreakDown := by
    simp [veil, Command.MayBreakDown]
  obtain ⟨c, hc⟩ := hgoes hsteady
  have hfirst := attempt?_of_steady (hsteady _ List.mem_cons_self) black
  obtain ⟨q, hq, hle⟩ := (hkeeps _ _ _ _ hfirst).alpha_le rfl 0 0 _
    (get?_filled (by decide) (by decide) _)
  exact ⟨hblack, hclear, ⟨c, hc, (hsize c hc).1, hrun _ c hblack veil hc hclear⟩,
    _, _, q, hfirst, hq, hle⟩

end Canvas

end DriveOverlay
