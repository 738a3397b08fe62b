import DriveOverlay.Surface.Canvas

/-! # Pixels of a canvas

A canvas is known by its size and by `get?`.  `Paints g rule` says that `g` keeps the size and gives
every pixel the color that `rule` makes of its place and its old color, so that pixels do not
influence each other.  Everything that a canvas can do is of this kind:

* `paints_modify`: exactly the pixel that is named changes;
* `paints_modifySpan`: exactly the pixels of the stretch change, each once;
* `Paints.forRows`: steps that change their own row each change a range of rows;
* `Paints.comp`: one rule after the other. -/

namespace DriveOverlay.Canvas

/-! ### Indices -/

theorem index_inj {w x y x' y' : Nat} (hx : x < w) (hx' : x' < w)
    (h : y * w + x = y' * w + x') : x = x' ∧ y = y' := by
  have hy : y = y' := by
    have h1 : (y * w + x) / w = y := by
      rw [Nat.mul_comm, Nat.mul_add_div (by omega), Nat.div_eq_of_lt hx, Nat.add_zero]
    have h2 : (y' * w + x') / w = y' := by
      rw [Nat.mul_comm, Nat.mul_add_div (by omega), Nat.div_eq_of_lt hx', Nat.add_zero]
    rw [← h1, ← h2, h]
  exact ⟨by rw [hy] at h; omega, hy⟩

theorem getElem_set (b : ByteArray) (i j : Nat) (v : UInt8) (hi : i < b.size)
    (hj : j < (b.set i v hi).size) :
    (b.set i v hi)[j] = if i = j then v else getElem b j (by simpa using hj) := by
  rw [ByteArray.getElem_eq_getElem_data, ByteArray.getElem_eq_getElem_data]
  simp only [ByteArray.data_set, Array.getElem_set]

/-! ### One pixel -/

@[simp] theorem width_modify (c : Canvas) (x y : Nat) (f : Color → Color) :
    (c.modify x y f).width = c.width := by
  unfold modify
  split <;> rfl

@[simp] theorem height_modify (c : Canvas) (x y : Nat) (f : Color → Color) :
    (c.modify x y f).height = c.height := by
  unfold modify
  split <;> rfl

theorem get?_eq_none {c : Canvas} {x y : Nat} (h : ¬(x < c.width ∧ y < c.height)) :
    c.get? x y = none := by
  rw [get?, dif_neg h]

theorem modify_of_outside {c : Canvas} {x y : Nat} (h : ¬(x < c.width ∧ y < c.height))
    (f : Color → Color) : c.modify x y f = c := by
  rw [modify, dif_neg h]

theorem get?_modify (c : Canvas) (x y : Nat) (f : Color → Color) (x' y' : Nat) :
    (c.modify x y f).get? x' y' =
      (c.get? x' y').map fun p => if x' = x ∧ y' = y then f p else p := by
  by_cases h : x < c.width ∧ y < c.height
  · by_cases h' : x' < c.width ∧ y' < c.height
    · have hi := c.size_eq ▸ index_lt h.1 h.2
      have hi' := c.size_eq ▸ index_lt h'.1 h'.2
      rw [get?, get?, dif_pos h', dif_pos (by simpa using h')]
      by_cases e : x' = x ∧ y' = y
      · obtain ⟨rfl, rfl⟩ := e
        simp [modify, h, getElem_set]
      · have hne : y * c.width + x ≠ y' * c.width + x' := fun he =>
          e ((index_inj h.1 h'.1 he).imp Eq.symm Eq.symm)
        simp only [modify, h, and_self, ↓reduceDIte, getElem_set, e, if_false, Option.map_some,
          Option.some.injEq, Color.mk.injEq]
        refine ⟨?_, ?_, ?_, ?_⟩ <;> repeat rw [if_neg (by omega)]
    · rw [get?_eq_none h', get?_eq_none (by simpa using h'), Option.map_none]
  · rw [modify_of_outside h]
    by_cases e : x' = x ∧ y' = y
    · obtain ⟨rfl, rfl⟩ := e
      rw [get?_eq_none h, Option.map_none]
    · simp [e]

/-! ### Rules for all pixels -/

/-- `g` keeps the size and changes every pixel by the rule. -/
structure Paints (g : Canvas → Canvas) (rule : Nat → Nat → Color → Color) : Prop where
  width_eq : ∀ c, (g c).width = c.width
  height_eq : ∀ c, (g c).height = c.height
  get?_eq : ∀ c x y, (g c).get? x y = (c.get? x y).map (rule x y)

namespace Paints

variable {g h : Canvas → Canvas} {rule rule' : Nat → Nat → Color → Color}

theorem congr_rule (hg : Paints g rule) (e : ∀ x y p, rule x y p = rule' x y p) : Paints g rule' :=
  ⟨hg.width_eq, hg.height_eq, fun c x y => by
    rw [hg.get?_eq, show rule x y = rule' x y from funext (e x y)]⟩

theorem unchanged : Paints (fun c => c) fun _ _ p => p :=
  ⟨fun _ => rfl, fun _ => rfl, fun c x y => by simp⟩

/-- One rule after the other. -/
theorem comp (hh : Paints h rule') (hg : Paints g rule) :
    Paints (fun c => h (g c)) fun x y p => rule' x y (rule x y p) :=
  ⟨fun c => by rw [hh.width_eq, hg.width_eq], fun c => by rw [hh.height_eq, hg.height_eq],
    fun c x y => by rw [hh.get?_eq, hg.get?_eq, Option.map_map]; rfl⟩

end Paints

theorem paints_modify (x y : Nat) (f : Color → Color) :
    Paints (fun c => c.modify x y f) fun x' y' p => if x' = x ∧ y' = y then f p else p :=
  ⟨fun c => width_modify c x y f, fun c => height_modify c x y f,
    fun c x' y' => get?_modify c x y f x' y'⟩

/-! ### Stretches and rows -/

theorem paints_fold_modify (row start n : Nat) (f : Nat → Color → Color) :
    Paints (fun c => n.fold (fun i _ c => c.modify (start + i) row (f (start + i))) c)
      fun x y p => if y = row ∧ start ≤ x ∧ x < start + n then f x p else p := by
  induction n with
  | zero => exact Paints.unchanged.congr_rule fun x y p => by rw [if_neg (by omega)]
  | succ n ih =>
    simp only [Nat.fold_succ]
    refine ((paints_modify (start + n) row (f (start + n))).comp ih).congr_rule fun x y p => ?_
    by_cases hx : x = start + n
    · subst hx
      by_cases hy : y = row <;> simp [hy]
    · rw [if_neg (by omega)]
      congr 1
      exact propext ⟨fun h => by omega, fun h => by omega⟩

theorem map_get?_congr {c : Canvas} {x y : Nat} {r r' : Color → Color}
    (e : x < c.width → y < c.height → r = r') : (c.get? x y).map r = (c.get? x y).map r' := by
  by_cases h : x < c.width ∧ y < c.height
  · rw [e h.1 h.2]
  · rw [get?_eq_none h, Option.map_none, Option.map_none]

/-- Exactly the pixels of the stretch change, each once. -/
theorem paints_modifySpan (y x0 x1 : Int) (f : Nat → Color → Color) :
    Paints (fun c => c.modifySpan y x0 x1 f)
      fun x' y' p => if (y' : Int) = y ∧ x0 ≤ x' ∧ x' < x1 then f x' p else p := by
  by_cases hy : y < 0
  · refine ⟨fun c => ?_, fun c => ?_, fun c x' y' => ?_⟩
    · rw [modifySpan, if_pos hy]
    · rw [modifySpan, if_pos hy]
    · rw [modifySpan, if_pos hy]
      have : ¬((y' : Int) = y ∧ x0 ≤ x' ∧ (x' : Int) < x1) := by omega
      simp [this]
  · have stretch (c : Canvas) :=
      paints_fold_modify y.toNat x0.toNat (min x1.toNat c.width - x0.toNat) f
    refine ⟨fun c => ?_, fun c => ?_, fun c x' y' => ?_⟩
    · rw [modifySpan, if_neg hy]
      exact (stretch c).width_eq c
    · rw [modifySpan, if_neg hy]
      exact (stretch c).height_eq c
    · rw [modifySpan, if_neg hy]
      refine ((stretch c).get?_eq c x' y').trans (map_get?_congr fun hx _ => funext fun p => ?_)
      congr 1
      exact propext ⟨fun h => by omega, fun h => by omega⟩

theorem Paints.fold_rows {g : Nat → Canvas → Canvas} {rule : Nat → Nat → Color → Color}
    (hg : ∀ row, Paints (g row) fun x y p => if y = row then rule x y p else p) (start n : Nat) :
    Paints (fun c => n.fold (fun i _ c => g (start + i) c) c)
      fun x y p => if start ≤ y ∧ y < start + n then rule x y p else p := by
  induction n with
  | zero => exact Paints.unchanged.congr_rule fun x y p => by rw [if_neg (by omega)]
  | succ n ih =>
    simp only [Nat.fold_succ]
    refine ((hg (start + n)).comp ih).congr_rule fun x y p => ?_
    by_cases hy : y = start + n
    · subst hy
      simp
    · rw [if_neg hy]
      congr 1
      exact propext ⟨fun h => by omega, fun h => by omega⟩

/-- Steps that change their own row each change a range of rows. -/
theorem Paints.forRows {g : Nat → Canvas → Canvas} {rule : Nat → Nat → Color → Color}
    (hg : ∀ row, Paints (g row) fun x y p => if y = row then rule x y p else p) (y0 y1 : Int) :
    Paints (fun c => c.forRows y0 y1 g)
      fun x y p => if y0 ≤ y ∧ y < y1 then rule x y p else p := by
  have rows (c : Canvas) := Paints.fold_rows hg y0.toNat (min y1.toNat c.height - y0.toNat)
  refine ⟨fun c => (rows c).width_eq c, fun c => (rows c).height_eq c, fun c x' y' => ?_⟩
  refine ((rows c).get?_eq c x' y').trans (map_get?_congr fun _ hy => funext fun p => ?_)
  congr 1
  exact propext ⟨fun h => by omega, fun h => by omega⟩

end DriveOverlay.Canvas
