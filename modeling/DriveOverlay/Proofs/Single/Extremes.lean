import DriveOverlay.Proofs.Single.Whole

/-! # The least and the greatest of many

What picks one of two numbers, by an order, picks one of many when it is folded over them.  The fold
over finite numbers may start with an infinity: as soon as there is a number, the infinity is not
picked any more.

* `foldl_pick_spec`, `foldl_pick_mem`: what is picked comes first, and is one of the numbers;
* `foldl_pick_of_finite`: the same from an infinity;
* `least_spec`, `greatest_spec`: for `lower` and `upper`. -/

namespace DriveOverlay.Single

/-! ### Of two -/

theorem lower_le {a b : Float32} (ha : a.isNaN = false) (hb : b.isNaN = false) :
    (lower a b).isNaN = false ∧ value (lower a b) ≤ value a ∧ value (lower a b) ≤ value b := by
  obtain ⟨hn, hv⟩ := lower_spec ha hb
  exact ⟨hn, hv.trans_le (min_le_left _ _), hv.trans_le (min_le_right _ _)⟩

theorem upper_ge {a b : Float32} (ha : a.isNaN = false) (hb : b.isNaN = false) :
    (upper a b).isNaN = false ∧ value (upper a b) ≥ value a ∧ value (upper a b) ≥ value b := by
  obtain ⟨hn, hv⟩ := upper_spec ha hb
  exact ⟨hn, (le_max_left _ _).trans_eq hv.symm, (le_max_right _ _).trans_eq hv.symm⟩

/-! ### Of many -/

section

variable {α : Type} {pick : Float32 → Float32 → Float32} {before : ℚ → ℚ → Prop}

/-- What picks one of two numbers, by an order, picks the first of many. -/
theorem foldl_pick_spec [IsPreorder ℚ before]
    (hpick : ∀ {a b}, a.isNaN = false → b.isNaN = false → (pick a b).isNaN = false ∧
      before (value (pick a b)) (value a) ∧ before (value (pick a b)) (value b))
    (number : α → Float32) (xs : List α) (start : Float32) (hs : start.isNaN = false)
    (hx : ∀ x ∈ xs, (number x).isNaN = false) :
    (xs.foldl (fun first x => pick first (number x)) start).isNaN = false ∧
      before (value (xs.foldl (fun first x => pick first (number x)) start)) (value start) ∧
      ∀ x ∈ xs, before (value (xs.foldl (fun first x => pick first (number x)) start))
        (value (number x)) := by
  induction xs generalizing start with
  | nil => exact ⟨hs, refl_of before _, fun x hx => by cases hx⟩
  | cons first rest ih =>
      obtain ⟨hf, hr⟩ := List.forall_mem_cons.mp hx
      obtain ⟨hn, hl, hl'⟩ := hpick hs hf
      obtain ⟨ihn, ihs, ihx⟩ := ih (pick start (number first)) hn hr
      refine ⟨ihn, trans_of before ihs hl, List.forall_mem_cons.mpr ⟨?_, ihx⟩⟩
      exact trans_of before ihs hl'

/-- What picks one of two numbers picks one of many, or the one it starts with. -/
theorem foldl_pick_mem (hpick : ∀ a b, pick a b = a ∨ pick a b = b) (number : α → Float32)
    (xs : List α) (start : Float32) :
    xs.foldl (fun first x => pick first (number x)) start = start ∨
      ∃ x ∈ xs, xs.foldl (fun first x => pick first (number x)) start = number x := by
  refine List.foldlRecOn (motive := fun first => first = start ∨ ∃ x ∈ xs, first = number x)
    xs _ (.inl rfl) fun first hf x hx => ?_
  rcases hpick first (number x) with h | h
  · rwa [h]
  · exact .inr ⟨x, hx, h⟩

/-- A start that comes before no finite number is not picked when there is one. -/
theorem foldl_pick_of_finite [IsPreorder ℚ before]
    (hpick : ∀ {a b}, a.isNaN = false → b.isNaN = false → (pick a b).isNaN = false ∧
      before (value (pick a b)) (value a) ∧ before (value (pick a b)) (value b))
    (hone : ∀ a b, pick a b = a ∨ pick a b = b) {start : Float32} (hs : start.isNaN = false)
    (hlast : ∀ x : Float32, x.isFinite = true → ¬before (value start) (value x))
    {xs : List Float32} (hx : ∀ x ∈ xs, x.isFinite = true) (hne : xs ≠ []) :
    xs.foldl pick start ∈ xs ∧ ∀ x ∈ xs, before (value (xs.foldl pick start)) (value x) := by
  obtain ⟨-, -, hfirst⟩ : _ ∧ _ ∧ ∀ x ∈ xs, before (value (xs.foldl pick start)) (value x) :=
    foldl_pick_spec hpick id xs start hs fun x hm => isNaN_of_isFinite (hx x hm)
  refine ⟨?_, hfirst⟩
  rcases foldl_pick_mem hone id xs start with h | ⟨x, hm, h⟩
  · obtain ⟨x, hm⟩ := List.exists_mem_of_ne_nil xs hne
    have hstart : xs.foldl pick start = start := h
    exact absurd (hstart ▸ hfirst x hm) (hlast x (hx x hm))
  · have hpicked : xs.foldl pick start = x := h
    rwa [hpicked]

end

/-! ### From an infinity -/

theorem value_lt_infinity {x : Float32} (h : x.isFinite = true) : value x < value infinity := by
  have hlt := (isFinite_iff.mp h).2
  have hi : index infinity = infinityIndex := by decide
  refine grid_strictMono ?_
  omega

theorem neg_infinity_lt_value {x : Float32} (h : x.isFinite = true) :
    value (-infinity) < value x := by
  have hlt := (isFinite_iff.mp h).2
  have hi : index (-infinity) = -infinityIndex := by decide
  refine grid_strictMono ?_
  omega

variable {xs : List Float32}

/-- The least of finite numbers. -/
theorem least_spec (hx : ∀ x ∈ xs, x.isFinite = true) (hne : xs ≠ []) :
    xs.foldl lower infinity ∈ xs ∧ ∀ x ∈ xs, value (xs.foldl lower infinity) ≤ value x :=
  foldl_pick_of_finite lower_le lower_eq_or rfl (fun _ h => (value_lt_infinity h).not_ge) hx hne

/-- The greatest of finite numbers. -/
theorem greatest_spec (hx : ∀ x ∈ xs, x.isFinite = true) (hne : xs ≠ []) :
    xs.foldl upper (-infinity) ∈ xs ∧ ∀ x ∈ xs, value (xs.foldl upper (-infinity)) ≥ value x :=
  foldl_pick_of_finite upper_ge upper_eq_or rfl (fun _ h => (neg_infinity_lt_value h).not_ge) hx hne

end DriveOverlay.Single
