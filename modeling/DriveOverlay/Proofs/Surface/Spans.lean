import DriveOverlay.Proofs.Surface.Crossings
import DriveOverlay.Surface.Canvas.Lemmas
import DriveOverlay.Surface.Shapes

/-! # The spans of a row

The crossings of a row are put in order and taken two at a time.

* `column_le_of_rank_le`: a crossing further right begins at a column further right;
* `cover_spans`: a column is in one span when an odd number of crossings is not right of it, else in
  none;
* `paints_fillSpans`: a pixel gets the color as often as its column is in a span. -/

namespace DriveOverlay.Scanline

open Single

/-! ### Crossings in order -/

theorem index_le_of_rank_le {a b : Float32} (ha : a.isNaN = false) (hb : b.isNaN = false)
    (h : rank a ≤ rank b) : index a ≤ index b := by
  have hbits := b.toBits.toNat_lt
  unfold rank at h
  dsimp only at h
  rw [ha, hb, if_neg Bool.false_ne_true, if_neg Bool.false_ne_true] at h
  rw [index_eq_toBits ha, index_eq_toBits hb]
  split_ifs at h ⊢ <;> omega

/-- A crossing further right begins at a column further right. -/
theorem column_le_of_rank_le {a b : Float32} (ha : a.isNaN = false) (hb : b.isNaN = false)
    (h : rank a ≤ rank b) : column a ≤ column b := by
  have hhalf : (0.5 : Float32).isFinite = true := rfl
  have hi := index_sub_mono ha hb hhalf (index_le_of_rank_le ha hb h)
  have hc := Int.ceil_mono (grid_strictMono.monotone hi)
  obtain ⟨hna, hva⟩ := ceil_spec (isNaN_sub ha hhalf)
  obtain ⟨hnb, hvb⟩ := ceil_spec (isNaN_sub hb hhalf)
  unfold column
  rw [toInt32_eq hna hva, toInt32_eq hnb hvb]
  unfold value
  omega

theorem crossings_perm (edges : List (Point × Point)) (y : Float32) :
    (crossings edges y).Perm (edges.filterMap (crossing? y)) :=
  List.mergeSort_perm _ _

theorem crossings_pairwise (edges : List (Point × Point)) (y : Float32) :
    (crossings edges y).Pairwise fun a b => rank a ≤ rank b := by
  have h : (crossings edges y).Pairwise fun a b => decide (rank a ≤ rank b) = true := by
    apply List.pairwise_mergeSort
    · intro a b c hab hbc
      rw [decide_eq_true_eq] at hab hbc ⊢
      exact hab.trans hbc
    · intro a b
      rw [Bool.or_eq_true, decide_eq_true_eq, decide_eq_true_eq]
      exact le_total _ _
  exact h.imp of_decide_eq_true

/-! ### Spans -/

/-- How many spans have a column. -/
def cover (x : ℤ) (spans : List (ℤ × ℤ)) : ℕ :=
  spans.countP fun s => s.1 ≤ x ∧ x < s.2

theorem cover_cons (x : ℤ) (s : ℤ × ℤ) (rest : List (ℤ × ℤ)) :
    cover x (s :: rest) = cover x rest + if s.1 ≤ x ∧ x < s.2 then 1 else 0 := by
  unfold cover
  rw [List.countP_cons]
  simp only [decide_eq_true_eq]

theorem add_mem_span {x first second : ℤ} {n : ℕ} (h : first ≤ second)
    (h0 : ¬second ≤ x → n = 0) : (n % 2 + if first ≤ x ∧ x < second then 1 else 0) =
      ((n + if second ≤ x then 1 else 0) + if first ≤ x then 1 else 0) % 2 := by
  split_ifs <;> omega

/-- A column is in one span when an odd number of crossings is not right of it, else in none. -/
theorem cover_spans (x : ℤ) (l : List Float32) (hl : l.Pairwise fun a b => column a ≤ column b)
    (he : Even l.length) : cover x (spans l) = (l.countP fun c => column c ≤ x) % 2 := by
  induction l using spans.induct with
  | case1 a b rest ih =>
      obtain ⟨ha, hl⟩ := List.pairwise_cons.mp hl
      obtain ⟨hb, hl⟩ := List.pairwise_cons.mp hl
      have hab := ha b List.mem_cons_self
      have hr : Even rest.length := by
        rwa [List.length_cons, List.length_cons, Nat.even_add_one, Nat.even_add_one, not_not] at he
      have ih := ih hl hr
      -- nothing after the span begins early enough for a column left of its end
      have h0 : ¬column b ≤ x → rest.countP (fun c => column c ≤ x) = 0 := by
        intro hx
        rw [List.countP_eq_zero]
        intro c hc
        rw [decide_eq_true_eq, not_le]
        exact (not_le.mp hx).trans_le (hb c hc)
      rw [spans, cover_cons, ih, List.countP_cons, List.countP_cons]
      simp only [decide_eq_true_eq]
      exact add_mem_span hab h0
  | case2 l h =>
      cases l with
      | nil => rfl
      | cons a rest =>
          cases rest with
          | nil => exact absurd he Nat.not_even_one
          | cons b rest => exact (h a b rest rfl).elim

theorem cover_le_one (x : ℤ) {l : List Float32}
    (hl : l.Pairwise fun a b => column a ≤ column b) (he : Even l.length) :
    cover x (spans l) ≤ 1 := by
  rw [cover_spans x l hl he]
  exact Nat.le_of_lt_succ (Nat.mod_lt _ two_pos)

/-- Each span that has a pixel puts the color over it once more. -/
theorem paints_fillSpans (y : ℕ) (color : Color) (spans : List (ℤ × ℤ)) :
    Canvas.Paints (fun c => c.fillSpans y color spans)
      fun x y' p => if y' = y then color.over^[cover x spans] p else p := by
  induction spans with
  | nil => exact Canvas.Paints.unchanged.congr_rule fun x y' p => (ite_self p).symm
  | cons s rest ih =>
      refine (ih.comp (Canvas.paints_modifySpan y s.1 s.2 fun _ => color.over)).congr_rule
        fun x y' p => ?_
      rw [cover_cons]
      by_cases hy : y' = y
      · subst hy
        by_cases hx : s.1 ≤ x ∧ (x : ℤ) < s.2
        · simp only [hx, and_self, if_true]
          rfl
        · simp only [hx, and_false, if_true, if_false]
          rfl
      · rw [if_neg hy, if_neg hy, if_neg (by omega)]

end DriveOverlay.Scanline
