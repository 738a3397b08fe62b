import DriveOverlay.Text.Cells
import Mathlib.Data.Int.Notation
import Mathlib.Data.List.Nodup

/-! # Lit cells

No cell of a text is lit twice: a glyph keeps to its own columns of the line, and a line to its own
rows.

* `Font.nodup_litCells`: the cells of one glyph;
* `between_of_mem_charCells`, `le_of_mem_linesCells`, `lt_of_mem_cells`: how far characters, lines
  and texts reach;
* `cells_replicate`: a line after many others;
* `nodup_cells`: the cells of a text. -/

namespace DriveOverlay

namespace Font

theorem mem_litCells {bitmap : ℕ} {cell : ℕ × ℕ} :
    cell ∈ litCells bitmap ↔ isLit bitmap cell.1 cell.2 = true := by
  obtain ⟨column, row⟩ := cell
  simp only [litCells, List.mem_flatMap, List.mem_filterMap, List.mem_range,
    Option.ite_none_right_eq_some, Option.some.injEq, Prod.mk.injEq]
  constructor
  · rintro ⟨_, -, _, -, hlit, rfl, rfl⟩
    exact hlit
  · intro hlit
    have hin := hlit
    simp only [isLit, Bool.and_eq_true, decide_eq_true_eq] at hin
    exact ⟨row, hin.1.2, column, hin.1.1, hlit, rfl, rfl⟩

theorem lt_of_mem_litCells {bitmap : ℕ} {cell : ℕ × ℕ} (h : cell ∈ litCells bitmap) :
    cell.1 < width ∧ cell.2 < height := by
  rw [mem_litCells, isLit, Bool.and_eq_true, Bool.and_eq_true, decide_eq_true_eq,
    decide_eq_true_eq] at h
  exact h.1

theorem nodup_litCells (bitmap : ℕ) : (litCells bitmap).Nodup := by
  rw [litCells, List.nodup_flatMap]
  refine ⟨fun row _ => List.nodup_range.filterMap ?_, List.nodup_range.imp ?_⟩
  · intro a a' cell ha ha'
    simp only [Option.mem_def, Option.ite_none_right_eq_some, Option.some.injEq] at ha ha'
    exact congrArg Prod.fst (ha.2.trans ha'.2.symm)
  · intro row row' hne cell hc hc'
    simp only [List.mem_filterMap, Option.ite_none_right_eq_some, Option.some.injEq] at hc hc'
    obtain ⟨_, -, -, rfl⟩ := hc
    obtain ⟨_, -, -, h⟩ := hc'
    exact hne (congrArg Prod.snd h).symm

end Font

namespace Text

/-- Characters keep to the columns from that of the first one on, and to the rows of their line. -/
theorem between_of_mem_charCells {column top : ℤ} {characters : List Char} {cell : ℤ × ℤ}
    (h : cell ∈ charCells column top characters) :
    column ≤ cell.1 ∧ top ≤ cell.2 ∧ cell.2 < top + Font.height := by
  induction characters generalizing column with
  | nil => cases h
  | cons c cs ih =>
      rcases List.mem_append.mp h with h | h
      · obtain ⟨lit, hlit, rfl⟩ := List.mem_map.mp h
        have := Font.lt_of_mem_litCells hlit
        dsimp only
        omega
      · obtain ⟨hc, hr⟩ := ih h
        exact ⟨by omega, hr⟩

theorem nodup_charCells (column top : ℤ) (characters : List Char) :
    (charCells column top characters).Nodup := by
  induction characters generalizing column with
  | nil => exact List.nodup_nil
  | cons c cs ih =>
      rw [charCells, List.nodup_append]
      refine ⟨(Font.nodup_litCells _).map ?_, ih _, ?_⟩
      · rintro ⟨x, y⟩ ⟨x', y'⟩ h
        rw [Prod.mk.injEq] at h ⊢
        omega
      · rintro _ hlit cell hrest rfl
        obtain ⟨lit, hlit, heq⟩ := List.mem_map.mp hlit
        have hthis := (Font.lt_of_mem_litCells hlit).1
        have hnext := (between_of_mem_charCells hrest).1
        rw [← heq] at hnext
        dsimp only at hnext
        omega

/-- Lines keep to the rows from the top of the first one on. -/
theorem le_of_mem_linesCells {align : TextAlign} {baseline : ℤ} {lines : List (List Char)}
    {cell : ℤ × ℤ} (h : cell ∈ linesCells align baseline lines) :
    baseline - Font.ascent ≤ cell.2 := by
  induction lines generalizing baseline with
  | nil => cases h
  | cons line lines ih =>
      rcases List.mem_append.mp h with h | h
      · exact (between_of_mem_charCells h).2.1
      · have := ih h
        omega

theorem lt_of_mem_linesCells {align : TextAlign} {baseline : ℤ} {lines : List (List Char)}
    {cell : ℤ × ℤ} (h : cell ∈ linesCells align baseline lines) :
    cell.2 < baseline - Font.ascent + Font.height * lines.length := by
  induction lines generalizing baseline with
  | nil => cases h
  | cons line lines ih =>
      have hheight : (Font.height : ℤ) = 20 := rfl
      rw [hheight] at ih ⊢
      rw [List.length_cons]
      rcases List.mem_append.mp h with h | h
      · have := (between_of_mem_charCells h).2.2
        omega
      · have := ih h
        omega

theorem linesCells_replicate (align : TextAlign) (baseline : ℤ) (n : ℕ) (lines : List (List Char)) :
    linesCells align baseline (List.replicate n [] ++ lines) =
      linesCells align (baseline + Font.height * n) lines := by
  induction n generalizing baseline with
  | zero =>
      have hstay : baseline + Font.height * (0 : ℕ) = baseline := by omega
      rw [hstay, List.replicate_zero, List.nil_append]
  | succ n ih =>
      have hnil : lineCells align baseline [] = [] := rfl
      have hheight : (Font.height : ℤ) = 20 := rfl
      have hdown : baseline + Font.height + Font.height * (n : ℤ) =
          baseline + Font.height * (n + 1 : ℕ) := by
        rw [hheight]
        omega
      rw [List.replicate_succ, List.cons_append, linesCells, hnil, List.nil_append, ih, hdown]

/-! ### Line breaks -/

theorem length_splitOn_le (characters : List Char) :
    (characters.splitOn '\n').length ≤ characters.length + 1 := by
  unfold List.splitOn
  induction characters with
  | nil => exact Nat.le_refl 1
  | cons c cs ih =>
      rw [List.splitOnP_cons_eq_if_modifyHead, List.length_cons]
      split
      · rw [List.length_cons]
        omega
      · rw [List.length_modifyHead]
        omega

theorem splitOn_replicate (n : ℕ) (characters : List Char) :
    (List.replicate n '\n' ++ characters).splitOn '\n' =
      List.replicate n [] ++ characters.splitOn '\n' := by
  unfold List.splitOn
  induction n with
  | zero => rfl
  | succ n ih =>
      rw [List.replicate_succ, List.cons_append, List.splitOnP_cons_eq_if_modifyHead, ih]
      rfl

/-- How far down a text goes, from its length. -/
theorem lt_of_mem_cells {s : String} {align : TextAlign} {cell : ℤ × ℤ} (h : cell ∈ cells s align) :
    cell.2 < Font.height * (s.length + 1) := by
  have hlines := length_splitOn_le s.toList
  have hrow := lt_of_mem_linesCells h
  have hheight : (Font.height : ℤ) = 20 := rfl
  rw [String.length_toList] at hlines
  rw [hheight] at hrow ⊢
  omega

/-- After line breaks, the last line stands as many lines further down. -/
theorem cells_replicate (align : TextAlign) (n : ℕ) (characters : List Char) :
    cells (String.ofList (List.replicate n '\n' ++ characters)) align =
      linesCells align (Font.height * n) (characters.splitOn '\n') := by
  rw [cells, String.toList_ofList, splitOn_replicate, linesCells_replicate, Int.zero_add]

theorem nodup_linesCells (align : TextAlign) (baseline : ℤ) (lines : List (List Char)) :
    (linesCells align baseline lines).Nodup := by
  induction lines generalizing baseline with
  | nil => exact List.nodup_nil
  | cons line lines ih =>
      rw [linesCells, List.nodup_append]
      refine ⟨nodup_charCells _ _ _, ih _, ?_⟩
      rintro cell hline _ hrest rfl
      have hthis := (between_of_mem_charCells hline).2.2
      have hnext := le_of_mem_linesCells hrest
      omega

/-- No cell of a text is lit twice. -/
theorem nodup_cells (s : String) (align : TextAlign) : (cells s align).Nodup :=
  nodup_linesCells align 0 _

end Text

end DriveOverlay
