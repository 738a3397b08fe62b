import DriveOverlay.Proofs.Text.Words
import DriveOverlay.Text.Style
import Mathlib.Algebra.Order.Ring.Int
import Mathlib.Data.List.Chain
import Mathlib.Data.List.Infix

/-! # Wrapped text

Wrapping puts the words of a text into groups, one for each line, and joins each group by single
spaces.  It is greedy: a group is closed when the next word would make its line too wide.

Widths are computed in 32 bits.  A line that is too long for them may seem to be narrow, so that more
words than fit are put on it, or that other lines seem to do with fewer of them.

* `linesFrom_eq`: wrapping is grouping (`groupsFrom`), whatever counts as fitting;
* `length_le_of_tight`: groups closed only when they must be are as few as there can be, because
  part of a line is no wider than the line;
* `wrap_not_shortest`: lines too long for 32 bits that seem to be within the width;
* `wrapping_law`: what is true of the lines. -/

namespace DriveOverlay.Text

/-! ### Groups -/

section

variable {α : Type} (fits : List α → Bool)

/-- Greedy groups of items behind the beginning of the first one. -/
def groupsFrom (group : List α) : List α → List (List α)
  | [] => [group]
  | item :: rest =>
    if fits (group ++ [item]) then groupsFrom (group ++ [item]) rest
    else group :: groupsFrom [item] rest

/-- The second group begins with an item that does not fit into the first. -/
def Tight (group next : List α) : Prop :=
  ∃ item rest, next = item :: rest ∧ fits (group ++ [item]) = false

variable {fits}

theorem flatten_groupsFrom (group items : List α) :
    (groupsFrom fits group items).flatten = group ++ items := by
  induction items generalizing group with
  | nil => simp [groupsFrom]
  | cons item rest ih =>
      rw [groupsFrom]
      split
      · simp [ih]
      · simp [ih]

theorem forall_mem_groupsFrom {p : List α → Prop} {group : List α} (hgroup : p group)
    (hone : ∀ item, p [item]) (hmore : ∀ g item, fits (g ++ [item]) = true → p (g ++ [item]))
    (items : List α) : ∀ g ∈ groupsFrom fits group items, p g := by
  induction items generalizing group with
  | nil => simpa [groupsFrom] using hgroup
  | cons item rest ih =>
      rw [groupsFrom]
      split
      · rename_i hfits
        exact ih (hmore group item hfits)
      · rw [List.forall_mem_cons]
        exact ⟨hgroup, ih (hone item)⟩

theorem exists_groupsFrom_eq (group items : List α) :
    ∃ more others, groupsFrom fits group items = (group ++ more) :: others := by
  induction items generalizing group with
  | nil => exact ⟨[], [], by simp [groupsFrom]⟩
  | cons item rest ih =>
      rw [groupsFrom]
      split
      · obtain ⟨more, others, h⟩ := ih (group ++ [item])
        exact ⟨item :: more, others, by simp [h]⟩
      · exact ⟨[], groupsFrom fits [item] rest, by simp⟩

theorem isChain_groupsFrom (group items : List α) :
    (groupsFrom fits group items).IsChain (Tight fits) := by
  induction items generalizing group with
  | nil => exact List.isChain_singleton _
  | cons item rest ih =>
      rw [groupsFrom]
      split
      · exact ih (group ++ [item])
      · rename_i hfits
        obtain ⟨more, others, h⟩ : ∃ more others,
            groupsFrom fits [item] rest = ([item] ++ more) :: others := exists_groupsFrom_eq [item] rest
        have hnext := ih [item]
        rw [h] at hnext ⊢
        refine List.isChain_cons_cons.mpr ⟨?_, hnext⟩
        exact ⟨item, more, rfl, Bool.not_eq_true _ ▸ hfits⟩

theorem Tight.mono {fits' : List α → Bool} (hle : ∀ g, fits' g = true → fits g = true)
    {group next : List α} (h : Tight fits group next) : Tight fits' group next := by
  obtain ⟨item, rest, hnext, hfull⟩ := h
  refine ⟨item, rest, hnext, ?_⟩
  by_contra hfits
  rw [hle _ (Bool.not_eq_false _ ▸ hfits)] at hfull
  cases hfull

theorem Tight.eq_nil_of_append {group next front back rest tail : List α}
    (h : Tight fits group next) (hpart : ∀ part line, part <:+: line → fits line = true →
      fits part = true)
    (hne : group ≠ [])
    (hline : 2 ≤ (front ++ group ++ back).length → fits (front ++ group ++ back) = true)
    (htail : next ++ tail = back ++ rest) : back = [] := by
  obtain ⟨item, more, rfl, hfull⟩ := h
  cases back with
  | nil => rfl
  | cons first back =>
      obtain ⟨rfl, -⟩ := List.cons.inj htail
      have hlong : 2 ≤ (front ++ group ++ item :: back).length := by
        have := List.length_pos_iff.mpr hne
        simp only [List.length_append, List.length_cons]
        omega
      have hin : group ++ [item] <:+: front ++ group ++ item :: back := ⟨front, back, by simp⟩
      rw [hpart _ _ hin (hline hlong)] at hfull
      cases hfull

/-- Groups closed only when they must be are as few as there can be, also when the others have some
items more to begin with. -/
theorem length_le_of_tight
    (hpart : ∀ part line, part <:+: line → fits line = true → fits part = true)
    {groups others : List (List α)} (htight : groups.IsChain (Tight fits))
    (hne : ∀ g ∈ groups, g ≠ []) (hfits : ∀ g ∈ others, 2 ≤ g.length → fits g = true)
    {front : List α} (hitems : others.flatten = front ++ groups.flatten) :
    groups.length ≤ others.length := by
  induction others generalizing front groups with
  | nil =>
      cases groups with
      | nil => exact Nat.le_refl _
      | cons g rest => simp_all
  | cons other others ih =>
      obtain ⟨hother, hothers⟩ := List.forall_mem_cons.mp hfits
      cases groups with
      | nil => exact Nat.zero_le _
      | cons g rest =>
          obtain ⟨hg, hrest⟩ := List.forall_mem_cons.mp hne
          suffices h : ∃ behind, others.flatten = behind ++ rest.flatten by
            obtain ⟨behind, h⟩ := h
            exact Nat.succ_le_succ (ih htight.tail hrest hothers h)
          rw [List.flatten_cons, List.flatten_cons, ← List.append_assoc] at hitems
          rcases List.append_eq_append_iff.mp hitems with ⟨behind, -, h⟩ | ⟨ahead, rfl, h⟩
          · exact ⟨behind, h⟩
          · cases rest with
            | nil => simp_all
            | cons next rest =>
                obtain ⟨hgn, -⟩ := List.isChain_cons_cons.mp htight
                have hnil := hgn.eq_nil_of_append hpart hg hother h
                exact ⟨[], by simp [h, hnil]⟩

end

/-! ### Lines -/

/-- Wrapping is grouping. -/
theorem linesFrom_eq (fits : String → Bool) {group : List String} (hne : group ≠ [])
    (items : List String) :
    linesFrom fits (" ".intercalate group) items =
      (groupsFrom (fun g => fits (" ".intercalate g)) group items).map (" ".intercalate ·) := by
  induction items generalizing group with
  | nil => simp [linesFrom, groupsFrom]
  | cons item rest ih =>
      have hlonger : " ".intercalate group ++ " " ++ item = " ".intercalate (group ++ [item]) := by
        rw [String.intercalate_append_of_ne_nil hne (by simp), String.intercalate_singleton]
      have hmore := ih (List.append_ne_nil_of_right_ne_nil group (List.cons_ne_nil item []))
      have hone := ih (List.cons_ne_nil item [])
      rw [String.intercalate_singleton] at hone
      rw [linesFrom, groupsFrom, hlonger, hmore, hone]
      split <;> rfl

/-- The line of a group stays within the width. -/
def groupFits (size : Float32) (maxWidth : ℤ) (group : List String) : Bool :=
  width (" ".intercalate group) size ≤ maxWidth

/-- The greedy groups of the words of a text. -/
def wordGroups (s : String) (size : Float32) (maxWidth : ℤ) : List (List String) :=
  match words s with
  | [] => []
  | word :: rest => groupsFrom (groupFits size maxWidth) [word] rest

theorem wrap_eq (s : String) (size : Float32) (maxWidth : ℤ) :
    wrap s size maxWidth = (wordGroups s size maxWidth).map (" ".intercalate ·) := by
  unfold wrap wordGroups
  cases words s with
  | nil => rfl
  | cons word rest =>
      have h := linesFrom_eq (fun line => width line size ≤ maxWidth) (List.cons_ne_nil word []) rest
      rwa [String.intercalate_singleton] at h

section

variable (s : String) (size : Float32) (maxWidth : ℤ)

theorem flatten_wordGroups : (wordGroups s size maxWidth).flatten = words s := by
  unfold wordGroups
  split
  · rename_i h
    rw [h, List.flatten_nil]
  · rename_i h
    rw [h, flatten_groupsFrom, List.singleton_append]

theorem isChain_wordGroups : (wordGroups s size maxWidth).IsChain (Tight (groupFits size maxWidth)) := by
  unfold wordGroups
  split
  · exact List.isChain_nil
  · exact isChain_groupsFrom _ _

theorem wordGroups_spec : ∀ g ∈ wordGroups s size maxWidth,
    g ≠ [] ∧ (2 ≤ g.length → groupFits size maxWidth g = true) := by
  unfold wordGroups
  split
  · simp
  · exact forall_mem_groupsFrom (by simp) (by simp) (fun g item h => by simp [h]) _

variable {s size maxWidth}

theorem words_of_mem_wordGroups {g : List String} (h : g ∈ wordGroups s size maxWidth) :
    words (" ".intercalate g) = g := by
  refine words_intercalate fun w hw => isWord_of_mem_words (s := s) ?_
  rw [← flatten_wordGroups s size maxWidth]
  exact List.mem_flatten_of_mem h hw

end

theorem map_words_wrap (s : String) (size : Float32) (maxWidth : ℤ) :
    (wrap s size maxWidth).map words = wordGroups s size maxWidth := by
  rw [wrap_eq, List.map_map]
  conv_rhs => rw [← List.map_id (wordGroups s size maxWidth)]
  exact List.map_congr_left fun g hg => words_of_mem_wordGroups hg

/-! ### Widths -/

/-- The width of a text on one line, however large. -/
def fullWidth (s : String) (size : Float32) : ℤ :=
  s.length * Font.width * glyphScale size

theorem fullWidth_nonneg (s : String) (size : Float32) : 0 ≤ fullWidth s size :=
  mul_nonneg (Int.natCast_nonneg (s.length * Font.width)) (glyphScale_pos size).le

theorem width_le_fullWidth (s : String) (size : Float32) : width s size ≤ fullWidth s size :=
  signed32_le (le_trans (by decide) (fullWidth_nonneg s size))

theorem fullWidth_mono {a b : String} (h : a.length ≤ b.length) (size : Float32) :
    fullWidth a size ≤ fullWidth b size := by
  have hcells : (a.length * Font.width : ℤ) ≤ b.length * Font.width := by
    exact_mod_cast Nat.mul_le_mul_right Font.width h
  exact mul_le_mul_of_nonneg_right hcells (glyphScale_pos size).le

theorem width_eq_fullWidth {s : String} {size : Float32} (h : fullWidth s size < 2 ^ 31) :
    width s size = fullWidth s size :=
  signed32_of_isSigned32 ⟨le_trans (by decide) (fullWidth_nonneg s size), h⟩

theorem length_intercalate_le {part line : List String} (h : part <:+: line) :
    (" ".intercalate part).length ≤ (" ".intercalate line).length := by
  have hadd (a b : List String) : (" ".intercalate a).length ≤ (" ".intercalate (a ++ b)).length ∧
      (" ".intercalate b).length ≤ (" ".intercalate (a ++ b)).length := by
    by_cases ha : a = []
    · simp [ha]
    · by_cases hb : b = []
      · simp [hb]
      · rw [String.intercalate_append_of_ne_nil ha hb, String.length_append, String.length_append]
        omega
  obtain ⟨before, after, rfl⟩ := h
  exact (hadd before part).2.trans (hadd (before ++ part) after).1

section

variable {s : String} {size : Float32} {maxWidth : ℤ}

/-- The line of a group is within the width, however long it is. -/
def groupFitsFully (size : Float32) (maxWidth : ℤ) (group : List String) : Bool :=
  fullWidth (" ".intercalate group) size ≤ maxWidth

theorem groupFits_of_fully {group : List String} (h : groupFitsFully size maxWidth group = true) :
    groupFits size maxWidth group = true :=
  decide_eq_true ((width_le_fullWidth _ size).trans (of_decide_eq_true h))

theorem groupFitsFully_of_part {part line : List String} (h : part <:+: line)
    (hline : groupFitsFully size maxWidth line = true) :
    groupFitsFully size maxWidth part = true := by
  unfold groupFitsFully at hline ⊢
  rw [decide_eq_true_eq] at hline ⊢
  exact (fullWidth_mono (length_intercalate_le h) size).trans hline

theorem fullWidth_intercalate_le {part : List String} (h : part <:+: words s) :
    fullWidth (" ".intercalate part) size ≤ fullWidth s size :=
  fullWidth_mono ((length_intercalate_le h).trans (length_intercalate_words_le s)) size

theorem words_mem_wordGroups {line : String} (h : line ∈ wrap s size maxWidth) :
    words line ∈ wordGroups s size maxWidth := by
  rw [← map_words_wrap]
  exact List.mem_map_of_mem h

theorem words_infix_of_mem_wrap {line : String} (h : line ∈ wrap s size maxWidth) :
    words line <:+: words s := by
  rw [← flatten_wordGroups s size maxWidth]
  exact List.infix_of_mem_flatten (words_mem_wordGroups h)

theorem eq_intercalate_of_mem_wrap {line : String} (h : line ∈ wrap s size maxWidth) :
    line = " ".intercalate (words line) := by
  rw [wrap_eq, List.mem_map] at h
  obtain ⟨g, hg, rfl⟩ := h
  rw [words_of_mem_wordGroups hg]

theorem line_of_mem_wrap {line : String} (h : line ∈ wrap s size maxWidth) :
    line ≠ "" ∧ (2 ≤ (words line).length → width line size ≤ maxWidth) := by
  obtain ⟨hne, hfits⟩ := wordGroups_spec s size maxWidth _ (words_mem_wordGroups h)
  refine ⟨?_, fun h2 => ?_⟩
  · rintro rfl
    exact hne rfl
  · have hw := of_decide_eq_true (hfits h2)
    rwa [← eq_intercalate_of_mem_wrap h] at hw

theorem exists_break {line next : String} (h : [line, next] <:+: wrap s size maxWidth) :
    ∃ word rest, words next = word :: rest ∧ maxWidth < width (line ++ " " ++ word) size ∧
      fullWidth (line ++ " " ++ word) size ≤ fullWidth s size := by
  have hgroups := h.map words
  rw [map_words_wrap] at hgroups
  obtain ⟨before, after, heq⟩ := hgroups
  have hchain := isChain_wordGroups s size maxWidth
  rw [← heq] at hchain
  obtain ⟨word, rest, hnext, hfull⟩ :=
    List.isChain_pair.mp hchain.left_of_append.right_of_append
  have hline : line ∈ wrap s size maxWidth := h.subset (by simp)
  have hne : words line ≠ [] := by
    intro h0
    have heq := eq_intercalate_of_mem_wrap hline
    rw [h0] at heq
    exact (line_of_mem_wrap hline).1 heq
  have hlonger : line ++ " " ++ word = " ".intercalate (words line ++ [word]) := by
    rw [String.intercalate_append_of_ne_nil hne (by simp), String.intercalate_singleton,
      ← eq_intercalate_of_mem_wrap hline]
  have hin : words line ++ [word] <:+: words s := by
    have hflat := List.IsInfix.flatten ⟨before, after, heq⟩
    rw [flatten_wordGroups] at hflat
    refine List.IsInfix.trans ⟨[], rest, ?_⟩ hflat
    simp [hnext]
  refine ⟨word, rest, hnext, ?_, ?_⟩
  · rw [hlonger]
    exact not_le.mp (of_decide_eq_false hfull)
  · rw [hlonger]
    exact fullWidth_intercalate_le hin

theorem length_wrap_le {others : List String} (hwords : others.flatMap words = words s)
    (hfits : ∀ line ∈ others, 2 ≤ (words line).length → fullWidth line size ≤ maxWidth) :
    (wrap s size maxWidth).length ≤ others.length := by
  have hitems : (others.map words).flatten = [] ++ (wordGroups s size maxWidth).flatten := by
    rw [flatten_wordGroups, List.nil_append, ← hwords, List.flatMap_def]
  have hgroups : ∀ g ∈ others.map words, 2 ≤ g.length →
      groupFitsFully size maxWidth g = true := by
    intro g hg h2
    obtain ⟨line, hline, rfl⟩ := List.mem_map.mp hg
    exact decide_eq_true
      ((fullWidth_mono (length_intercalate_words_le line) size).trans (hfits line hline h2))
  have htight := (isChain_wordGroups s size maxWidth).imp
    fun _ _ h => Tight.mono (fun _ => groupFits_of_fully) h
  have h := length_le_of_tight (fun _ _ => groupFitsFully_of_part) htight
    (fun g hg => (wordGroups_spec s size maxWidth g hg).1) hgroups hitems
  rwa [List.length_map, ← map_words_wrap, List.length_map] at h

end

theorem flatMap_words_wrap (s : String) (size : Float32) (maxWidth : ℤ) :
    (wrap s size maxWidth).flatMap words = words s := by
  rw [List.flatMap_def, map_words_wrap, flatten_wordGroups]

theorem words_intercalate_lines (lines : List String) :
    words (" ".intercalate lines) = lines.flatMap words := by
  induction lines with
  | nil => rfl
  | cons line rest ih =>
      by_cases hne : rest = []
      · simp [hne]
      · rw [String.intercalate_cons_of_ne_nil hne, words_append_space, ih, List.flatMap_cons]

theorem wrap_congr {s s' : String} (h : words s = words s') (size : Float32) (maxWidth : ℤ) :
    wrap s size maxWidth = wrap s' size maxWidth := by
  unfold wrap
  rw [h]

end DriveOverlay.Text
