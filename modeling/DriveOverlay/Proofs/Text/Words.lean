import DriveOverlay.Text.Blank
import Mathlib.Data.Nat.Notation
import Mathlib.Tactic.SplitIfs

/-! # Words

The words of a text are what is left of it when it is cut at every character of white space and the
empty pieces are thrown away.

* `words_eq`: this is what reading them character by character comes to;
* `isWord_of_mem_words`: no word is empty, and none has white space in it;
* `words_intercalate`: joined by single spaces, words are read back as they were;
* `length_intercalate_words_le`: joined so, they are no longer than the text they are from. -/

namespace DriveOverlay.Text

/-! ### Cutting at white space -/

theorem wordsFrom_eq (cs word : List Char) :
    wordsFrom cs word =
      ((cs.splitOnPPrepend isBlank word).filter (· ≠ [])).map String.ofList := by
  induction cs generalizing word with
  | nil => cases word <;> simp [wordsFrom]
  | cons c cs ih =>
      rw [wordsFrom, List.splitOnPPrepend_cons_eq_if, ih, ih]
      by_cases hc : isBlank c = true
      · cases word <;> simp [hc]
      · simp [hc]

/-- The words of a text are the pieces between its white space, without the empty ones. -/
theorem words_eq (s : String) :
    words s = ((s.toList.splitOnP isBlank).filter (· ≠ [])).map String.ofList := by
  rw [words, wordsFrom_eq, List.splitOnP_eq_splitOnPPrepend]

theorem words_append_space (front back : String) :
    words (front ++ " " ++ back) = words front ++ words back := by
  have hl : (front ++ " " ++ back).toList = front.toList ++ ' ' :: back.toList := by simp
  rw [words_eq, words_eq, words_eq, hl, List.splitOnP_append_cons _ _ rfl, List.filter_append,
    List.map_append]

/-! ### Words by themselves -/

/-- Something to be read, without white space in it. -/
def IsWord (w : String) : Prop :=
  w ≠ "" ∧ ∀ c ∈ w.toList, isBlank c = false

theorem words_of_isWord {w : String} (h : IsWord w) : words w = [w] := by
  rw [words_eq, List.splitOnP_eq_singleton fun c hc => h.2 c hc]
  simp [String.toList_eq_nil_iff, h.1]

theorem isWord_ofList_reverse {word : List Char} (hne : ¬word.isEmpty = true)
    (h : ∀ c ∈ word, isBlank c = false) : IsWord (String.ofList word.reverse) := by
  refine ⟨?_, ?_⟩
  · simpa [String.ofList_eq_empty_iff] using hne
  · simpa using h

theorem isWord_of_mem_wordsFrom {cs word : List Char} (hword : ∀ c ∈ word, isBlank c = false)
    {w : String} (h : w ∈ wordsFrom cs word) : IsWord w := by
  induction cs generalizing word with
  | nil =>
      rw [wordsFrom] at h
      split_ifs at h with hne
      · cases h
      · rw [List.mem_singleton] at h
        exact h ▸ isWord_ofList_reverse hne hword
  | cons c cs ih =>
      have hnew : ∀ d ∈ ([] : List Char), isBlank d = false := by simp
      rw [wordsFrom] at h
      split_ifs at h with hc hne
      · exact ih hnew h
      · rcases List.mem_cons.mp h with rfl | h
        · exact isWord_ofList_reverse hne hword
        · exact ih hnew h
      · exact ih (List.forall_mem_cons.mpr ⟨Bool.not_eq_true _ ▸ hc, hword⟩) h

theorem isWord_of_mem_words {s w : String} (h : w ∈ words s) : IsWord w :=
  isWord_of_mem_wordsFrom (by simp) h

/-! ### Words joined by spaces -/

/-- Joined by single spaces, words are read back as they were. -/
theorem words_intercalate {ws : List String} (h : ∀ w ∈ ws, IsWord w) :
    words (" ".intercalate ws) = ws := by
  induction ws with
  | nil => rfl
  | cons w rest ih =>
      rw [List.forall_mem_cons] at h
      by_cases hne : rest = []
      · rw [hne, String.intercalate_singleton, words_of_isWord h.1]
      · rw [String.intercalate_cons_of_ne_nil hne, words_append_space, words_of_isWord h.1, ih h.2]
        rfl

theorem length_intercalate_cons_le (w : String) (ws : List String) :
    (" ".intercalate (w :: ws)).length ≤ w.length + 1 + (" ".intercalate ws).length := by
  by_cases hne : ws = []
  · rw [hne, String.intercalate_singleton]
    omega
  · rw [String.intercalate_cons_of_ne_nil hne, String.length_append, String.length_append]
    exact Nat.le_refl _

theorem length_intercalate_wordsFrom_le (cs word : List Char) :
    (" ".intercalate (wordsFrom cs word)).length ≤ word.length + cs.length := by
  induction cs generalizing word with
  | nil => cases word <;> simp [wordsFrom]
  | cons c cs ih =>
      have hnew := ih []
      have hlonger := ih (c :: word)
      have hcons := length_intercalate_cons_le (String.ofList word.reverse) (wordsFrom cs [])
      simp only [List.length_cons, List.length_nil, String.length_ofList, List.length_reverse]
        at hnew hlonger hcons ⊢
      rw [wordsFrom]
      split_ifs <;> omega

/-- Joined by single spaces, the words of a text are no longer than the text. -/
theorem length_intercalate_words_le (s : String) :
    (" ".intercalate (words s)).length ≤ s.length := by
  have h := length_intercalate_wordsFrom_le s.toList []
  rwa [List.length_nil, Nat.zero_add, String.length_toList] at h

end DriveOverlay.Text
