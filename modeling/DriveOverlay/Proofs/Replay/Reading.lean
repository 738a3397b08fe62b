import DriveOverlay.Replay.Recording
import Mathlib.Data.List.Basic

/-! # Reading recordings

What a recording is read as, told by its lines.

* `AreLines` says what the lines of some bytes are; `areLines_splitLines`: these are the ones that
  are read;
* a line is `Readable`, or has a fault: it is not UTF-8, or neither blank nor a snapshot;
* `readLines_eq_ok_iff`: lines are read when each of them is readable, as the snapshots in them;
* `readLines_eq_error_iff`: otherwise the error is that of the first fault, with the number of its
  line, whatever comes behind it. -/

namespace DriveOverlay.Recording

/-! ### Lines -/

/-- A line without a carriage return at its end. -/
def withoutReturn (line : List UInt8) : List UInt8 :=
  if line.getLast? = some 13 then line.dropLast else line

/-- The lines of some bytes: those that a line feed ends, and what is behind the last line feed,
unless it is empty. -/
def AreLines (bytes : List UInt8) (lines : List (List UInt8)) : Prop :=
  ∃ (ended : List (List UInt8)) (last : List UInt8), (∀ line ∈ ended, 10 ∉ line) ∧ 10 ∉ last ∧
    bytes = ended.flatMap (· ++ [10]) ++ last ∧
      lines = ended.map withoutReturn ++ if last = [] then [] else [last]

theorem reverse_dropReturn (line : List UInt8) :
    (dropReturn line).reverse = withoutReturn line.reverse := by
  unfold withoutReturn
  rw [List.getLast?_reverse, List.dropLast_reverse]
  cases line with
  | nil => rfl
  | cons b line =>
      unfold dropReturn
      split
      · simp_all
      · rename_i hne
        rw [if_neg]
        intro hb
        obtain rfl : b = 13 := by simpa using hb
        exact hne line rfl

theorem exists_lines (bytes line : List UInt8) (hl : 10 ∉ line) :
    ∃ (ended : List (List UInt8)) (last : List UInt8), (∀ line ∈ ended, 10 ∉ line) ∧ 10 ∉ last ∧
      line.reverse ++ bytes = ended.flatMap (· ++ [10]) ++ last ∧
        splitLines bytes line = ended.map withoutReturn ++ if last = [] then [] else [last] := by
  induction bytes generalizing line with
  | nil =>
      refine ⟨[], line.reverse, nofun, by simpa using hl, by simp, ?_⟩
      cases line <;> simp [splitLines]
  | cons b bytes ih =>
      unfold splitLines
      by_cases hb : b = 10
      · subst hb
        obtain ⟨ended, last, he, hlast, hbytes, hsplit⟩ := ih [] List.not_mem_nil
        refine ⟨line.reverse :: ended, last, ?_, hlast, ?_, ?_⟩
        · intro line' hm
          rcases List.mem_cons.mp hm with rfl | hm
          · simpa using hl
          · exact he line' hm
        · rw [List.reverse_nil, List.nil_append] at hbytes
          simp [hbytes]
        · rw [if_pos rfl, hsplit, reverse_dropReturn]
          rfl
      · rw [if_neg hb]
        have hbl : 10 ∉ b :: line := by
          rw [List.mem_cons, not_or]
          exact ⟨fun e => hb e.symm, hl⟩
        obtain ⟨ended, last, he, hlast, hbytes, hsplit⟩ := ih (b :: line) hbl
        refine ⟨ended, last, he, hlast, ?_, hsplit⟩
        rw [← hbytes, List.reverse_cons, List.append_assoc]
        rfl

theorem areLines_splitLines (bytes : List UInt8) : AreLines bytes (splitLines bytes []) :=
  exists_lines bytes [] List.not_mem_nil

theorem toList_loop (bytes : ByteArray) (i : Nat) (line : List UInt8) :
    ByteArray.toList.loop bytes i line = line.reverse ++ bytes.data.toList.drop i := by
  unfold ByteArray.toList.loop
  split
  · rename_i hi
    have hi' : i < bytes.data.toList.length := hi
    have hb : bytes.get! i = bytes.data.toList[i] := getElem!_pos bytes.data i hi
    rw [toList_loop, hb, List.drop_eq_getElem_cons hi']
    simp only [List.reverse_cons, List.append_assoc, List.singleton_append]
  · rename_i hi
    have hi' : bytes.data.toList.length ≤ i := Nat.le_of_not_lt hi
    rw [List.drop_eq_nil_of_le hi', List.append_nil]
termination_by bytes.size - i

theorem toList_eq_data (bytes : ByteArray) : bytes.toList = bytes.data.toList :=
  toList_loop bytes 0 []

/-! ### One line -/

/-- A line is UTF-8, and blank or a snapshot. -/
def Readable (line : List UInt8) : Prop :=
  ∃ text, lineText? line = some text ∧
    (Text.isAllBlank text = true ∨ ∃ s, Snapshot.ofText? text = some s)

/-- The snapshot in a line that is not blank. -/
def lineSnapshot? (line : List UInt8) : Option Snapshot :=
  (lineText? line).bind fun text =>
    if Text.isAllBlank text then none else Snapshot.ofText? text

/-- What is wrong with a line of a given number. -/
inductive Fault (path : String) (number : Nat) (line : List UInt8) : RecordingError → Prop
  | encoding (ht : lineText? line = none) : Fault path number line .encoding
  | badSnapshot {text : String} (ht : lineText? line = some text)
      (hb : Text.isAllBlank text = false) (hs : Snapshot.ofText? text = none) :
      Fault path number line (.badSnapshot path number)

variable {path : String} {number : Nat} {line : List UInt8}

theorem readable_or_fault (path : String) (number : Nat) (line : List UInt8) :
    Readable line ∨ ∃ e, Fault path number line e := by
  cases ht : lineText? line with
  | none => exact .inr ⟨_, .encoding ht⟩
  | some text =>
      cases hb : Text.isAllBlank text with
      | true => exact .inl ⟨text, ht, .inl hb⟩
      | false =>
          cases hs : Snapshot.ofText? text with
          | none => exact .inr ⟨_, .badSnapshot ht hb hs⟩
          | some s => exact .inl ⟨text, ht, .inr ⟨s, hs⟩⟩

theorem readLines_cons_of_readable (hr : Readable line) (lines : List (List UInt8)) :
    readLines path number (line :: lines) =
      (readLines path (number + 1) lines).map ((lineSnapshot? line).toList ++ ·) := by
  obtain ⟨text, ht, h⟩ := hr
  simp only [readLines, lineSnapshot?, ht, Option.bind_some]
  cases hb : Text.isAllBlank text with
  | true =>
      simp only [if_true, Option.toList_none, List.nil_append]
      cases readLines path (number + 1) lines <;> rfl
  | false =>
      rcases h with h | ⟨s, hs⟩
      · rw [hb] at h
        cases h
      · simp only [hs, Bool.false_eq_true, if_false, Option.toList_some, List.cons_append,
          List.nil_append]

theorem readLines_cons_of_fault {e : RecordingError} (hf : Fault path number line e)
    (lines : List (List UInt8)) : readLines path number (line :: lines) = .error e := by
  cases hf with
  | encoding ht => simp only [readLines, ht]
  | badSnapshot ht hb hs => simp only [readLines, ht, hb, hs, Bool.false_eq_true, if_false]

/-! ### All lines -/

theorem readLines_append_of_readable {before : List (List UInt8)}
    (hr : ∀ line ∈ before, Readable line) (number : Nat) (lines : List (List UInt8)) :
    readLines path number (before ++ lines) =
      (readLines path (number + before.length) lines).map
        (before.filterMap lineSnapshot? ++ ·) := by
  induction before generalizing number with
  | nil =>
      change readLines path number lines = (readLines path number lines).map fun ss => ss
      cases readLines path number lines <;> rfl
  | cons line before ih =>
      have hrest := ih (fun l hl => hr l (List.mem_cons_of_mem line hl)) (number + 1)
      have hn : number + 1 + before.length = number + (line :: before).length := by
        rw [List.length_cons]
        omega
      have hm : (line :: before).filterMap lineSnapshot? =
          (lineSnapshot? line).toList ++ before.filterMap lineSnapshot? := by
        cases hl : lineSnapshot? line <;> simp [hl]
      rw [List.cons_append, readLines_cons_of_readable (hr line List.mem_cons_self), hrest, hn, hm]
      cases readLines path (number + (line :: before).length) lines with
      | error e => rfl
      | ok ss => exact congrArg Except.ok (List.append_assoc _ _ ss).symm

theorem readLines_of_readable {lines : List (List UInt8)} (hr : ∀ line ∈ lines, Readable line)
    (path : String) (number : Nat) :
    readLines path number lines = .ok (lines.filterMap lineSnapshot?) := by
  have h : readLines path number (lines ++ []) = _ := readLines_append_of_readable hr number []
  rw [List.append_nil] at h
  rw [h]
  exact congrArg Except.ok (List.append_nil _)

theorem readLines_of_fault {before : List (List UInt8)} (hr : ∀ line ∈ before, Readable line)
    {number : Nat} {e : RecordingError} (hf : Fault path (number + before.length) line e)
    (after : List (List UInt8)) : readLines path number (before ++ line :: after) = .error e := by
  rw [readLines_append_of_readable hr, readLines_cons_of_fault hf]
  rfl

theorem readable_or_first_fault (path : String) (number : Nat) (lines : List (List UInt8)) :
    (∀ line ∈ lines, Readable line) ∨ ∃ before line after e, lines = before ++ line :: after ∧
      (∀ earlier ∈ before, Readable earlier) ∧ Fault path (number + before.length) line e := by
  induction lines generalizing number with
  | nil => exact .inl nofun
  | cons line lines ih =>
      rcases readable_or_fault path number line with hr | ⟨e, hf⟩
      · rcases ih (number + 1) with hrest | ⟨before, faulty, after, e, rfl, hb, hf⟩
        · exact .inl (List.forall_mem_cons.mpr ⟨hr, hrest⟩)
        · refine .inr ⟨line :: before, faulty, after, e, rfl, List.forall_mem_cons.mpr ⟨hr, hb⟩, ?_⟩
          rw [List.length_cons, Nat.add_comm before.length 1, ← Nat.add_assoc]
          exact hf
      · exact .inr ⟨[], line, lines, e, rfl, nofun, hf⟩

theorem readLines_eq_ok_iff {lines : List (List UInt8)} {snapshots : List Snapshot} :
    readLines path number lines = .ok snapshots ↔
      (∀ line ∈ lines, Readable line) ∧ snapshots = lines.filterMap lineSnapshot? := by
  constructor
  · intro h
    rcases readable_or_first_fault path number lines with hr | ⟨before, line, after, e, rfl, hb, hf⟩
    · rw [readLines_of_readable hr] at h
      exact ⟨hr, (Except.ok.inj h).symm⟩
    · rw [readLines_of_fault hb hf] at h
      cases h
  · rintro ⟨hr, rfl⟩
    exact readLines_of_readable hr path number

theorem readLines_eq_error_iff {lines : List (List UInt8)} {e : RecordingError} :
    readLines path number lines = .error e ↔ ∃ before line after,
      lines = before ++ line :: after ∧ (∀ earlier ∈ before, Readable earlier) ∧
        Fault path (number + before.length) line e := by
  constructor
  · intro h
    rcases readable_or_first_fault path number lines with
      hr | ⟨before, line, after, e', rfl, hb, hf⟩
    · rw [readLines_of_readable hr] at h
      cases h
    · rw [readLines_of_fault hb hf] at h
      exact ⟨before, line, after, rfl, hb, Except.error.inj h ▸ hf⟩
  · rintro ⟨before, line, after, rfl, hb, hf⟩
    exact readLines_of_fault hb hf after

theorem length_le_of_areLines {bytes : List UInt8} {lines : List (List UInt8)}
    (h : AreLines bytes lines) : lines.length ≤ bytes.length := by
  obtain ⟨ended, last, -, -, rfl, rfl⟩ := h
  have hended : ended.length ≤ (ended.flatMap (· ++ [10])).length := by
    induction ended with
    | nil => exact Nat.zero_le _
    | cons line ended ih =>
        rw [List.flatMap_cons, List.length_append, List.length_append, List.length_singleton,
          List.length_cons]
        omega
  have hlast : (if last = [] then [] else [last]).length ≤ last.length := by
    cases last with
    | nil => exact Nat.zero_le _
    | cons b last => exact Nat.le_add_left 1 _
  rw [List.length_append, List.length_append, List.length_map]
  omega

end DriveOverlay.Recording
