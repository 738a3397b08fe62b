import DriveOverlay.Proofs.Loop.Backlog
import Mathlib.Data.List.Infix

/-! # What a backlog hands out

Requests, in any order, publish an event or drain the backlog.  The drains split the published events
into groups, the last of which is still open; each drain hands out the end of its group, as much of
it as fits.

* `length_groups`, `flatten_groups`: there is a group for each drain and one more, and together they
  are what was published;
* `Holds.given_append`: what is handed out, and what is left, are the ends of the groups;
* `exists_older_iff`: the end of a list reaches back to an event when fewer than fit come after it;
* `delivery_law`: all this of a new backlog. -/

namespace DriveOverlay.Backlog

variable {α : Type}

/-! ### Requests -/

/-- What is done to a backlog. -/
inductive Request (α : Type) where
  | publish (event : α)
  | drain

/-- What the drains hand out, one list for each, and the backlog that is left. -/
def serve (b : Backlog α) : List (Request α) → List (List α) × Backlog α
  | [] => ([], b)
  | .publish event :: rest => serve (b.publish event) rest
  | .drain :: rest => (b.drain.1 :: (serve b.drain.2 rest).1, (serve b.drain.2 rest).2)

/-- The events that are published, in order. -/
def published : List (Request α) → List α
  | [] => []
  | .publish event :: rest => event :: published rest
  | .drain :: rest => published rest

/-- How many requests are drains. -/
def drains : List (Request α) → ℕ
  | [] => 0
  | .publish _ :: rest => drains rest
  | .drain :: rest => drains rest + 1

/-- The events that are published, split where the backlog is drained. -/
def groups : List (Request α) → List (List α)
  | [] => [[]]
  | .publish event :: rest => (groups rest).modifyHead (event :: ·)
  | .drain :: rest => [] :: groups rest

theorem length_groups (requests : List (Request α)) :
    (groups requests).length = drains requests + 1 := by
  induction requests with
  | nil => rfl
  | cons request rest ih =>
      cases request with
      | publish event => rw [groups, drains, List.length_modifyHead, ih]
      | drain => rw [groups, drains, List.length_cons, ih]

theorem groups_ne_nil (requests : List (Request α)) : groups requests ≠ [] := by
  intro h
  have hl := length_groups requests
  simp [h] at hl

theorem flatten_groups (requests : List (Request α)) :
    (groups requests).flatten = published requests := by
  induction requests with
  | nil => rfl
  | cons request rest ih =>
      cases request with
      | publish event =>
          obtain ⟨group, more, hg⟩ := List.exists_cons_of_ne_nil (groups_ne_nil rest)
          rw [hg] at ih
          simp [groups, published, hg, ← ih]
      | drain => simpa [groups, published] using ih

/-! ### Runs -/

variable {b : Backlog α} {events : List α}

@[simp] theorem capacity_drain (b : Backlog α) : b.drain.2.capacity = b.capacity := rfl

@[simp] theorem capacity_serve (b : Backlog α) (requests : List (Request α)) :
    (b.serve requests).2.capacity = b.capacity := by
  induction requests generalizing b with
  | nil => rfl
  | cons request rest ih =>
      cases request with
      | publish event => exact ih (b.publish event)
      | drain => exact ih b.drain.2

theorem serve_append (b : Backlog α) (first second : List (Request α)) :
    b.serve (first ++ second) =
      ((b.serve first).1 ++ ((b.serve first).2.serve second).1,
        ((b.serve first).2.serve second).2) := by
  induction first generalizing b with
  | nil => rfl
  | cons request rest ih =>
      cases request with
      | publish event => exact ih (b.publish event)
      | drain => simp [serve, ih]

theorem serve_publishAll (b : Backlog α) (more : List α) :
    b.serve (more.map .publish) = ([], more.foldl Backlog.publish b) := by
  induction more generalizing b with
  | nil => rfl
  | cons event more ih => exact ih (b.publish event)

theorem Holds.exists_serve (h : b.Holds events) (requests : List (Request α)) :
    ∃ waiting, (b.serve requests).2.Holds waiting := by
  induction requests generalizing b events with
  | nil => exact ⟨events, h⟩
  | cons request rest ih =>
      cases request with
      | publish event => exact ih (h.publish event)
      | drain => exact ih h.drain.2

theorem modifyHead_nil_append (lists : List (List α)) : lists.modifyHead ([] ++ ·) = lists :=
  congrFun List.modifyHead_id lists

/-- Each drain hands out the end of its group, and what is left is the end of the open one. -/
theorem Holds.given_append (h : b.Holds events) (requests : List (Request α)) :
    (b.serve requests).1 ++ [(b.serve requests).2.pending] =
      ((groups requests).modifyHead (events ++ ·)).map (·.rtake b.capacity) := by
  induction requests generalizing b events with
  | nil => simp [serve, groups, h.pending_eq]
  | cons request rest ih =>
      cases request with
      | publish event =>
          have hrest := ih (h.publish event)
          rw [capacity_publish] at hrest
          simp [serve, groups, hrest, Function.comp_def]
      | drain =>
          obtain ⟨hgiven, hnew⟩ := h.drain
          have hrest := ih hnew
          rw [modifyHead_nil_append, capacity_drain] at hrest
          simp [serve, groups, hrest, hgiven]

theorem Holds.drain_publishAll (h : b.Holds events) (more : List α) :
    (more.foldl Backlog.publish b).drain.1 = (events ++ more).rtake b.capacity := by
  have hd := (h.publishAll more).drain.1
  rwa [capacity_publishAll] at hd

/-! ### The ends of lists -/

/-- The ends of lists, one after the other, are what is left of the lists when events are dropped. -/
theorem flatten_rtake_sublist (n : ℕ) (lists : List (List α)) :
    (lists.map (·.rtake n)).flatten.Sublist lists.flatten := by
  induction lists with
  | nil => exact List.Sublist.refl _
  | cons l rest ih =>
      rw [List.map_cons, List.flatten_cons, List.flatten_cons]
      exact (List.drop_sublist _ l).append ih

/-- The end of a list reaches back to an event when fewer than fit come after it. -/
theorem exists_older_iff (before newer : List α) (event : α) (n : ℕ) :
    (∃ older, (before ++ event :: newer).rtake n = older ++ event :: newer) ↔ newer.length < n := by
  constructor
  · rintro ⟨older, h⟩
    have hl := congrArg List.length h
    rw [length_rtake, List.length_append, List.length_append, List.length_cons] at hl
    omega
  · intro h
    refine ⟨before.rtake (n - (newer.length + 1)), ?_⟩
    have hd : (before ++ event :: newer).length - n = before.length - (n - (newer.length + 1)) := by
      rw [List.length_append, List.length_cons]
      omega
    rw [List.rtake, List.rtake, hd]
    exact List.drop_append_of_le_length (by omega)

/-! ### The law -/

/-- **The delivery law.**  Whatever is published and drained, a new backlog never has more events
than fit; each drain hands out the end of what was published since the drain before, as much of it
as fits, and leaves the backlog as new.  So what is handed out is a part of what was published, in
the same order, and an event is lost exactly when as many newer ones as fit follow it before the next
drain. -/
theorem delivery_law (n : ℕ) (requests : List (Request α)) :
    let cap := max n 1
    let new : Backlog α := ofCapacity n
    let given := (new.serve requests).1
    let left := (new.serve requests).2
    left.pending.length ≤ cap ∧
      (given ++ [left.pending] = (groups requests).map (·.rtake cap) ∧
        (groups requests).length = drains requests + 1 ∧
        (groups requests).flatten = published requests) ∧
      new.serve (requests ++ [.drain]) = (given ++ [left.pending], new) ∧
      (given.flatten ++ left.pending).Sublist (published requests) ∧
      ∀ (event : α) (newer : List α),
        let answer := (new.serve (requests ++ .publish event :: newer.map .publish)).2.drain.1
        (∃ older, answer = older ++ event :: newer) ↔ newer.length < cap := by
  intro cap new given left
  have hnew : new.Holds [] := holds_ofCapacity n
  obtain ⟨waiting, hleft⟩ := hnew.exists_serve requests
  have hcap : left.capacity = cap := capacity_serve new requests
  have hgiven : given ++ [left.pending] = (groups requests).map (·.rtake cap) := by
    have h := hnew.given_append requests
    rwa [modifyHead_nil_append] at h
  refine ⟨?_, ⟨hgiven, length_groups requests, flatten_groups requests⟩, ?_, ?_, ?_⟩
  · rw [hleft.pending_eq, length_rtake, hcap]
    exact Nat.min_le_left _ _
  · rw [serve_append]
    show (given ++ [left.pending], ({ left with pending := [] } : Backlog α)) = _
    rw [hcap]
    rfl
  · have h := flatten_rtake_sublist cap (groups requests)
    rw [← hgiven, flatten_groups] at h
    simpa using h
  · intro event newer answer
    have hanswer : answer = (waiting ++ event :: newer).rtake cap := by
      show (new.serve (requests ++ (event :: newer).map .publish)).2.drain.1 = _
      rw [serve_append, serve_publishAll, ← hcap]
      exact hleft.drain_publishAll (event :: newer)
    rw [hanswer]
    exact exists_older_iff waiting newer event cap

example : (ofCapacity 2 : Backlog ℕ).serve [.publish 70, .publish 80, .publish 90, .drain] =
    ([[80, 90]], ofCapacity 2) := rfl

end DriveOverlay.Backlog
