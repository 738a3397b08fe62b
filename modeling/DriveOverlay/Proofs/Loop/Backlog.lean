import DriveOverlay.Loop.Backlog
import Mathlib.Data.List.DropRight

/-! # What a backlog keeps

A backlog holds some events when it has the last of them, as many as fit.  Publishing an event keeps
this with the event at the end of the list (`Holds.publish`), and draining gives what is held and
starts again with no event (`Holds.drain`). -/

namespace DriveOverlay.Backlog

variable {α : Type}

/-- The backlog has the last of some events, as many as fit. -/
structure Holds (b : Backlog α) (events : List α) : Prop where
  capacity_pos : 0 < b.capacity
  pending_eq : b.pending = events.rtake b.capacity

theorem length_rtake (l : List α) (n : ℕ) : (l.rtake n).length = min n l.length := by
  rw [List.rtake, List.length_drop]
  omega

theorem rtake_concat (l : List α) {n : ℕ} (hn : 0 < n) (x : α) :
    (l ++ [x]).rtake n = (if n ≤ (l.rtake n).length then (l.rtake n).drop 1 else l.rtake n) ++ [x] := by
  obtain ⟨n, rfl⟩ := Nat.exists_eq_succ_of_ne_zero hn.ne'
  rw [List.rtake_concat_succ, length_rtake]
  congr 1
  split
  · rename_i hl
    rw [List.rtake, List.rtake, List.drop_drop]
    congr 1
    omega
  · rename_i hl
    rw [List.rtake, List.rtake]
    congr 1
    omega

theorem holds_ofCapacity (n : ℕ) : (ofCapacity n : Backlog α).Holds [] :=
  ⟨Nat.lt_of_lt_of_le Nat.zero_lt_one (Nat.le_max_right n 1), (List.rtake_nil _).symm⟩

variable {b : Backlog α} {events : List α}

@[simp] theorem capacity_publish (b : Backlog α) (event : α) :
    (b.publish event).capacity = b.capacity := rfl

theorem Holds.publish (h : b.Holds events) (event : α) :
    (b.publish event).Holds (events ++ [event]) := by
  refine ⟨h.capacity_pos, ?_⟩
  rw [capacity_publish, rtake_concat events h.capacity_pos, ← h.pending_eq]
  rfl

@[simp] theorem capacity_publishAll (b : Backlog α) (more : List α) :
    (more.foldl Backlog.publish b).capacity = b.capacity := by
  induction more generalizing b with
  | nil => rfl
  | cons event more ih => exact ih (b.publish event)

theorem Holds.publishAll (h : b.Holds events) (more : List α) :
    (more.foldl Backlog.publish b).Holds (events ++ more) := by
  induction more generalizing b events with
  | nil => rwa [List.append_nil]
  | cons event more ih =>
      have := ih (h.publish event)
      rwa [List.append_assoc, List.singleton_append] at this

theorem Holds.drain (h : b.Holds events) :
    b.drain.1 = events.rtake b.capacity ∧ b.drain.2.Holds [] :=
  ⟨h.pending_eq, h.capacity_pos, (List.rtake_nil _).symm⟩

end DriveOverlay.Backlog
