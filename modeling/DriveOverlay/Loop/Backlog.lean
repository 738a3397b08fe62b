/-! # Bounded backlogs

A queue of events that nobody has taken yet.  It holds a fixed number at most, one or more; when
it is full the oldest event makes room for the newest. -/

namespace DriveOverlay

/-- A queue of at most `capacity` events, the oldest first. -/
structure Backlog (α : Type) where
  capacity : Nat
  pending : List α := []

namespace Backlog

variable {α : Type}

/-- An empty backlog for so many events, or for one. -/
def ofCapacity (n : Nat) : Backlog α :=
  { capacity := max n 1 }

/-- Adds an event. -/
def publish (b : Backlog α) (event : α) : Backlog α :=
  let kept := if b.capacity ≤ b.pending.length then b.pending.drop 1 else b.pending
  { b with pending := kept ++ [event] }

/-- Takes all events, oldest first. -/
def drain (b : Backlog α) : List α × Backlog α :=
  (b.pending, { b with pending := [] })

end Backlog

end DriveOverlay
