import DriveOverlay.Alerts.Machine
import Mathlib.Data.List.Induction

/-! # Runs of the alert machine

A run is what frames and resets, in any order, make of a new machine: the machine that comes out,
the updates that were returned and the alerts that were announced, in order.

What comes in is told by `incomingAlert?_cases`, and one frame by four equations; nothing below
looks into `incomingAlert?` and `next` again:

* `next_alert`: the alert that comes in, or else the one on screen;
* `next_tint`: the tint of that alert under the status of the snapshot;
* `next_changed` and `next_repaint`: the comparison with what is on screen.

`run_concat_update` and `run_concat_reset` say what one more event does to a run. -/

namespace DriveOverlay

/-! ### Incoming alerts -/

/-- An alert comes in from a fresh stream, or is made up for one that is stale. -/
theorem Snapshot.incomingAlert?_cases {s : Snapshot} {frequency : UInt32} {alert : Alert}
    (h : s.incomingAlert? frequency = some alert) :
    (s.controls.updated = true ∧ alert = s.alert.normalize) ∨
    (s.controls.updated = false ∧ s.controls.seenSinceStart = false ∧ alert = .waiting) ∨
    (s.controls.updated = false ∧ s.controls.seenSinceStart = true ∧ alert = .unresponsive) := by
  unfold Snapshot.incomingAlert? at h
  cases hu : s.controls.updated with
  | true => simp only [hu, if_true, Option.some.injEq] at h; exact .inl ⟨rfl, h.symm⟩
  | false =>
      cases hs : s.controls.seenSinceStart with
      | false =>
          simp only [hu, hs, Bool.false_eq_true, if_false, Bool.not_false, if_true] at h
          split at h
          · exact .inr (.inl ⟨rfl, rfl, (Option.some.inj h).symm⟩)
          · cases h
      | true =>
          simp only [hu, hs, Bool.false_eq_true, if_false, Bool.not_true] at h
          split at h
          · split at h
            · exact .inr (.inr ⟨rfl, rfl, (Option.some.inj h).symm⟩)
            · cases h
          · cases h

namespace AlertMachine

/-- What happens to the machine. -/
inductive Event where
  | update (s : Snapshot)
  | reset

/-- A machine with what it returned and announced so far. -/
structure Run where
  machine : AlertMachine
  updates : List AlertUpdate := []
  announced : List Alert := []

/-- One more event. -/
def Run.step (r : Run) : Event → Run
  | .update s =>
      let (machine, update, announced) := r.machine.update s
      ⟨machine, r.updates ++ [update], r.announced ++ announced.toList⟩
  | .reset => { r with machine := r.machine.reset }

/-- The run of a new machine. -/
def run (frequency : UInt32) (events : List Event) : Run :=
  events.foldl Run.step ⟨{ frequency }, [], []⟩

/-! ### One frame -/

variable (m : AlertMachine) (s : Snapshot)

theorem next_alert : (m.next s).alert = (s.incomingAlert? m.frequency).getD m.shown := by
  unfold next Snapshot.nextAlert
  cases s.incomingAlert? m.frequency <;> rfl

theorem next_tint : (m.next s).tint = (m.next s).alert.tint s.status := rfl

theorem next_changed : (m.next s).changed = decide ((m.next s).alert ≠ m.shown) := by
  unfold next Snapshot.nextAlert
  cases s.incomingAlert? m.frequency with
  | none => simp
  | some alert => simp

theorem next_repaint :
    (m.next s).repaint = decide (((m.next s).alert, (m.next s).tint) ≠ (m.shown, m.tint)) := by
  have h : (m.next s).repaint = ((m.next s).changed || (m.next s).tint ≠ m.tint) := rfl
  rw [h, next_changed, ← Bool.decide_or, decide_eq_decide, ne_eq, ne_eq, ne_eq, Prod.mk.injEq,
    not_and_or]

theorem update_eq : m.update s =
    (⟨m.frequency, (m.next s).alert, (m.next s).tint⟩, m.next s,
      if announces s (m.next s) then some (m.next s).alert else none) := rfl

/-- A frame is announced when it brings another alert that is not empty, outside of preview. -/
theorem announces_next : announces s (m.next s) = true ↔
    (m.next s).alert ≠ m.shown ∧ (m.next s).alert.isEmpty = false ∧ s.display.preview = false := by
  unfold announces
  simp only [next_changed, Bool.and_eq_true, decide_eq_true_eq, Bool.not_eq_true', and_assoc]

/-! ### One more event -/

variable (frequency : UInt32) (events : List Event)

theorem run_concat (e : Event) : run frequency (events ++ [e]) = (run frequency events).step e := by
  unfold run
  rw [List.foldl_append, List.foldl_cons, List.foldl_nil]

theorem run_concat_update : run frequency (events ++ [.update s]) =
    let r := run frequency events
    let u := r.machine.next s
    ⟨⟨r.machine.frequency, u.alert, u.tint⟩, r.updates ++ [u],
      r.announced ++ if announces s u then [u.alert] else []⟩ := by
  rw [run_concat]
  unfold Run.step
  simp only [update_eq]
  split <;> rfl

theorem run_concat_reset : run frequency (events ++ [.reset]) =
    { run frequency events with machine := (run frequency events).machine.reset } :=
  run_concat _ _ _

@[simp] theorem frequency_run : (run frequency events).machine.frequency = frequency := by
  induction events using List.reverseRecOn with
  | nil => rfl
  | append_singleton events e ih =>
      cases e with
      | update s => rw [run_concat_update]; exact ih
      | reset => rw [run_concat_reset]; exact ih

end AlertMachine

end DriveOverlay
