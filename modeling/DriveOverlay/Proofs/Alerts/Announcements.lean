import DriveOverlay.Proofs.Alerts.Run
import Mathlib.Data.List.Basic

/-! # What a run shows and announces

The alert on screen and the announcements of a run, read off its history without a machine:

* `onScreen`: the alert of the latest frame since the last reset that brought one, or the empty
  alert;
* `announcements`: the alerts of the frames that changed what is on screen to another alert, not
  empty, outside of preview.

`announcement_law` says that machines follow both, and what therefore is never announced. -/

namespace DriveOverlay.AlertMachine

/-! ### Histories -/

namespace Event

/-- The event is a frame. -/
def isUpdate : Event → Bool
  | .update _ => true
  | .reset => false

/-- The alert that an event brings, at so many frames per second. -/
def incoming? (frequency : UInt32) : Event → Option Alert
  | .update s => s.incomingAlert? frequency
  | .reset => none

end Event

/-- The frames since the last reset, latest first. -/
def sinceReset (events : List Event) : List Event :=
  events.reverse.takeWhile Event.isUpdate

/-- The alert on screen after some events. -/
def onScreen (frequency : UInt32) (events : List Event) : Alert :=
  ((sinceReset events).filterMap (Event.incoming? frequency)).head?.getD .empty

/-- The alert that an event announces when some events came before it. -/
def announcement? (frequency : UInt32) (before : List Event) : Event → Option Alert
  | .reset => none
  | .update s =>
      let alert := onScreen frequency (before ++ [.update s])
      if alert ≠ onScreen frequency before ∧ alert.isEmpty = false ∧ s.display.preview = false
      then some alert else none

/-- The alerts that some events announce, in order. -/
def announcements (frequency : UInt32) (events : List Event) : List Alert :=
  (List.range events.length).filterMap fun i =>
    events[i]?.bind (announcement? frequency (events.take i))

variable (frequency : UInt32) (events : List Event) (s : Snapshot)

/-! ### The alert on screen -/

theorem onScreen_concat_update : onScreen frequency (events ++ [.update s]) =
    (s.incomingAlert? frequency).getD (onScreen frequency events) := by
  have h : sinceReset (events ++ [.update s]) = .update s :: sinceReset events := by
    rw [sinceReset, List.reverse_append]
    rfl
  unfold onScreen
  rw [h, List.filterMap_cons]
  cases hs : s.incomingAlert? frequency with
  | none => simp [Event.incoming?, hs]
  | some alert => simp [Event.incoming?, hs]

theorem onScreen_concat_reset : onScreen frequency (events ++ [.reset]) = .empty := by
  have h : sinceReset (events ++ [.reset]) = [] := by
    rw [sinceReset, List.reverse_append]
    rfl
  rw [onScreen, h]
  rfl

theorem shown_run : (run frequency events).machine.shown = onScreen frequency events := by
  induction events using List.reverseRecOn with
  | nil => rfl
  | append_singleton events e ih =>
      cases e with
      | update s =>
          rw [run_concat_update, onScreen_concat_update, ← ih]
          exact (next_alert _ s).trans (by rw [frequency_run])
      | reset => rw [run_concat_reset, onScreen_concat_reset]; rfl

/-! ### Announcements -/

theorem announcements_concat (e : Event) : announcements frequency (events ++ [e]) =
    announcements frequency events ++ (announcement? frequency events e).toList := by
  unfold announcements
  rw [List.length_append, List.length_singleton, List.range_succ, List.filterMap_append]
  congr 1
  · apply List.filterMap_congr
    intro i hi
    have hi : i < events.length := List.mem_range.mp hi
    rw [List.getElem?_append_left hi, List.take_append_of_le_length (Nat.le_of_lt hi)]
  · rw [List.filterMap_cons, List.getElem?_concat_length, List.take_left' rfl]
    cases h : announcement? frequency events e <;> simp [h]

theorem announcement?_update_of_unchanged
    (h : onScreen frequency (events ++ [.update s]) = onScreen frequency events) :
    announcement? frequency events (.update s) = none :=
  if_neg fun hc => hc.1 h

theorem announced_run : (run frequency events).announced = announcements frequency events := by
  induction events using List.reverseRecOn with
  | nil => rfl
  | append_singleton events e ih =>
      rw [announcements_concat, ← ih]
      cases e with
      | reset => rw [run_concat_reset]; exact (List.append_nil _).symm
      | update s =>
          have hu : ((run frequency events).machine.next s).alert =
              onScreen frequency (events ++ [.update s]) := by
            rw [← shown_run, run_concat_update]
          have ha := announces_next (run frequency events).machine s
          rw [hu, shown_run] at ha
          rw [run_concat_update]
          simp only [announcement?, ← ha, hu]
          split <;> rfl

theorem announcements_append_of_unchanged (later : List Event)
    (h : ∀ part, part <+: later → onScreen frequency (events ++ part) = onScreen frequency events) :
    announcements frequency (events ++ later) = announcements frequency events := by
  induction later using List.reverseRecOn with
  | nil => rw [List.append_nil]
  | append_singleton later e ih =>
      have hl := h later (List.prefix_append _ _)
      have he := h (later ++ [e]) (List.prefix_refl _)
      rw [← List.append_assoc] at he ⊢
      rw [announcements_concat, ih fun part hp => h part (hp.trans (List.prefix_append _ _))]
      cases e with
      | reset => exact List.append_nil _
      | update s =>
          rw [announcement?_update_of_unchanged _ _ _ (he.trans hl.symm)]
          exact List.append_nil _

/-- **The announcement law.**  After any events, the machine shows the alert that the history
tells, every frame returns the alert that it leaves on screen, and the alerts announced are those
the history tells.  So a frame that brings no alert, or clears the screen, announces nothing, and
nor do events that leave the alert on screen as it is, however it came there. -/
theorem announcement_law (frequency : UInt32) (events : List Event) :
    (run frequency events).machine.shown = onScreen frequency events ∧
    (∀ s, ((run frequency events).machine.update s).2.1.alert =
      ((run frequency events).machine.update s).1.shown) ∧
    (run frequency events).announced = announcements frequency events ∧
    (∀ s, (s.incomingAlert? frequency = none ∨
        (onScreen frequency (events ++ [.update s])).isEmpty = true) →
      (run frequency (events ++ [.update s])).announced = (run frequency events).announced) ∧
    ∀ later, (∀ part, part <+: later →
        onScreen frequency (events ++ part) = onScreen frequency events) →
      (run frequency (events ++ later)).announced = (run frequency events).announced := by
  refine ⟨shown_run _ _, fun s => rfl, announced_run _ _, fun s hs => ?_, fun later h => ?_⟩
  · rw [announced_run, announced_run, announcements_concat]
    have hn : announcement? frequency events (.update s) = none := by
      rcases hs with hs | hs
      · apply announcement?_update_of_unchanged
        rw [onScreen_concat_update, hs]
        rfl
      · apply if_neg
        rintro ⟨-, he, -⟩
        rw [hs] at he
        cases he
    rw [hn]
    exact List.append_nil _
  · rw [announced_run, announced_run, announcements_append_of_unchanged _ _ _ h]

end DriveOverlay.AlertMachine
