import DriveOverlay.Proofs.Alerts.Run

/-! # When the banner is painted again

Only alerts that have a size, or are empty in every part, get on screen (`Presentable`), because
that is so for all alerts that come in.  The alert and the tint that a machine keeps are those that
its last frame returned (`lastPicture_eq`), so the repaint flag compares a frame with what was there
before.  Somebody who paints only when the flag is set (`painted`) always has the right picture.

`repaint_law` says all of it for any frame after any run, and that a repeated snapshot changes
nothing. -/

namespace DriveOverlay

/-! ### Presentable alerts -/

/-- An alert without a size is empty in every part. -/
def Alert.Presentable (a : Alert) : Prop := a.size = .none → a = ⟨"", "", "", .none⟩

theorem Alert.presentable_empty : Alert.empty.Presentable := fun _ => rfl

theorem Alert.presentable_normalize (a : Alert) : a.normalize.Presentable := by
  intro h
  unfold Alert.normalize at h ⊢
  split
  · rfl
  · rename_i hs
    rw [if_neg hs] at h
    exact absurd h hs

theorem Alert.Presentable.isEmpty_iff {a : Alert} (h : a.Presentable) :
    a.isEmpty = true ↔ a.size = .none := by
  constructor
  · intro he
    simp only [Alert.isEmpty, Bool.and_eq_true, decide_eq_true_eq] at he
    exact he.1.1
  · intro hs
    rw [h hs]
    rfl

theorem Snapshot.presentable_incoming {s : Snapshot} {frequency : UInt32} {alert : Alert}
    (h : s.incomingAlert? frequency = some alert) : alert.Presentable := by
  rcases Snapshot.incomingAlert?_cases h with ⟨-, rfl⟩ | ⟨-, -, rfl⟩ | ⟨-, -, rfl⟩
  · exact Alert.presentable_normalize _
  · exact fun hs => by cases hs
  · exact fun hs => by cases hs

namespace AlertMachine

theorem presentable_next {m : AlertMachine} (h : m.shown.Presentable) (s : Snapshot) :
    (m.next s).alert.Presentable := by
  rw [next_alert]
  cases hs : s.incomingAlert? m.frequency with
  | none => exact h
  | some alert => exact Snapshot.presentable_incoming hs

theorem presentable_shown_run (frequency : UInt32) (events : List Event) :
    (run frequency events).machine.shown.Presentable := by
  induction events using List.reverseRecOn with
  | nil => exact Alert.presentable_empty
  | append_singleton events e ih =>
      cases e with
      | update s => rw [run_concat_update]; exact presentable_next ih s
      | reset => rw [run_concat_reset]; exact Alert.presentable_empty

/-! ### Pictures -/

/-- The banner and the tint in the beginning. -/
def blank : Alert × Color := (.empty, Status.disengaged.tint)

/-- The alert and the tint that the last frame returned; the blank picture when there was none, or
a reset after it. -/
def lastPicture (frequency : UInt32) (events : List Event) : Alert × Color :=
  match events.getLast? with
  | some (.update s) =>
      let u := (run frequency events.dropLast).machine.next s
      (u.alert, u.tint)
  | _ => blank

/-- A machine, and what somebody has painted who follows it. -/
structure Watched where
  machine : AlertMachine
  picture : Alert × Color

/-- A frame is painted when its update says so; a reset blanks the picture. -/
def Watched.step (w : Watched) : Event → Watched
  | .update s =>
      let (machine, u, _) := w.machine.update s
      ⟨machine, if u.repaint then (u.alert, u.tint) else w.picture⟩
  | .reset => ⟨w.machine.reset, blank⟩

/-- What is painted after some events. -/
def painted (frequency : UInt32) (events : List Event) : Alert × Color :=
  (events.foldl Watched.step ⟨{ frequency }, blank⟩).picture

/-- The machine keeps what its last frame returned. -/
theorem lastPicture_eq (frequency : UInt32) (events : List Event) :
    lastPicture frequency events =
      ((run frequency events).machine.shown, (run frequency events).machine.tint) := by
  induction events using List.reverseRecOn with
  | nil => rfl
  | append_singleton events e _ =>
      unfold lastPicture
      rw [List.getLast?_concat, List.dropLast_concat]
      cases e with
      | update s => rw [run_concat_update]
      | reset => rw [run_concat_reset]; rfl

/-- A frame brings the picture to its alert and tint, if it was that of the machine before. -/
theorem picture_of_repaint (m : AlertMachine) (s : Snapshot) :
    (if (m.next s).repaint then ((m.next s).alert, (m.next s).tint) else (m.shown, m.tint)) =
      ((m.next s).alert, (m.next s).tint) := by
  rw [next_repaint]
  split
  · rfl
  · rename_i h
    rw [decide_eq_true_eq, not_not] at h
    exact h.symm

theorem watched_eq (frequency : UInt32) (events : List Event) :
    events.foldl Watched.step ⟨{ frequency }, blank⟩ =
      let m := (run frequency events).machine
      ⟨m, (m.shown, m.tint)⟩ := by
  induction events using List.reverseRecOn with
  | nil => rfl
  | append_singleton events e ih =>
      rw [List.foldl_append, List.foldl_cons, List.foldl_nil, ih]
      cases e with
      | update s =>
          rw [run_concat_update]
          unfold Watched.step
          exact congrArg (Watched.mk _) (picture_of_repaint _ s)
      | reset => rw [run_concat_reset]; rfl

/-! ### Repeated snapshots -/

theorem next_again (m : AlertMachine) (s : Snapshot) :
    (m.update s).1.next s = ⟨(m.next s).alert, (m.next s).tint, false, false⟩ := by
  have ha : ((m.update s).1.next s).alert = (m.next s).alert := by
    rw [next_alert, next_alert, update_eq]
    cases hs : s.incomingAlert? m.frequency with
    | none => simp only [next_alert, hs, Option.getD_none]
    | some alert => rfl
  have ht : ((m.update s).1.next s).tint = (m.next s).tint := by
    rw [next_tint, next_tint, ha]
  have hc : ((m.update s).1.next s).changed = false := by
    rw [next_changed, ha, update_eq]
    exact decide_eq_false fun h => h rfl
  have hr : ((m.update s).1.next s).repaint = false := by
    rw [next_repaint, ha, ht, update_eq]
    exact decide_eq_false fun h => h rfl
  calc (m.update s).1.next s
      = ⟨((m.update s).1.next s).alert, ((m.update s).1.next s).tint,
          ((m.update s).1.next s).changed, ((m.update s).1.next s).repaint⟩ := rfl
    _ = ⟨(m.next s).alert, (m.next s).tint, false, false⟩ := by rw [ha, ht, hc, hr]

theorem update_again (m : AlertMachine) (s : Snapshot) : (m.update s).1.update s =
    ((m.update s).1, ⟨(m.next s).alert, (m.next s).tint, false, false⟩, none) := by
  rw [update_eq (m.update s).1, next_again]
  rfl

theorem machine_replicate (frequency : UInt32) (events : List Event) (s : Snapshot) :
    ∀ n, (run frequency (events ++ List.replicate (n + 1) (.update s))).machine =
      ((run frequency events).machine.update s).1
  | 0 => by
      rw [List.replicate_one, run_concat_update]
      rfl
  | n + 1 => by
      rw [List.replicate_succ', ← List.append_assoc, run_concat_update]
      have h := congrArg Prod.fst (update_again (run frequency events).machine s)
      rw [← machine_replicate frequency events s n] at h
      rw [← machine_replicate frequency events s n]
      exact h

/-! ### The law -/

/-- **The repaint law.**  For a frame after any events: an alert on screen without a size is empty
in every part; the tint returned is that of the status, or of critical alerts for unresponsive
controls; the repaint flag says exactly whether alert or tint differ from the last picture, so
that painting only when it is set gives the right picture; and repeating the snapshot changes,
repaints and announces nothing. -/
theorem repaint_law (frequency : UInt32) (events : List Event) (s : Snapshot) :
    let m := (run frequency events).machine
    let u := (m.update s).2.1
    ((m.shown.size = .none → m.shown = ⟨"", "", "", .none⟩) ∧
      (m.shown.isEmpty = true ↔ m.shown.size = .none)) ∧
    (u.tint = if u.alert.kind = "controlsUnresponsive" then Palette.alertTint
      else s.status.tint) ∧
    ((u.repaint = true ↔ (u.alert, u.tint) ≠ lastPicture frequency events) ∧
      (u.changed = true → u.repaint = true) ∧
      painted frequency (events ++ [.update s]) = (u.alert, u.tint)) ∧
    ∀ n, ((run frequency (events ++ List.replicate (n + 1) (.update s))).machine.update s).2 =
      (⟨u.alert, u.tint, false, false⟩, none) := by
  intro m u
  have hm : m.shown.Presentable := presentable_shown_run frequency events
  refine ⟨⟨hm, hm.isEmpty_iff⟩, rfl, ⟨?_, ?_, ?_⟩, fun n => ?_⟩
  · rw [lastPicture_eq, show u.repaint = _ from next_repaint m s, decide_eq_true_eq]
    rfl
  · intro hc
    rw [show u.changed = _ from next_changed m s, decide_eq_true_eq] at hc
    rw [show u.repaint = _ from next_repaint m s, decide_eq_true_eq]
    exact fun h => hc (congrArg Prod.fst h)
  · rw [painted, watched_eq, run_concat_update]
    rfl
  · rw [machine_replicate, update_again]
    rfl

end AlertMachine

end DriveOverlay
