import DriveOverlay.Proofs.Alerts.Run

/-! # Controls that went silent

A snapshot is silent when the controls have been heard before, but not on this frame.  While the
controls are silent, whatever else the snapshots say, a frame either leaves the alert on screen or
puts up the one for unresponsive controls (`next_alert_of_silent`), and that one stays
(`frames_of_unresponsive`).

`silence_law` says what this means for any number of silent frames after any run: the alert changes
once at most, shows in the critical tint, and is announced once at most. -/

namespace DriveOverlay

/-- The controls have been heard since the start, but not on this frame. -/
def Snapshot.IsSilent (s : Snapshot) : Prop :=
  s.controls.updated = false ∧ s.controls.seenSinceStart = true

theorem Snapshot.IsSilent.incoming {s : Snapshot} (hs : s.IsSilent) (frequency : UInt32) :
    s.incomingAlert? frequency = none ∨ s.incomingAlert? frequency = some .unresponsive := by
  cases h : s.incomingAlert? frequency with
  | none => exact .inl rfl
  | some alert =>
      right
      rcases Snapshot.incomingAlert?_cases h with ⟨hu, -⟩ | ⟨-, hn, -⟩ | ⟨-, -, rfl⟩
      · rw [hs.1] at hu; cases hu
      · rw [hs.2] at hn; cases hn
      · rfl

namespace AlertMachine

/-! ### One silent frame -/

theorem next_alert_of_silent (m : AlertMachine) {s : Snapshot} (hs : s.IsSilent) :
    (m.next s).alert = m.shown ∨ (m.next s).alert = .unresponsive := by
  rw [next_alert]
  rcases hs.incoming m.frequency with h | h
  · exact .inl (by rw [h]; rfl)
  · exact .inr (by rw [h]; rfl)

theorem next_alert_of_unresponsive {m : AlertMachine} (hm : m.shown = .unresponsive)
    {s : Snapshot} (hs : s.IsSilent) : (m.next s).alert = .unresponsive := by
  rcases next_alert_of_silent m hs with h | h
  · exact h.trans hm
  · exact h

theorem announces_of_unchanged {m : AlertMachine} {s : Snapshot}
    (h : (m.next s).alert = m.shown) : announces s (m.next s) = false := by
  rw [Bool.eq_false_iff, ne_eq, announces_next]
  exact fun hc => hc.1 h

theorem next_tint_of_unresponsive {m : AlertMachine} {s : Snapshot}
    (h : (m.next s).alert = .unresponsive) : (m.next s).tint = Palette.alertTint := by
  rw [next_tint, h]
  rfl

/-! ### Many silent frames -/

/-- The updates that some frames return, one after the other. -/
def updatesOver : AlertMachine → List Snapshot → List AlertUpdate
  | _, [] => []
  | m, s :: ss => (m.update s).2.1 :: (m.update s).1.updatesOver ss

/-- The alerts that some frames announce, in order. -/
def announcedOver : AlertMachine → List Snapshot → List Alert
  | _, [] => []
  | m, s :: ss => (m.update s).2.2.toList ++ (m.update s).1.announcedOver ss

theorem announcedOver_cons_of_unchanged {m : AlertMachine} {s : Snapshot} (ss : List Snapshot)
    (h : (m.next s).alert = m.shown) :
    m.announcedOver (s :: ss) = (m.update s).1.announcedOver ss := by
  have hn : (m.update s).2.2 = none := by
    rw [update_eq, announces_of_unchanged h]
    rfl
  rw [announcedOver, hn]
  rfl

/-- The alert for unresponsive controls stays, and is not announced again. -/
theorem frames_of_unresponsive : ∀ {m : AlertMachine} {ss : List Snapshot},
    m.shown = .unresponsive → (∀ s ∈ ss, s.IsSilent) →
    (m.updatesOver ss).map AlertUpdate.alert = List.replicate ss.length .unresponsive ∧
      m.announcedOver ss = []
  | _, [], _, _ => ⟨rfl, rfl⟩
  | m, s :: ss, hm, hs => by
      have ha := next_alert_of_unresponsive hm (hs s (List.mem_cons_self ..))
      obtain ⟨hu, hn⟩ := frames_of_unresponsive (m := (m.update s).1) ha
        fun t ht => hs t (List.mem_cons_of_mem _ ht)
      constructor
      · rw [List.length_cons, List.replicate_succ, ← hu, ← ha]
        rfl
      · rw [announcedOver_cons_of_unchanged ss (ha.trans hm.symm), hn]

/-- Silent frames leave the alert on screen for a while, and then show unresponsive controls. -/
theorem alerts_of_silent : ∀ (m : AlertMachine) {ss : List Snapshot}, (∀ s ∈ ss, s.IsSilent) →
    ∃ kept taken, kept + taken = ss.length ∧ (m.updatesOver ss).map AlertUpdate.alert =
      List.replicate kept m.shown ++ List.replicate taken .unresponsive
  | _, [], _ => ⟨0, 0, rfl, rfl⟩
  | m, s :: ss, hs => by
      have hss : ∀ t ∈ ss, t.IsSilent := fun t ht => hs t (List.mem_cons_of_mem _ ht)
      rcases next_alert_of_silent m (hs s (List.mem_cons_self ..)) with ha | ha
      · obtain ⟨kept, taken, hl, hu⟩ := alerts_of_silent (m.update s).1 hss
        refine ⟨kept + 1, taken, by rw [List.length_cons]; omega, ?_⟩
        have hm : (m.update s).1.shown = m.shown := ha
        rw [hm] at hu
        rw [List.replicate_succ, List.cons_append, ← hu, ← ha]
        rfl
      · obtain ⟨hu, -⟩ := frames_of_unresponsive (m := (m.update s).1) ha hss
        refine ⟨0, ss.length + 1, by rw [List.length_cons]; omega, ?_⟩
        rw [List.replicate_zero, List.nil_append, List.replicate_succ, ← hu, ← ha]
        rfl

theorem announcedOver_of_silent : ∀ (m : AlertMachine) {ss : List Snapshot},
    (∀ s ∈ ss, s.IsSilent) → (m.announcedOver ss).Sublist [.unresponsive]
  | _, [], _ => List.nil_sublist _
  | m, s :: ss, hs => by
      have hss : ∀ t ∈ ss, t.IsSilent := fun t ht => hs t (List.mem_cons_of_mem _ ht)
      rcases next_alert_of_silent m (hs s (List.mem_cons_self ..)) with ha | ha
      · rw [announcedOver_cons_of_unchanged ss ha]
        exact announcedOver_of_silent _ hss
      · obtain ⟨-, hn⟩ := frames_of_unresponsive (m := (m.update s).1) ha hss
        unfold announcedOver
        rw [hn, List.append_nil, update_eq, ha]
        split
        · exact List.Sublist.refl _
        · exact List.nil_sublist _

theorem tint_of_mem_updatesOver : ∀ {m : AlertMachine} {ss : List Snapshot} {u : AlertUpdate},
    u ∈ m.updatesOver ss → u.alert = .unresponsive → u.tint = Palette.alertTint
  | _, [], _, hu, _ => by cases hu
  | m, s :: ss, u, hu, ha => by
      rcases List.mem_cons.mp hu with rfl | hu
      · exact next_tint_of_unresponsive ha
      · exact tint_of_mem_updatesOver hu ha

/-! ### The law -/

/-- **The law of silent controls.**  Over silent frames after any events, the alert on screen
changes once at most, and only to the full-size alert for unresponsive controls; once that is on
screen it stays; it always shows in the critical tint; and one alert is announced at most. -/
theorem silence_law (frequency : UInt32) (events : List Event) (ss : List Snapshot)
    (hs : ∀ s ∈ ss, s.IsSilent) :
    let m := (run frequency events).machine
    let alerts := (m.updatesOver ss).map AlertUpdate.alert
    (∃ kept taken, kept + taken = ss.length ∧
      alerts = List.replicate kept m.shown ++ List.replicate taken .unresponsive) ∧
    (∀ a ∈ alerts, a ≠ m.shown → a.kind = "controlsUnresponsive" ∧ a.size = .full) ∧
    ((m.shown :: alerts).Pairwise fun a b => a = .unresponsive → b = .unresponsive) ∧
    (∀ u ∈ m.updatesOver ss, u.alert = .unresponsive → u.tint = Palette.alertTint) ∧
    (m.announcedOver ss).length ≤ 1 := by
  intro m alerts
  obtain ⟨kept, taken, hl, ha⟩ := alerts_of_silent m hs
  refine ⟨⟨kept, taken, hl, ha⟩, fun a hm hne => ?_, ?_, fun u => tint_of_mem_updatesOver, ?_⟩
  · rw [show alerts = _ from ha, List.mem_append] at hm
    rcases hm with hm | hm
    · exact absurd (List.eq_of_mem_replicate hm) hne
    · rw [List.eq_of_mem_replicate hm]
      exact ⟨rfl, rfl⟩
  · rw [show alerts = _ from ha, ← List.cons_append, ← List.replicate_succ, List.pairwise_append]
    refine ⟨List.pairwise_replicate.mpr (.inr id), List.pairwise_replicate.mpr (.inr id), ?_⟩
    intro a _ b hb _
    exact List.eq_of_mem_replicate hb
  · exact (announcedOver_of_silent m hs).length_le

/-- A frame on which the controls are silent. -/
def silentFrame (frames : UInt64) (seconds : Float32) : Snapshot where
  controls :=
    { updated := false, framesSinceStart := frames, secondsSinceUpdate := seconds }

/-- Controls that are silent for long enough, and then look fresher than they are. -/
theorem silence_law_relapse :
    let m := (run 20 [.update { alert := ⟨"Lane departure", "", "ldw", .small⟩ }]).machine
    let ss := [silentFrame 10 0.5, silentFrame 101 5.5, silentFrame 3 (0 / 0), silentFrame 101 0]
    (m.updatesOver ss).map AlertUpdate.alert =
      [⟨"Lane departure", "", "ldw", .small⟩, .unresponsive, .unresponsive, .unresponsive] ∧
    (m.announcedOver ss).length ≤ 1 := by
  refine ⟨by decide, (silence_law 20 _ _ ?_).2.2.2.2⟩
  simp [silentFrame, Snapshot.IsSilent]

end AlertMachine

end DriveOverlay
