import DriveOverlay.Loop.Pipeline
import DriveOverlay.Proofs.Loop.Backlog
import Mathlib.Algebra.GroupWithZero.Nat
import Mathlib.Data.List.Induction

/-! # Counters and events of the frame loop

A run is what ticks, drains and resets, in any order, make of a new loop: the loop that comes out,
and a record of what came of each of them.  A tick is told by what it does to the counters
(`counters_tick`) and to the events (`events_tick`), whatever the surface, the camera image and the
clock.

`Accounts` is the invariant that ties a loop to its record: the counters are sums over the outcomes
of the ticks, and the backlog holds the events published since the last drain.  `accounting_law`
reads off it what a run counts, announces and hands out. -/

namespace DriveOverlay

/-! ### Counters -/

namespace Counters

variable (c : Counters) (k k' : Counter)

theorem get_set (n : UInt64) : (c.set k n).get k' = if k' = k then n else c.get k' := by
  cases k <;> cases k' <;> rfl

theorem get_add (n : UInt64) : (c.add k n).get k' = c.get k' + if k' = k then n else 0 := by
  rw [add, get_set]
  split
  · rename_i h
    rw [h]
  · rw [UInt64.add_zero]

theorem get_countIf (happened : Bool) : (c.countIf k happened).get k' =
    c.get k' + if k' = k then .ofNat happened.toNat else 0 := by
  cases happened with
  | true => exact get_add c k k' 1
  | false => simp [countIf]

end Counters

/-- What a tick adds to the counters; the time of the last paint is no sum. -/
def FrameOutcome.counts (o : FrameOutcome) : Counter → ℕ
  | .totalFrames => 1
  | .alertsActivated => o.observation.announced.isSome.toNat
  | .bannerRepaints => o.observation.update.repaint.toNat
  | .slowFrames => o.slowFrame.isSome.toNat
  | .renderErrors => o.report.failedElements
  | .lastRender => 0

/-- The events that a tick publishes: the alert it announces, then its slow frame. -/
def FrameOutcome.events (o : FrameOutcome) : List HudEvent :=
  (o.observation.announced.map .alertActivated).toList ++ (o.slowFrame.map .slowFrame).toList

/-- The alert of an event that tells of one. -/
def HudEvent.alert? : HudEvent → Option Alert
  | .alertActivated alert => some alert
  | .slowFrame _ => none

namespace Pipeline

variable {σ : Type} [Surface σ]

/-! ### Runs -/

/-- What is done to the loop. -/
inductive Action (σ : Type) where
  | tick (surface : σ) (video : Option VideoFrame) (s : Snapshot) (started finished : Instant)
  | drainEvents
  | reset

/-- What came of it. -/
inductive Entry where
  | ticked (s : Snapshot) (outcome : FrameOutcome)
  | drained (events : List HudEvent)
  | reset

/-- The action is a tick. -/
def Action.isTick : Action σ → Bool
  | .tick .. => true
  | _ => false

/-- A loop, and what came of everything that was done to it. -/
structure Run where
  pipeline : Pipeline
  record : List Entry := []

/-- One more action. -/
def Run.step (r : Run) : Action σ → Run
  | .tick surface video s started finished =>
      let (outcome, pipeline, _) := r.pipeline.tick surface video s started finished
      ⟨pipeline, r.record ++ [.ticked s outcome]⟩
  | .drainEvents =>
      let (events, pipeline) := r.pipeline.drainEvents
      ⟨pipeline, r.record ++ [.drained events]⟩
  | .reset => ⟨r.pipeline.reset, r.record ++ [.reset]⟩

/-- The run of a new loop. -/
def run (settings : Settings) (actions : List (Action σ)) : Run :=
  actions.foldl Run.step ⟨.ofSettings settings, []⟩

theorem run_concat (settings : Settings) (actions : List (Action σ)) (action : Action σ) :
    run settings (actions ++ [action]) = (run settings actions).step action := by
  unfold run
  rw [List.foldl_append, List.foldl_cons, List.foldl_nil]

/-! ### Records -/

namespace Entry

/-- The outcome of a tick. -/
def outcome? : Entry → Option FrameOutcome
  | .ticked _ outcome => some outcome
  | _ => none

/-- The events that are published. -/
def events : Entry → List HudEvent
  | .ticked _ outcome => outcome.events
  | _ => []

/-- The events that wait are taken. -/
def isDrain : Entry → Bool
  | .drained _ => true
  | _ => false

/-- The alert of a tick that changed to another one, not empty, outside of preview. -/
def activation? : Entry → Option Alert
  | .ticked s outcome =>
      let u := outcome.observation.update
      if u.changed = true ∧ u.alert.isEmpty = false ∧ s.display.preview = false then some u.alert
      else none
  | _ => none

end Entry

/-- The outcomes of the ticks. -/
def outcomes (record : List Entry) : List FrameOutcome :=
  record.filterMap Entry.outcome?

/-- The alerts that whoever listens was told of. -/
def notifications (record : List Entry) : List Alert :=
  (outcomes record).filterMap fun o => o.observation.announced

/-- The alerts that ticks changed to, not empty, outside of preview. -/
def activations (record : List Entry) : List Alert :=
  record.filterMap Entry.activation?

/-- All events that were published. -/
def published (record : List Entry) : List HudEvent :=
  record.flatMap Entry.events

/-- The events that were published since they were taken last. -/
def waiting (record : List Entry) : List HudEvent :=
  published (record.rtakeWhile fun entry => !entry.isDrain)

/-! ### One tick -/

theorem events_publish? (p : Pipeline) (event : Option HudEvent) :
    (p.publish? event).events = event.toList.foldl Backlog.publish p.events := by
  cases event <;> rfl

theorem counters_publish? (p : Pipeline) (event : Option HudEvent) :
    (p.publish? event).counters = p.counters := by
  cases event <;> rfl

variable (p : Pipeline) (surface : σ) (video : Option VideoFrame) (s : Snapshot)
  (started finished : Instant)

theorem events_observe : (p.observe s).2.events =
    ((p.observe s).1.announced.map .alertActivated).toList.foldl Backlog.publish p.events :=
  events_publish? _ _

theorem events_settle (report : RenderReport) : (p.settle report started finished).2.events =
    ((p.settle report started finished).1.map .slowFrame).toList.foldl Backlog.publish p.events :=
  events_publish? _ _

/-- The backlog gets the events of a tick in their order. -/
theorem events_tick : (p.tick surface video s started finished).2.1.events =
    (p.tick surface video s started finished).1.events.foldl Backlog.publish p.events := by
  have hs : (p.tick surface video s started finished).2.1.events = _ :=
    events_settle (p.observe s).2 started finished _
  rw [hs, events_observe, ← List.foldl_append]
  rfl

theorem announced_tick :
    (p.tick surface video s started finished).1.observation.announced =
      (Entry.ticked s (p.tick surface video s started finished).1).activation? := by
  have ha : (p.tick surface video s started finished).1.observation.announced =
      if AlertMachine.announces s (p.observe s).1.update then some (p.observe s).1.update.alert
      else none := rfl
  rw [ha]
  simp only [AlertMachine.announces, Bool.and_eq_true, Bool.not_eq_true', and_assoc]
  rfl

theorem counters_observe : (p.observe s).2.counters =
    (p.counters.countIf .alertsActivated (p.observe s).1.announced.isSome).countIf .bannerRepaints
      (p.observe s).1.update.repaint :=
  congrArg (Counters.countIf · .bannerRepaints (p.observe s).1.update.repaint)
    (counters_publish? _ _)

theorem counters_settle (report : RenderReport) :
    ∃ microseconds, (p.settle report started finished).2.counters =
      (((p.counters.set .lastRender microseconds).add .renderErrors
        (.ofNat report.failedElements)).countIf .slowFrames
          (p.settle report started finished).1.isSome).countIf .totalFrames true :=
  ⟨_, congrArg (Counters.countIf · .totalFrames true) (counters_publish? _ _)⟩

/-- What a tick adds to the counters. -/
theorem counters_tick {k : Counter} (hk : k ≠ .lastRender) :
    (p.tick surface video s started finished).2.1.counters.get k =
      p.counters.get k + .ofNat ((p.tick surface video s started finished).1.counts k) := by
  obtain ⟨microseconds, hs⟩ := counters_settle (p.observe s).2 started finished
    (p.tick surface video s started finished).1.report
  have hc : (p.tick surface video s started finished).2.1.counters.get k = _ :=
    congrArg (Counters.get · k) hs
  rw [hc]
  simp only [counters_observe, Counters.get_countIf, Counters.get_add, Counters.get_set]
  cases k with
  | lastRender => exact absurd rfl hk
  | _ => simp only [reduceCtorEq, if_true, if_false, UInt64.add_zero]; rfl

/-! ### Runs and their records -/

theorem outcomes_concat (record : List Entry) (entry : Entry) :
    outcomes (record ++ [entry]) = outcomes record ++ entry.outcome?.toList := by
  unfold outcomes
  rw [List.filterMap_append]
  cases h : entry.outcome? <;> simp [h]

theorem outcomes_concat_of_none (record : List Entry) {entry : Entry} (h : entry.outcome? = none) :
    outcomes (record ++ [entry]) = outcomes record := by
  rw [outcomes_concat, h, Option.toList_none, List.append_nil]

theorem published_concat (record : List Entry) (entry : Entry) :
    published (record ++ [entry]) = published record ++ entry.events := by
  simp [published]

theorem waiting_concat (record : List Entry) (entry : Entry) :
    waiting (record ++ [entry]) = if entry.isDrain then [] else waiting record ++ entry.events := by
  unfold waiting
  rw [List.rtakeWhile_concat]
  cases entry.isDrain with
  | true => rfl
  | false => exact published_concat _ _

/-- What a run keeps: the counters are the sums of what the ticks count, the backlog holds the
events published since the last drain, every drain so far gave what the backlog held, and every
tick so far announced the alert that it activated. -/
structure Accounts (r : Run) : Prop where
  counters : ∀ k, k ≠ .lastRender → (r.pipeline.counters.get k).toNat =
    ((outcomes r.record).map (·.counts k)).sum % 2 ^ 64
  capacity : r.pipeline.events.capacity = maxPending
  events : r.pipeline.events.Holds (waiting r.record)
  drained : ∀ i events, r.record[i]? = some (.drained events) →
    events = (waiting (r.record.take i)).rtake maxPending
  announced : ∀ s o, .ticked s o ∈ r.record →
    o.observation.announced = (Entry.ticked s o).activation?

theorem accounts_start (settings : Settings) : Accounts ⟨.ofSettings settings, []⟩ where
  counters k hk := by cases k <;> rfl
  capacity := rfl
  events := Backlog.holds_ofCapacity maxPending
  drained i events h := by cases h
  announced s o h := by cases h

theorem drained_concat {record : List Entry} {entry : Entry}
    (h : ∀ i events, record[i]? = some (.drained events) →
      events = (waiting (record.take i)).rtake maxPending)
    (he : ∀ events, entry = .drained events → events = (waiting record).rtake maxPending) :
    ∀ i events, (record ++ [entry])[i]? = some (.drained events) →
      events = (waiting ((record ++ [entry]).take i)).rtake maxPending := by
  intro i events hi
  rcases Nat.lt_trichotomy i record.length with hl | hl | hl
  · rw [List.getElem?_append_left hl] at hi
    rw [List.take_append_of_le_length hl.le]
    exact h i events hi
  · subst hl
    rw [List.getElem?_concat_length] at hi
    rw [List.take_left' rfl]
    exact he events (Option.some.inj hi)
  · rw [List.getElem?_eq_none (by simp; omega)] at hi
    cases hi

theorem toNat_add_ofNat {c : UInt64} {n : ℕ} (h : c.toNat = n % 2 ^ 64) (k : ℕ) :
    (c + .ofNat k).toNat = (n + k) % 2 ^ 64 := by
  rw [UInt64.toNat_add, h, UInt64.toNat_ofNat', ← Nat.add_mod]

theorem announced_concat {record : List Entry} {entry : Entry}
    (h : ∀ s o, .ticked s o ∈ record → o.observation.announced = (Entry.ticked s o).activation?)
    (he : ∀ s o, entry = .ticked s o → o.observation.announced = entry.activation?) :
    ∀ s o, .ticked s o ∈ record ++ [entry] →
      o.observation.announced = (Entry.ticked s o).activation? := by
  intro s o hm
  rcases List.mem_append.mp hm with hm | hm
  · exact h s o hm
  · rw [List.mem_singleton] at hm
    rw [hm]
    exact he s o hm.symm

theorem Accounts.step {r : Run} (h : Accounts r) (action : Action σ) : Accounts (r.step action) := by
  cases action with
  | tick surface video s started finished =>
      refine ⟨fun k hk => ?_, ?_, ?_, drained_concat h.drained (fun events he => by cases he),
        announced_concat h.announced fun s' o he => ?_⟩
      · have ho := outcomes_concat r.record
          (.ticked s (r.pipeline.tick surface video s started finished).1)
        simp only [Run.step]
        rw [counters_tick r.pipeline surface video s started finished hk, ho, List.map_append,
          List.sum_append]
        exact toNat_add_ofNat (h.counters k hk) _
      · simp only [Run.step]
        rw [events_tick, Backlog.capacity_publishAll]
        exact h.capacity
      · simp only [Run.step]
        rw [events_tick, waiting_concat]
        exact h.events.publishAll _
      · cases he
        exact announced_tick r.pipeline surface video s started finished
  | drainEvents =>
      obtain ⟨hd, he⟩ := h.events.drain
      refine ⟨fun k hk => ?_, h.capacity, ?_, drained_concat h.drained fun events hev => ?_,
        announced_concat h.announced (fun s o hev => by cases hev)⟩
      · simp only [Run.step]
        rw [outcomes_concat_of_none _ rfl]
        exact h.counters k hk
      · simp only [Run.step]
        rw [waiting_concat]
        exact he
      · cases hev
        rw [← h.capacity]
        exact hd
  | reset =>
      refine ⟨fun k hk => ?_, h.capacity, ?_, drained_concat h.drained (fun events he => by cases he),
        announced_concat h.announced (fun s o hev => by cases hev)⟩
      · simp only [Run.step]
        rw [outcomes_concat_of_none _ rfl]
        exact h.counters k hk
      · simp only [Run.step]
        rw [waiting_concat]
        exact (List.append_nil (waiting r.record)).symm ▸ h.events

theorem accounts_run (settings : Settings) (actions : List (Action σ)) :
    Accounts (run settings actions) := by
  induction actions using List.reverseRecOn with
  | nil => exact accounts_start settings
  | append_singleton actions action ih =>
      rw [run_concat]
      exact ih.step action

/-! ### What a record tells -/

theorem length_outcomes_run (settings : Settings) (actions : List (Action σ)) :
    (outcomes (run settings actions).record).length = actions.countP Action.isTick := by
  induction actions using List.reverseRecOn with
  | nil => rfl
  | append_singleton actions action ih =>
      rw [run_concat, List.countP_append, ← ih]
      cases action with
      | tick surface video s started finished =>
          simp only [Run.step]
          rw [outcomes_concat, List.length_append]
          rfl
      | drainEvents => exact congrArg List.length (outcomes_concat_of_none _ rfl)
      | reset => exact congrArg List.length (outcomes_concat_of_none _ rfl)

theorem Accounts.notifications_eq {r : Run} (h : Accounts r) :
    notifications r.record = activations r.record := by
  unfold notifications outcomes activations
  rw [List.filterMap_filterMap]
  refine List.filterMap_congr fun entry hm => ?_
  cases entry with
  | ticked s o => exact h.announced s o hm
  | drained events => rfl
  | reset => rfl

theorem alerts_events (o : FrameOutcome) :
    o.events.filterMap HudEvent.alert? = o.observation.announced.toList := by
  unfold FrameOutcome.events
  cases o.observation.announced <;> cases o.slowFrame <;> rfl

theorem alerts_published (record : List Entry) :
    (published record).filterMap HudEvent.alert? = notifications record := by
  induction record with
  | nil => rfl
  | cons entry record ih =>
      unfold published notifications outcomes at ih ⊢
      rw [List.flatMap_cons, List.filterMap_append, ih]
      cases entry with
      | ticked s o =>
          rw [show (Entry.ticked s o).events = o.events from rfl, alerts_events,
            List.filterMap_cons_some (f := Entry.outcome?) rfl, List.filterMap_cons]
          cases o.observation.announced <;> rfl
      | drained events => rfl
      | reset => rfl

theorem sum_counts_alertsActivated (os : List FrameOutcome) :
    (os.map (·.counts .alertsActivated)).sum =
      (os.filterMap fun o => o.observation.announced).length := by
  induction os with
  | nil => rfl
  | cons o os ih =>
      rw [List.map_cons, List.sum_cons, ih, List.filterMap_cons, FrameOutcome.counts]
      cases o.observation.announced with
      | none => exact Nat.zero_add _
      | some alert => exact Nat.add_comm _ _

/-! ### The law -/

/-- **The accounting law.**  After any ticks, drains and resets of a new loop, every counter but the
time of the last paint is the sum of what the ticks count, as far as 64 bits go; the alerts that
whoever listens was told of, those in the published events, and those that ticks changed to, not
empty and outside of preview, are the same, in order, and as many as were counted; every drain gave
the last 64 events published since the drain before, in order; and a reset changes neither the
counters nor the events that wait. -/
theorem accounting_law (settings : Settings) (actions : List (Action σ)) :
    let r := run settings actions
    (∀ k, k ≠ .lastRender → (r.pipeline.counters.get k).toNat =
      ((outcomes r.record).map (·.counts k)).sum % 2 ^ 64) ∧
    (outcomes r.record).length = actions.countP Action.isTick ∧
    (notifications r.record = activations r.record ∧
      (published r.record).filterMap HudEvent.alert? = activations r.record ∧
      ((outcomes r.record).map (·.counts .alertsActivated)).sum =
        (activations r.record).length) ∧
    (∀ i events, r.record[i]? = some (.drained events) →
      events = (waiting (r.record.take i)).rtake 64) ∧
    (r.step (.reset : Action σ)).pipeline.counters = r.pipeline.counters ∧
      (r.step (.reset : Action σ)).pipeline.events = r.pipeline.events := by
  intro r
  have h : Accounts r := accounts_run settings actions
  refine ⟨h.counters, length_outcomes_run settings actions, ⟨h.notifications_eq, ?_, ?_⟩,
    h.drained, rfl, rfl⟩
  · rw [alerts_published, h.notifications_eq]
  · rw [sum_counts_alertsActivated, ← h.notifications_eq]
    rfl

end Pipeline

end DriveOverlay
