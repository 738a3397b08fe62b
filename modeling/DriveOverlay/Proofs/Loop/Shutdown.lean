import DriveOverlay.Proofs.Loop.LatestValue

/-! # Channels whose publisher has gone

A session goes on without its publisher: what was published last can still be read, and waiting for
a change still ends at once while it is unseen.  Only the question whether there is something new is
answered with no from then on, also to a receiver that has not seen the last value.

`reopened` puts the publisher back.  A session without it does what the reopened one does, but for
`hasNew` and the end of waiting; so the history of any requests tells what the reopened session is
(`follows_reopened_run`), and with it what each receiver has missed.

* `reply_hasNew_eq`: something is new when it is unseen and the publisher is there;
* `shutdown_law`: the answer is right unless the publisher went before the receiver saw the last
  value. -/

namespace DriveOverlay.Session

variable {α : Type}

/-! ### The publisher put back -/

/-- The session as it would be with its publisher there. -/
def reopened (s : Session α) : Session α :=
  { s with channel := { s.channel with isOpen := true } }

theorem reopened_of_isOpen {s : Session α} (ho : s.channel.isOpen = true) : s.reopened = s := by
  obtain ⟨⟨value, version, isOpen⟩, receivers⟩ := s
  obtain rfl : isOpen = true := ho
  rfl

theorem withReceiver_reopened (s : Session α) (id : Nat) (f : Receiver → Reply α × Receiver) :
    s.reopened.withReceiver id f = ((s.withReceiver id f).1, (s.withReceiver id f).2.reopened) := by
  have hr : s.reopened.receiver? id = s.receiver? id := rfl
  rw [withReceiver, withReceiver, hr]
  cases s.receiver? id <;> rfl

variable {initial : α} {s : Session α} {h : History α}

theorem Follows.step_reopened (hs : Follows initial s.reopened h) (request : Request α) :
    Follows initial (s.step request).2.reopened ((request, (s.step request).1) :: h) := by
  cases request with
  | publish value =>
      cases ho : s.channel.isOpen with
      | false =>
          simp only [Session.step, ho, Bool.false_eq_true, if_false]
          exact hs.of_unchanged rfl fun other => rfl
      | true =>
          have hp := hs.step (by simp : Request.publish value ≠ .dropPublisher)
          rw [reopened_of_isOpen ho] at hp
          rwa [reopened_of_isOpen hp.isOpen]
  | subscribe newId =>
      cases ho : s.channel.isOpen with
      | false =>
          simp only [Session.step, ho, Bool.false_eq_true, if_false]
          exact hs.of_unchanged rfl fun other => rfl
      | true =>
          have hp := hs.step (by simp : Request.subscribe newId ≠ .dropPublisher)
          rw [reopened_of_isOpen ho] at hp
          rwa [reopened_of_isOpen hp.isOpen]
  | clone original newId =>
      have hc := hs.step (by simp : Request.clone original newId ≠ .dropPublisher)
      cases hr : s.receiver? original with
      | none =>
          have hr' : s.reopened.receiver? original = none := hr
          simp only [Session.step, hr, hr'] at hc ⊢
          exact hc
      | some r =>
          have hr' : s.reopened.receiver? original = some r := hr
          simp only [Session.step, hr, hr'] at hc ⊢
          exact hc
  | latest reader =>
      have hl := hs.step (by simp : Request.latest reader ≠ .dropPublisher)
      simp only [Session.step, withReceiver_reopened] at hl
      exact hl
  | hasNew reader =>
      cases hr : s.receiver? reader with
      | none =>
          simp only [Session.step, withReceiver, hr]
          exact hs.of_unchanged rfl fun other => rfl
      | some r =>
          simp only [Session.step, withReceiver, hr]
          exact (hs.put_self hr).of_unchanged rfl fun other => rfl
  | poll reader =>
      cases hr : s.receiver? reader with
      | none =>
          simp only [Session.step, withReceiver, hr]
          exact hs.of_unchanged rfl fun other => rfl
      | some r =>
          simp only [Session.step, withReceiver, hr, Channel.poll]
          by_cases hn : r.seen = s.channel.version
          · simp only [hn, ne_eq, not_true, if_false]
            cases s.channel.isOpen <;>
              exact (hs.put_self hr).of_unchanged rfl fun other => rfl
          · simp only [hn, ne_eq, not_false_eq_true, if_true]
            exact hs.of_current rfl fun other => rfl
  | dropReceiver dropped =>
      exact hs.step (by simp : Request.dropReceiver dropped ≠ .dropPublisher)
  | dropPublisher => exact hs.of_unchanged rfl fun other => rfl

/-- But for the publisher, a session is what its history tells. -/
theorem follows_reopened_run (initial : α) (requests : List (Request α)) :
    Follows initial ((start initial).run requests).2.reopened
      ((start initial).history requests) := by
  induction requests using List.reverseRecOn with
  | nil => exact follows_start initial
  | append_singleton requests request ih =>
      rw [run_concat, history_concat]
      exact ih.step_reopened request

/-! ### Whether the publisher is there -/

theorem isOpen_step (s : Session α) {request : Request α} (hq : request ≠ .dropPublisher) :
    (s.step request).2.channel.isOpen = s.channel.isOpen := by
  cases request with
  | publish value => simp only [Session.step]; split <;> rfl
  | subscribe newId => simp only [Session.step]; split <;> rfl
  | clone original newId => simp only [Session.step]; split <;> rfl
  | latest reader => simp only [Session.step, withReceiver]; split <;> rfl
  | hasNew reader => simp only [Session.step, withReceiver]; split <;> rfl
  | poll reader => simp only [Session.step, withReceiver]; split <;> rfl
  | dropReceiver dropped => rfl
  | dropPublisher => exact absurd rfl hq

theorem isOpen_run (initial : α) (requests : List (Request α)) :
    ((start initial).run requests).2.channel.isOpen = true ↔ .dropPublisher ∉ requests := by
  induction requests using List.reverseRecOn with
  | nil => exact iff_of_true rfl List.not_mem_nil
  | append_singleton requests request ih =>
      rw [run_concat, List.mem_append, List.mem_singleton, not_or]
      by_cases hq : request = .dropPublisher
      · subst hq
        exact iff_of_false Bool.false_ne_true fun hn => hn.2 rfl
      · rw [isOpen_step _ hq, ih]
        exact ⟨fun hn => ⟨hn, fun e => hq e.symm⟩, fun hn => hn.1⟩

/-! ### Replies -/

theorem reply_hasNew_eq {id : Nat} {r : Receiver} (hr : s.receiver? id = some r)
    {recent : History α} (hl : r.seen + (publications recent).length = s.channel.version) :
    ∃ flag, (s.step (.hasNew id)).1 = .flag flag ∧
      (flag = true ↔ s.channel.isOpen = true ∧ publications recent ≠ []) := by
  refine ⟨s.channel.hasNew r, by simp only [Session.step, withReceiver, hr], ?_⟩
  simp only [Channel.hasNew, Bool.and_eq_true, decide_eq_true_eq, ne_eq, seen_eq_iff hl]

theorem reply_poll_eq {id : Nat} {r : Receiver} (hr : s.receiver? id = some r)
    {recent : History α} (hl : r.seen + (publications recent).length = s.channel.version) :
    ∃ result, (s.step (.poll id)).1 = .waiting result ∧
      (result = .changed ↔ publications recent ≠ []) ∧
      (result = .closed ↔ publications recent = [] ∧ s.channel.isOpen = false) := by
  refine ⟨(s.channel.poll r).1, by simp only [Session.step, withReceiver, hr], ?_⟩
  rw [ne_eq, ← seen_eq_iff hl]
  unfold Channel.poll
  by_cases hn : r.seen = s.channel.version
  · cases s.channel.isOpen <;> simp [hn]
  · simp [hn]

theorem reply_latest_eq (hs : Follows initial s.reopened h) {id : Nat} {r : Receiver}
    (hr : s.receiver? id = some r) :
    (s.step (.latest id)).1 = .value ((publications h).headD initial) := by
  simp only [Session.step, withReceiver, hr]
  exact congrArg Reply.value hs.value_eq

/-! ### Readings -/

theorem value_run (initial : α) (requests : List (Request α)) :
    ((start initial).run requests).2.channel.value =
      (publications ((start initial).history requests)).headD initial :=
  (follows_reopened_run initial requests).value_eq

theorem mem_readings {id : Nat} {requests : List (Request α)} {value : α}
    (hm : value ∈ readings id ((start initial).history requests)) :
    value = initial ∨ value ∈ publications ((start initial).history requests) := by
  induction requests using List.reverseRecOn with
  | nil => cases hm
  | append_singleton requests request ih =>
      have hvalue := value_run initial requests
      rw [history_concat] at hm ⊢
      generalize (start initial).history requests = h at hvalue hm ih ⊢
      generalize ((start initial).run requests).2 = s at hvalue hm ⊢
      have hlater : ∀ v ∈ publications h, v ∈ publications ((request, (s.step request).1) :: h) :=
        fun v hv => (List.Sublist.filterMap _ (List.sublist_cons_self _ h)).subset hv
      rcases reading?_step s id request with he | he
      · rw [readings, List.filterMap_cons_none he] at hm
        exact (ih hm).imp_right (hlater value)
      · rw [readings, List.filterMap_cons_some he, hvalue] at hm
        rcases List.mem_cons.mp hm with rfl | hm
        · cases hp : publications h with
          | nil => exact .inl rfl
          | cons last earlier =>
              rw [hp] at hlater
              exact .inr (hlater last List.mem_cons_self)
        · exact (ih hm).imp_right (hlater value)

/-! ### The law -/

/-- **The law of shutdown.**  After any requests at all, a receiver is told that there is something
new exactly when a value was published since it saw the value last *and* the publisher is still
there.  So the answer tells whether something is unseen as long as the publisher was not dropped or
nothing is; without the publisher it is no in any case, while reading still gives the value that was
published last, and waiting still ends with a change exactly when that is unseen. -/
theorem shutdown_law (requests : List (Request Snapshot)) :
    let s := ((start {}).run requests).2
    let h := (start {}).history requests
    ∀ id r, s.receiver? id = some r → ∃ recent, since? id h = some recent ∧
      (∃ flag, (s.step (.hasNew id)).1 = .flag flag ∧
        (flag = true ↔ .dropPublisher ∉ requests ∧ publications recent ≠ []) ∧
        ((flag = true ↔ publications recent ≠ []) ↔
          .dropPublisher ∉ requests ∨ publications recent = [])) ∧
      (s.step (.latest id)).1 = .value ((publications h).headD {}) ∧
      (∃ result, (s.step (.poll id)).1 = .waiting result ∧
        (result = .changed ↔ publications recent ≠ []) ∧
        (result = .closed ↔ publications recent = [] ∧ .dropPublisher ∈ requests)) := by
  intro s h id r hr
  have hs : Follows {} s.reopened h := follows_reopened_run {} requests
  have ho : s.channel.isOpen = true ↔ .dropPublisher ∉ requests := isOpen_run {} requests
  have hc : s.channel.isOpen = false ↔ .dropPublisher ∈ requests := by
    rw [← Bool.not_eq_true, ho, not_not]
  obtain ⟨recent, hn, hl⟩ := hs.exists_since hr
  obtain ⟨flag, hf, hflag⟩ := reply_hasNew_eq hr hl
  obtain ⟨result, hw, hchanged, hclosed⟩ := reply_poll_eq hr hl
  rw [ho] at hflag
  rw [hc] at hclosed
  refine ⟨recent, hn, ⟨flag, hf, hflag, ?_⟩, reply_latest_eq hs hr, result, hw, hchanged, hclosed⟩
  rw [hflag]
  tauto

/-- A frame is published that receiver 0 does not read before the publisher goes. -/
def unreadFrame : List (Request Snapshot) :=
  [.publish { frame := 7 }, .dropPublisher]

/-- The frame was published since receiver 0 came to be and can still be read, but receiver 0 is
told that there is nothing new. -/
theorem hasNew_of_unreadFrame :
    let s := ((start {}).run unreadFrame).2
    let h := (start {}).history unreadFrame
    readings 0 h = [] ∧ (s.step (.latest 0)).1 = .value { frame := 7 } ∧
      ¬∃ recent flag, since? 0 h = some recent ∧ (s.step (.hasNew 0)).1 = .flag flag ∧
        (flag = true ↔ publications recent ≠ []) := by
  refine ⟨rfl, rfl, ?_⟩
  rintro ⟨recent, flag, hn, hf, hiff⟩
  cases hn
  cases hf
  exact Bool.false_ne_true (hiff.mpr nofun)

end DriveOverlay.Session
