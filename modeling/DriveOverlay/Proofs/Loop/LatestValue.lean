import DriveOverlay.Loop.Channel
import DriveOverlay.Scene.Snapshot
import Mathlib.Data.List.Induction
import Mathlib.Data.Option.Basic

/-! # Latest-value channels told by their history

A history has the requests of a session with what came of them, latest first.  It knows nothing of
versions:

* `publications`: the values that were published;
* `since?`: what has happened since a receiver saw the value last.  A receiver that subscribes,
  reads, or has waited for a change has seen everything; a clone has seen what the receiver it was
  made from has seen;
* `readings`: the values that a receiver got.

`Follows` ties a session to its history: a receiver's version lags behind by the publications it has
not seen.  `Follows.step` is the invariant of one request, `follows_run` that of a session while the
publisher is there.  `AgreeBut` relates sessions that differ in what some receivers have seen; what
one receiver reads makes no difference to the others (`overheard_after_read`).

`latest_value_law` puts this together. -/

namespace DriveOverlay

/-- The receiver that a request reads with. -/
def Request.reader? {α : Type} : Request α → Option Nat
  | .latest id => some id
  | .hasNew id => some id
  | .poll id => some id
  | _ => none

namespace Session

variable {α : Type}

/-! ### Runs -/

theorem run_append (s : Session α) (first second : List (Request α)) :
    s.run (first ++ second) = ((s.run first).1 ++ ((s.run first).2.run second).1,
      ((s.run first).2.run second).2) := by
  induction first generalizing s with
  | nil => rfl
  | cons request first ih =>
      simp only [List.cons_append, run]
      rw [ih]

theorem length_replies (s : Session α) (requests : List (Request α)) :
    (s.run requests).1.length = requests.length := by
  induction requests generalizing s with
  | nil => rfl
  | cons request requests ih => simp only [run, List.length_cons, ih]

theorem run_concat (s : Session α) (requests : List (Request α)) (request : Request α) :
    (s.run (requests ++ [request])).2 = ((s.run requests).2.step request).2 := by
  rw [run_append]
  rfl

/-! ### Histories -/

/-- Requests and what came of them, latest first. -/
abbrev History (α : Type) := List (Request α × Reply α)

/-- The history of some requests. -/
def history (s : Session α) (requests : List (Request α)) : History α :=
  (requests.zip (s.run requests).1).reverse

theorem history_concat (s : Session α) (requests : List (Request α)) (request : Request α) :
    s.history (requests ++ [request]) =
      (request, ((s.run requests).2.step request).1) :: s.history requests := by
  unfold history
  rw [run_append, List.zip_append (length_replies s requests).symm, List.reverse_append]
  rfl

/-- The value that was published. -/
def publication? : Request α × Reply α → Option α
  | (.publish value, .published) => some value
  | _ => none

/-- The published values, latest first. -/
def publications (h : History α) : List α :=
  h.filterMap publication?

/-- The value that a receiver got. -/
def reading? (id : Nat) : Request α × Reply α → Option α
  | (.latest reader, .value value) => if reader = id then some value else none
  | _ => none

/-- The values that a receiver got, latest first. -/
def readings (id : Nat) (h : History α) : List α :=
  h.filterMap (reading? id)

/-- What a receiver has seen after a request. -/
inductive Outlook where
  /-- The value. -/
  | current
  /-- What some receiver had seen before the request. -/
  | like (id : Nat)
  /-- There is no such receiver. -/
  | gone

/-- What a receiver has seen after a request and what came of it. -/
def outlook (id : Nat) : Request α × Reply α → Outlook
  | (.subscribe newId, .subscribed) => if newId = id then .current else .like id
  | (.latest reader, .value _) => if reader = id then .current else .like id
  | (.poll reader, .waiting .changed) => if reader = id then .current else .like id
  | (.clone original newId, .cloned) => if newId = id then .like original else .like id
  | (.dropReceiver dropped, .dropped) => if dropped = id then .gone else .like id
  | _ => .like id

/-- What has happened since a receiver saw the value last, if there is such a receiver.  In the
beginning there is receiver 0. -/
def since? (id : Nat) : History α → Option (History α)
  | [] => if id = 0 then some [] else none
  | exchange :: earlier =>
    match outlook id exchange with
    | .current => some []
    | .like other => (since? other earlier).map (exchange :: ·)
    | .gone => none

/-! ### Receivers -/

theorem lookup_cons_eq_ite (i : Nat) (r : Receiver) (l : List (Nat × Receiver)) (id : Nat) :
    ((i, r) :: l).lookup id = if id = i then some r else l.lookup id := by
  by_cases h : id = i
  · simp [h]
  · rw [List.lookup_cons, beq_false_of_ne h, if_neg h]

theorem lookup_filter_ne (l : List (Nat × Receiver)) (id other : Nat) :
    (l.filter fun (i, _) => i ≠ id).lookup other = if other = id then none else l.lookup other := by
  induction l with
  | nil => simp
  | cons entry l ih =>
      obtain ⟨i, r⟩ := entry
      by_cases hi : i = id
      · subst hi
        rw [List.filter_cons_of_neg (by simp), ih, lookup_cons_eq_ite]
        split <;> rfl
      · rw [List.filter_cons_of_pos (by simpa using hi), lookup_cons_eq_ite, lookup_cons_eq_ite, ih]
        by_cases ho : other = i
        · rw [if_pos ho, if_pos ho, if_neg (ho ▸ hi)]
        · rw [if_neg ho, if_neg ho]

theorem receiver?_put (s : Session α) (id : Nat) (r : Receiver) (other : Nat) :
    (s.put id r).receiver? other = if other = id then some r else s.receiver? other := by
  unfold put receiver?
  rw [lookup_cons_eq_ite, lookup_filter_ne]
  split <;> rfl

theorem receiver?_drop (s : Session α) (id other : Nat) :
    (s.step (.dropReceiver id)).2.receiver? other =
      if other = id then none else s.receiver? other :=
  lookup_filter_ne s.receivers id other

/-! ### Sessions and their histories -/

/-- A receiver lags behind a version by the publications that it has not seen. -/
def Lags (version : Nat) : Option Receiver → Option (History α) → Prop :=
  Option.Rel fun r recent => r.seen + (publications recent).length = version

/-- The session is what its history tells, and still has its publisher. -/
structure Follows (initial : α) (s : Session α) (h : History α) : Prop where
  isOpen : s.channel.isOpen = true
  value_eq : s.channel.value = (publications h).headD initial
  version_eq : s.channel.version = (publications h).length
  lags : ∀ id, Lags s.channel.version (s.receiver? id) (since? id h)

theorem follows_start (initial : α) : Follows initial (start initial) [] where
  isOpen := rfl
  value_eq := rfl
  version_eq := rfl
  lags id := by
    by_cases h : id = 0
    · subst h
      exact .some rfl
    · have hr : (start initial).receiver? id = none := by
        unfold start receiver?
        rw [lookup_cons_eq_ite, if_neg h]
        rfl
      rw [hr, since?, if_neg h]
      exact .none

variable {initial : α} {s : Session α} {h : History α}

theorem lags_current (version : Nat) : Lags version (some ⟨version⟩) (some ([] : History α)) :=
  .some rfl

theorem Lags.cons_of_none {version : Nat} {r : Option Receiver} {recent : Option (History α)}
    (hl : Lags version r recent) {e : Request α × Reply α} (he : publication? e = none) :
    Lags version r (recent.map (e :: ·)) := by
  cases hl with
  | none => exact .none
  | some hl => exact .some (by rw [publications, List.filterMap_cons_none he]; exact hl)

theorem Lags.cons_of_some {version : Nat} {r : Option Receiver} {recent : Option (History α)}
    (hl : Lags version r recent) {e : Request α × Reply α} {value : α}
    (he : publication? e = some value) : Lags (version + 1) r (recent.map (e :: ·)) := by
  cases hl with
  | none => exact .none
  | some hl =>
      refine .some ?_
      rw [publications, List.filterMap_cons_some he, List.length_cons]
      exact congrArg (· + 1) hl

/-- An exchange that publishes nothing and leaves the channel as it was, with the receivers that
its outlook tells. -/
theorem Follows.of_receivers (hs : Follows initial s h) {e : Request α × Reply α}
    (he : publication? e = none) {t : Session α} (hc : t.channel = s.channel)
    (hr : ∀ id, Lags s.channel.version (t.receiver? id) (since? id (e :: h))) :
    Follows initial t (e :: h) := by
  have hp : publications (e :: h) = publications h := List.filterMap_cons_none he
  exact ⟨by rw [hc]; exact hs.isOpen, by rw [hc, hp]; exact hs.value_eq,
    by rw [hc, hp]; exact hs.version_eq, by rw [hc]; exact hr⟩

theorem Follows.of_unchanged (hs : Follows initial s h) {e : Request α × Reply α}
    (he : publication? e = none) (ho : ∀ id, outlook id e = .like id) :
    Follows initial s (e :: h) := by
  refine hs.of_receivers he rfl fun id => ?_
  rw [since?, ho]
  exact (hs.lags id).cons_of_none he

theorem Follows.of_current (hs : Follows initial s h) {e : Request α × Reply α}
    (he : publication? e = none) {id : Nat}
    (ho : ∀ other, outlook other e = if id = other then .current else .like other) :
    Follows initial (s.put id ⟨s.channel.version⟩) (e :: h) := by
  refine hs.of_receivers he rfl fun other => ?_
  rw [since?, ho, receiver?_put]
  by_cases hi : other = id
  · subst hi
    simp only [if_true]
    exact lags_current _
  · rw [if_neg hi, if_neg fun e => hi e.symm]
    exact (hs.lags other).cons_of_none he

theorem Follows.put_self (hs : Follows initial s h) {id : Nat} {r : Receiver}
    (hr : s.receiver? id = some r) : Follows initial (s.put id r) h := by
  refine ⟨hs.isOpen, hs.value_eq, hs.version_eq, fun other => ?_⟩
  rw [receiver?_put]
  split
  · rename_i hi
    rw [hi, ← hr]
    exact hs.lags id
  · exact hs.lags other

/-- One more request keeps a session what its history tells. -/
theorem Follows.step (hs : Follows initial s h) {request : Request α}
    (hq : request ≠ .dropPublisher) :
    Follows initial (s.step request).2 ((request, (s.step request).1) :: h) := by
  cases request with
  | publish value =>
      have hp : publications ((Request.publish value, Reply.published) :: h) =
          value :: publications h := rfl
      simp only [Session.step, hs.isOpen, if_true]
      refine ⟨hs.isOpen, rfl, ?_, fun id => ?_⟩
      · rw [hp, List.length_cons, ← hs.version_eq]
        rfl
      · exact (hs.lags id).cons_of_some rfl
  | subscribe newId =>
      simp only [Session.step, hs.isOpen, if_true]
      exact hs.of_current rfl fun other => rfl
  | clone original newId =>
      have hl := hs.lags original
      cases hr : s.receiver? original with
      | none =>
          simp only [Session.step, hr]
          exact hs.of_unchanged rfl fun other => rfl
      | some r =>
          simp only [Session.step, hr]
          rw [hr] at hl
          refine hs.of_receivers rfl rfl fun other => ?_
          rw [receiver?_put, since?, outlook]
          by_cases hi : other = newId
          · subst hi
            simp only [if_true]
            exact hl.cons_of_none rfl
          · rw [if_neg hi, if_neg fun e => hi e.symm]
            exact (hs.lags other).cons_of_none rfl
  | latest reader =>
      cases hr : s.receiver? reader with
      | none =>
          simp only [Session.step, withReceiver, hr]
          exact hs.of_unchanged rfl fun other => rfl
      | some r =>
          simp only [Session.step, withReceiver, hr]
          exact hs.of_current rfl fun other => rfl
  | hasNew reader =>
      cases hr : s.receiver? reader with
      | none =>
          simp only [Session.step, withReceiver, hr]
          exact hs.of_unchanged rfl fun other => rfl
      | some r =>
          simp only [Session.step, withReceiver, hr]
          exact (hs.put_self hr).of_unchanged rfl fun other => rfl
  | poll reader =>
      cases hr : s.receiver? reader with
      | none =>
          simp only [Session.step, withReceiver, hr]
          exact hs.of_unchanged rfl fun other => rfl
      | some r =>
          simp only [Session.step, withReceiver, hr, Channel.poll, hs.isOpen]
          by_cases hn : r.seen = s.channel.version
          · simp only [hn, ne_eq, not_true, if_false, if_true]
            exact (hs.put_self hr).of_unchanged rfl fun other => rfl
          · simp only [hn, ne_eq, not_false_eq_true, if_true]
            exact hs.of_current rfl fun other => rfl
  | dropReceiver dropped =>
      refine hs.of_receivers rfl rfl fun other => ?_
      rw [receiver?_drop, since?]
      by_cases hi : other = dropped
      · subst hi
        simp only [outlook, Session.step, if_true]
        exact .none
      · simp only [outlook, Session.step, if_neg hi, if_neg fun e => hi (Eq.symm e)]
        exact (hs.lags other).cons_of_none rfl
  | dropPublisher => exact absurd rfl hq

/-- A session is what its history tells while its publisher is there. -/
theorem follows_run (initial : α) (requests : List (Request α))
    (ho : .dropPublisher ∉ requests) :
    Follows initial ((start initial).run requests).2 ((start initial).history requests) := by
  induction requests using List.reverseRecOn with
  | nil => exact follows_start initial
  | append_singleton requests request ih =>
      rw [List.mem_append, List.mem_singleton, not_or] at ho
      rw [run_concat, history_concat]
      exact (ih ho.1).step fun e => ho.2 e.symm

/-! ### What a receiver gets -/

theorem Follows.exists_since (hs : Follows initial s h) {id : Nat} {r : Receiver}
    (hr : s.receiver? id = some r) : ∃ recent, since? id h = some recent ∧
      r.seen + (publications recent).length = s.channel.version := by
  have hl := hs.lags id
  rw [hr] at hl
  cases hn : since? id h with
  | none => rw [hn] at hl; cases hl
  | some recent =>
      rw [hn] at hl
      cases hl with
      | some hl => exact ⟨recent, rfl, hl⟩

theorem Follows.reply_latest (hs : Follows initial s h) {id : Nat} {r : Receiver}
    (hr : s.receiver? id = some r) :
    (s.step (.latest id)).1 = .value ((publications h).headD initial) := by
  simp only [Session.step, withReceiver, hr]
  exact congrArg Reply.value hs.value_eq

theorem seen_eq_iff {version : Nat} {r : Receiver} {recent : History α}
    (hl : r.seen + (publications recent).length = version) :
    r.seen = version ↔ publications recent = [] := by
  rw [← List.length_eq_zero_iff]
  omega

theorem Follows.reply_hasNew (hs : Follows initial s h) {id : Nat} {r : Receiver}
    (hr : s.receiver? id = some r) {recent : History α}
    (hl : r.seen + (publications recent).length = s.channel.version) :
    ∃ flag, (s.step (.hasNew id)).1 = .flag flag ∧ (flag = true ↔ publications recent ≠ []) := by
  refine ⟨s.channel.hasNew r, by simp only [Session.step, withReceiver, hr], ?_⟩
  simp only [Channel.hasNew, hs.isOpen, Bool.true_and, decide_eq_true_eq, ne_eq, seen_eq_iff hl]

theorem Follows.reply_poll (hs : Follows initial s h) {id : Nat} {r : Receiver}
    (hr : s.receiver? id = some r) {recent : History α}
    (hl : r.seen + (publications recent).length = s.channel.version) :
    ∃ result, (s.step (.poll id)).1 = .waiting result ∧
      (result = .changed ↔ publications recent ≠ []) := by
  refine ⟨(s.channel.poll r).1, by simp only [Session.step, withReceiver, hr], ?_⟩
  rw [ne_eq, ← seen_eq_iff hl]
  unfold Channel.poll
  by_cases hn : r.seen = s.channel.version
  · simp [hn, hs.isOpen]
  · simp [hn]

/-! ### What the others get -/

/-- Sessions with the same channel and receivers of the same numbers, which have seen the same but
for those in `kin`. -/
structure AgreeBut (kin : List Nat) (s t : Session α) : Prop where
  channel_eq : s.channel = t.channel
  isSome_eq : ∀ other, (s.receiver? other).isSome = (t.receiver? other).isSome
  receiver?_eq : ∀ other, other ∉ kin → s.receiver? other = t.receiver? other

/-- A clone of one of the receivers is one of them. -/
def kinAfter (kin : List Nat) : Request α → List Nat
  | .clone original newId => if original ∈ kin then newId :: kin else kin
  | _ => kin

namespace AgreeBut

variable {kin : List Nat} {t : Session α}

theorem mono (h : AgreeBut kin s t) (id : Nat) : AgreeBut (id :: kin) s t :=
  ⟨h.channel_eq, h.isSome_eq, fun other ho => h.receiver?_eq other fun hm =>
    ho (List.mem_cons_of_mem id hm)⟩

theorem put (h : AgreeBut kin s t) {i : Nat} {r r' : Receiver} (hr : i ∉ kin → r = r') :
    AgreeBut kin (s.put i r) (t.put i r') := by
  refine ⟨h.channel_eq, fun other => ?_, fun other ho => ?_⟩
  · rw [receiver?_put, receiver?_put]
    split
    · rfl
    · exact h.isSome_eq other
  · rw [receiver?_put, receiver?_put]
    split
    · rename_i hi
      rw [hr (hi ▸ ho)]
    · exact h.receiver?_eq other ho

/-- A receiver does the same in both; what comes of it may differ if its number is in `kin`. -/
theorem withReceiver (h : AgreeBut kin s t) (i : Nat) (f : Receiver → Reply α × Receiver) :
    AgreeBut kin (s.withReceiver i f).2 (t.withReceiver i f).2 ∧
      (i ∉ kin → (s.withReceiver i f).1 = (t.withReceiver i f).1) := by
  have hi := h.isSome_eq i
  have he := h.receiver?_eq i
  unfold Session.withReceiver
  cases hs : s.receiver? i with
  | none =>
      cases ht : t.receiver? i with
      | none => exact ⟨h, fun _ => rfl⟩
      | some r => rw [hs, ht] at hi; cases hi
  | some r =>
      cases ht : t.receiver? i with
      | none => rw [hs, ht] at hi; cases hi
      | some r' =>
          rw [hs, ht] at he
          refine ⟨h.put fun hn => ?_, fun hn => ?_⟩
          · rw [Option.some.inj (he hn)]
          · show (f r).1 = (f r').1
            rw [Option.some.inj (he hn)]

theorem withReceiver_self (s : Session α) (id : Nat) (f : Receiver → Reply α × Receiver) :
    AgreeBut [id] (s.withReceiver id f).2 s := by
  unfold Session.withReceiver
  cases hs : s.receiver? id with
  | none => exact ⟨rfl, fun _ => rfl, fun _ _ => rfl⟩
  | some r =>
      refine ⟨rfl, fun other => ?_, fun other ho => ?_⟩
      · rw [receiver?_put]
        split
        · rename_i hi
          rw [hi, hs]
          rfl
        · rfl
      · rw [receiver?_put, if_neg (List.ne_of_not_mem_cons ho)]

theorem read (s : Session α) {id : Nat} {request : Request α} (hr : request.reader? = some id) :
    AgreeBut [id] (s.step request).2 s := by
  cases request with
  | latest i => cases hr; exact withReceiver_self s _ _
  | hasNew i => cases hr; exact withReceiver_self s _ _
  | poll i => cases hr; exact withReceiver_self s _ _
  | _ => cases hr

/-- A request keeps the sessions in agreement, and unless it reads with a receiver in `kin`, the
reply is the same. -/
theorem step (h : AgreeBut kin s t) (request : Request α) :
    AgreeBut (kinAfter kin request) (s.step request).2 (t.step request).2 ∧
      ((∀ i, request.reader? = some i → i ∉ kin) → (s.step request).1 = (t.step request).1) := by
  obtain ⟨channel, receivers⟩ := s
  obtain ⟨channel', receivers'⟩ := t
  obtain rfl : channel = channel' := h.channel_eq
  cases request with
  | publish value =>
      simp only [Session.step]
      split
      · exact ⟨⟨rfl, h.isSome_eq, h.receiver?_eq⟩, fun _ => rfl⟩
      · exact ⟨h, fun _ => rfl⟩
  | subscribe newId =>
      simp only [Session.step]
      split
      · exact ⟨h.put fun _ => rfl, fun _ => rfl⟩
      · exact ⟨h, fun _ => rfl⟩
  | clone original newId =>
      have hi := h.isSome_eq original
      have he := h.receiver?_eq original
      simp only [Session.step, kinAfter]
      generalize Session.receiver? ⟨channel, receivers⟩ original = o at hi he
      generalize Session.receiver? ⟨channel, receivers'⟩ original = o' at hi he
      by_cases hk : original ∈ kin
      · rw [if_pos hk]
        cases o with
        | none =>
            cases o' with
            | none => exact ⟨h.mono newId, fun _ => rfl⟩
            | some r' => cases hi
        | some r =>
            cases o' with
            | none => cases hi
            | some r' =>
                exact ⟨(h.mono newId).put fun hn => absurd List.mem_cons_self hn, fun _ => rfl⟩
      · rw [if_neg hk]
        obtain rfl := he hk
        cases o with
        | none => exact ⟨h, fun _ => rfl⟩
        | some r => exact ⟨h.put fun _ => rfl, fun _ => rfl⟩
  | latest i => exact (h.withReceiver i _).imp_right fun hn hk => hn (hk i rfl)
  | hasNew i => exact (h.withReceiver i _).imp_right fun hn hk => hn (hk i rfl)
  | poll i => exact (h.withReceiver i _).imp_right fun hn hk => hn (hk i rfl)
  | dropReceiver dropped =>
      refine ⟨⟨rfl, fun other => ?_, fun other ho => ?_⟩, fun _ => rfl⟩
      · rw [receiver?_drop, receiver?_drop]
        split
        · rfl
        · exact h.isSome_eq other
      · rw [receiver?_drop, receiver?_drop, h.receiver?_eq other ho]
  | dropPublisher => exact ⟨⟨rfl, h.isSome_eq, h.receiver?_eq⟩, fun _ => rfl⟩

end AgreeBut

/-- The replies to all requests but the reads of the receivers in `kin`, and of those that are
cloned from them on the way. -/
def overheard (kin : List Nat) (s : Session α) : List (Request α) → List (Reply α)
  | [] => []
  | request :: requests =>
    let rest := overheard (kinAfter kin request) (s.step request).2 requests
    if ∀ i ∈ request.reader?, i ∉ kin then (s.step request).1 :: rest else rest

theorem AgreeBut.overheard_eq {kin : List Nat} {s t : Session α} (h : AgreeBut kin s t)
    (requests : List (Request α)) : overheard kin s requests = overheard kin t requests := by
  induction requests generalizing kin s t with
  | nil => rfl
  | cons request requests ih =>
      obtain ⟨hs, hr⟩ := h.step request
      rw [overheard, overheard, ih hs]
      split
      · rename_i hk
        rw [hr hk]
      · rfl

/-- What one receiver reads makes no difference to what all others hear later. -/
theorem overheard_after_read (s : Session α) {id : Nat} {read : Request α}
    (hr : read.reader? = some id) (later : List (Request α)) :
    overheard [id] (s.step read).2 later = overheard [id] s later :=
  (AgreeBut.read s hr).overheard_eq later

/-! ### The order of readings -/

theorem reading?_step (s : Session α) (id : Nat) (request : Request α) :
    reading? id (request, (s.step request).1) = none ∨
      reading? id (request, (s.step request).1) = some s.channel.value := by
  cases request with
  | latest reader =>
      simp only [Session.step, Session.withReceiver]
      cases s.receiver? reader with
      | none => exact .inl rfl
      | some r =>
          simp only [reading?, Channel.latest]
          split
          · exact .inr rfl
          · exact .inl rfl
  | _ => exact .inl rfl

/-- Latest first, ranks do not increase. -/
def InOrder (rank : α → ℕ) (values : List α) : Prop :=
  values.Pairwise fun later earlier => rank earlier ≤ rank later

variable {rank : α → ℕ}

theorem rank_value_le (hi : ∀ value, rank initial ≤ rank value)
    {e : Request α × Reply α} (hp : InOrder rank (publications (e :: h))) :
    rank ((publications h).headD initial) ≤ rank ((publications (e :: h)).headD initial) := by
  cases he : publication? e with
  | none =>
      apply Nat.le_of_eq
      rw [show publications (e :: h) = publications h from List.filterMap_cons_none he]
  | some value =>
      rw [show publications (e :: h) = value :: publications h from
        List.filterMap_cons_some he] at hp ⊢
      have hle := (List.pairwise_cons.mp hp).1
      cases hh : publications h with
      | nil => exact hi value
      | cons earlier rest =>
          rw [hh] at hle
          exact hle earlier List.mem_cons_self

/-- With publications in order, so are the readings of a receiver, and none is above the value, as
long as the value is the one that was published last. -/
theorem readings_inOrder_of_value (hi : ∀ value, rank initial ≤ rank value) (id : Nat)
    (requests : List (Request α))
    (hv : ∀ earlier, earlier <+: requests → ((start initial).run earlier).2.channel.value =
      (publications ((start initial).history earlier)).headD initial)
    (hp : InOrder rank (publications ((start initial).history requests))) :
    InOrder rank (readings id ((start initial).history requests)) ∧
      ∀ value ∈ readings id ((start initial).history requests),
        rank value ≤ rank ((publications ((start initial).history requests)).headD initial) := by
  induction requests using List.reverseRecOn with
  | nil => exact ⟨.nil, fun value hv => by cases hv⟩
  | append_singleton requests request ih =>
      have hprefix : requests <+: requests ++ [request] := List.prefix_append requests [request]
      have hvalue := hv requests hprefix
      specialize ih fun earlier he => hv earlier (he.trans hprefix)
      rw [history_concat] at hp ⊢
      generalize (start initial).history requests = h at hvalue hp ih ⊢
      generalize ((start initial).run requests).2 = s at hvalue hp ⊢
      have hle := rank_value_le hi hp
      have hearlier : InOrder rank (publications h) :=
        List.Pairwise.sublist (List.Sublist.filterMap _ (List.sublist_cons_self _ h)) hp
      obtain ⟨hr, hv⟩ := ih hearlier
      rcases reading?_step s id request with he | he
      · rw [readings, List.filterMap_cons_none he]
        exact ⟨hr, fun value hm => Nat.le_trans (hv value hm) hle⟩
      · rw [readings, List.filterMap_cons_some he, hvalue]
        refine ⟨List.pairwise_cons.mpr ⟨hv, hr⟩, fun value hm => ?_⟩
        rcases List.mem_cons.mp hm with rfl | hm
        · exact hle
        · exact Nat.le_trans (hv value hm) hle

/-- With publications in order, so are the readings of a receiver, and none is above the value. -/
theorem readings_inOrder (hi : ∀ value, rank initial ≤ rank value) (id : Nat)
    (requests : List (Request α)) (ho : .dropPublisher ∉ requests)
    (hp : InOrder rank (publications ((start initial).history requests))) :
    InOrder rank (readings id ((start initial).history requests)) ∧
      ∀ value ∈ readings id ((start initial).history requests),
        rank value ≤ rank ((publications ((start initial).history requests)).headD initial) :=
  readings_inOrder_of_value hi id requests
    (fun earlier he => (follows_run initial earlier fun hm => ho (he.subset hm)).value_eq) hp

/-! ### The law -/

/-- Latest first, the frame numbers do not increase. -/
def FramesInOrder : List Snapshot → Prop :=
  InOrder fun s => s.frame.toNat

/-- **The law of latest values.**  After any requests with the publisher there, reading gives every
receiver the value that was published last, or else the default snapshot; something is new to a
receiver, and waiting for a change ends at once, exactly when a value was published since it saw the
value last; whatever is done later, what one receiver reads makes no difference to any reply but to
its own; and when the published frame numbers do not decrease, neither do those that a receiver
gets. -/
theorem latest_value_law (requests : List (Request Snapshot)) (ho : .dropPublisher ∉ requests) :
    let s := ((start {}).run requests).2
    let h := (start {}).history requests
    (∀ id r, s.receiver? id = some r → ∃ recent, since? id h = some recent ∧
      (s.step (.latest id)).1 = .value ((publications h).headD {}) ∧
      (∃ flag, (s.step (.hasNew id)).1 = .flag flag ∧ (flag = true ↔ publications recent ≠ [])) ∧
      (∃ result, (s.step (.poll id)).1 = .waiting result ∧
        (result = .changed ↔ publications recent ≠ []))) ∧
    (∀ id read later, read.reader? = some id →
      overheard [id] (s.step read).2 later = overheard [id] s later) ∧
    (FramesInOrder (publications h) → ∀ id, FramesInOrder (readings id h)) := by
  intro s h
  have hs : Follows {} s h := follows_run {} requests ho
  refine ⟨fun id r hr => ?_, fun id read later hr => overheard_after_read s hr later,
    fun hp id => ?_⟩
  · obtain ⟨recent, hn, hl⟩ := hs.exists_since hr
    exact ⟨recent, hn, hs.reply_latest hr, hs.reply_hasNew hr hl, hs.reply_poll hr hl⟩
  · have hi (value : Snapshot) : ({} : Snapshot).frame.toNat ≤ value.frame.toNat := Nat.zero_le _
    exact (readings_inOrder hi id requests ho hp).1

/-- Receiver 2 is made from receiver 0, which has seen nothing, while receiver 1 subscribes later;
then a frame is published, which receiver 1 reads. -/
def threeReceivers : List (Request Snapshot) :=
  [.publish { frame := 7 }, .subscribe 1, .clone 0 2, .publish { frame := 9 }, .latest 1]

theorem latest_value_law_threeReceivers :
    let s := ((start {}).run threeReceivers).2
    (s.step (.hasNew 1)).1 = .flag false ∧ (s.step (.hasNew 2)).1 = .flag true ∧
      (∃ recent, since? 2 ((start {}).history threeReceivers) = some recent ∧
        (s.step (.latest 2)).1 =
          .value ((publications ((start {}).history threeReceivers)).headD {})) ∧
      overheard [1] (s.step (.latest 1)).2 [.clone 1 3, .hasNew 2, .latest 2] =
        overheard [1] s [.clone 1 3, .hasNew 2, .latest 2] ∧
      FramesInOrder (readings 1 ((start {}).history threeReceivers)) := by
  have ho : Request.dropPublisher ∉ threeReceivers := by simp [threeReceivers]
  obtain ⟨hr, hi, hf⟩ := latest_value_law threeReceivers ho
  obtain ⟨recent, hn, hl, -, -⟩ := hr 2 ⟨0⟩ rfl
  have hp : FramesInOrder (publications ((start {}).history threeReceivers)) :=
    List.pairwise_pair.mpr (by decide)
  exact ⟨rfl, rfl, ⟨recent, hn, hl⟩, hi 1 (.latest 1) _ rfl, hf hp 1⟩

end Session

end DriveOverlay
