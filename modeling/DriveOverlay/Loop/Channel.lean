/-! # Latest-value channels

One publisher hands its latest value to any number of receivers.  Every value has a version, and
each receiver remembers the version that it saw last; values in between are skipped.  A receiver
that subscribes has seen the current value, a clone what the receiver it was made from has seen.

Once the publisher is gone nothing counts as new any more, but the last value can still be read,
and waiting for a change still ends at once while it is unseen.

`Session` gives receivers numbers, so that whole histories can be run and stated. -/

namespace DriveOverlay

/-- A channel: its value, the version of that, and whether it has a publisher. -/
structure Channel (α : Type) where
  value : α
  version : Nat := 0
  isOpen : Bool := true

/-- A receiver: the version that it saw last. -/
structure Receiver where
  seen : Nat
deriving Repr, DecidableEq, Inhabited

/-- How waiting for a change ends. -/
inductive Waiting where
  /-- There is an unseen value. -/
  | changed
  /-- There may be one later. -/
  | pending
  /-- There will never be one. -/
  | closed
deriving Repr, DecidableEq, Inhabited

namespace Channel

variable {α : Type}

/-- Replaces the value. -/
def publish (c : Channel α) (value : α) : Channel α :=
  { c with value, version := c.version + 1 }

/-- The publisher goes away. -/
def close (c : Channel α) : Channel α :=
  { c with isOpen := false }

/-- A new receiver. -/
def subscribe (c : Channel α) : Receiver :=
  ⟨c.version⟩

/-- The value, which the receiver has seen then. -/
def latest (c : Channel α) (_ : Receiver) : α × Receiver :=
  (c.value, ⟨c.version⟩)

/-- There is a value that the receiver has not seen. -/
def hasNew (c : Channel α) (r : Receiver) : Bool :=
  c.isOpen && r.seen ≠ c.version

/-- Waits for a change without blocking; an unseen value counts as seen then. -/
def poll (c : Channel α) (r : Receiver) : Waiting × Receiver :=
  if r.seen ≠ c.version then (.changed, ⟨c.version⟩)
  else (if c.isOpen then .pending else .closed, r)

end Channel

/-! ### Sessions -/

/-- A channel and its receivers, each with its number. -/
structure Session (α : Type) where
  channel : Channel α
  receivers : List (Nat × Receiver)

/-- What can be done in a session. -/
inductive Request (α : Type) where
  | publish (value : α)
  | subscribe (id : Nat)
  | clone (id newId : Nat)
  | latest (id : Nat)
  | hasNew (id : Nat)
  | poll (id : Nat)
  | dropReceiver (id : Nat)
  | dropPublisher

/-- What comes of it. -/
inductive Reply (α : Type) where
  | published
  | subscribed
  | cloned
  | value (value : α)
  | flag (value : Bool)
  | waiting (result : Waiting)
  | dropped
  | noPublisher
  | noReceiver

namespace Session

variable {α : Type}

/-- A new channel with receiver number 0. -/
def start (value : α) : Session α :=
  let channel : Channel α := { value }
  ⟨channel, [(0, channel.subscribe)]⟩

/-- The receiver of a number. -/
def receiver? (s : Session α) (id : Nat) : Option Receiver :=
  s.receivers.lookup id

/-- Puts a receiver in the place of a number. -/
def put (s : Session α) (id : Nat) (r : Receiver) : Session α :=
  { s with receivers := (id, r) :: s.receivers.filter fun (other, _) => other ≠ id }

/-- What a receiver does: a reply, and how far it has seen then. -/
def withReceiver (s : Session α) (id : Nat) (f : Receiver → Reply α × Receiver) :
    Reply α × Session α :=
  match s.receiver? id with
  | none => (.noReceiver, s)
  | some r =>
    let (reply, r) := f r
    (reply, s.put id r)

/-- Carries out a request. -/
def step (s : Session α) : Request α → Reply α × Session α
  | .publish value =>
    if s.channel.isOpen then (.published, { s with channel := s.channel.publish value })
    else (.noPublisher, s)
  | .subscribe id =>
    if s.channel.isOpen then (.subscribed, s.put id s.channel.subscribe) else (.noPublisher, s)
  | .clone id newId =>
    match s.receiver? id with
    | some r => (.cloned, s.put newId r)
    | none => (.noReceiver, s)
  | .latest id => s.withReceiver id fun r =>
    let (value, r) := s.channel.latest r
    (.value value, r)
  | .hasNew id => s.withReceiver id fun r => (.flag (s.channel.hasNew r), r)
  | .poll id => s.withReceiver id fun r =>
    let (result, r) := s.channel.poll r
    (.waiting result, r)
  | .dropReceiver id =>
    (.dropped, { s with receivers := s.receivers.filter fun (other, _) => other ≠ id })
  | .dropPublisher => (.dropped, { s with channel := s.channel.close })

/-- Carries out requests in turn. -/
def run (s : Session α) : List (Request α) → List (Reply α) × Session α
  | [] => ([], s)
  | request :: requests =>
    let (reply, s) := s.step request
    let (replies, s) := s.run requests
    (reply :: replies, s)

end Session

end DriveOverlay
