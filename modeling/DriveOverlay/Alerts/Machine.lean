import DriveOverlay.Color
import DriveOverlay.Scene.Snapshot

/-! # The alert on screen

Every frame the alert that comes in is compared, part by part, with the one on screen.

* A fresh control stream brings its own alert; without a size it counts as the empty alert.
* A stream that is stale once the start is over brings an alert made up here: the system waits for
  the controls, when they never answered, or does not hear from them any more, when the last
  message is too old.
* Otherwise nothing comes in, and the alert on screen stays.

An alert that differs from the one on screen replaces it.  It is announced unless it is empty or
the display is in preview.  The surface has the tint of the overall status, except that
unresponsive controls always show as critical.  The banner needs painting when the alert or the
tint has changed. -/

namespace DriveOverlay

/-! ### Tints -/

/-- The tint of a status. -/
def Status.tint : Status → Color
  | .disengaged => Palette.disengagedTint
  | .engaged => Palette.engagedTint
  | .warning => Palette.warningTint
  | .alert => Palette.alertTint

/-- The kind of the alert for controls that went silent. -/
def Alert.unresponsiveKind : String := "controlsUnresponsive"

/-- The kind of the alert for controls that never answered. -/
def Alert.waitingKind : String := "controlsWaiting"

/-- The tint behind an alert. -/
def Alert.tint (alert : Alert) (status : Status) : Color :=
  if alert.kind = Alert.unresponsiveKind then Status.alert.tint else status.tint

/-! ### Incoming alerts -/

/-- Shown while the controls have not answered since the start. -/
def Alert.waiting : Alert :=
  ⟨"openpilot Unavailable", "Waiting for controls to start", Alert.waitingKind, .mid⟩

/-- Shown once the controls have been silent for too long. -/
def Alert.unresponsive : Alert :=
  ⟨"TAKE CONTROL IMMEDIATELY", "Controls Unresponsive", Alert.unresponsiveKind, .full⟩

/-- An alert without a banner carries no text either. -/
def Alert.normalize (alert : Alert) : Alert :=
  if alert.size = .none then .empty else alert

/-- Seconds of silence after which controls count as unresponsive. -/
def silenceLimit : Float32 := 5

/-- Seconds after the start in which a stale stream is no reason for an alert. -/
def startGrace : UInt64 := 5

/-- The alert that a snapshot brings, at so many frames per second; `none` when the alert on
screen is to stay. -/
def Snapshot.incomingAlert? (s : Snapshot) (frequency : UInt32) : Option Alert :=
  let c := s.controls
  if c.updated then some s.alert.normalize
  else if startGrace * frequency.toUInt64 < c.framesSinceStart then
    if !c.seenSinceStart then some .waiting
    else if silenceLimit < c.secondsSinceUpdate then some .unresponsive
    else none
  else none

/-- The alert to show after `shown`, and whether it is another one. -/
def Snapshot.nextAlert (s : Snapshot) (shown : Alert) (frequency : UInt32) : Alert × Bool :=
  match s.incomingAlert? frequency with
  | some alert => (alert, alert ≠ shown)
  | none => (shown, false)

/-! ### The machine -/

/-- The alert and the tint on screen, and the frames per second. -/
structure AlertMachine where
  frequency : UInt32
  shown : Alert := .empty
  tint : Color := Status.disengaged.tint
deriving Repr, DecidableEq

/-- What one frame did to the alert. -/
structure AlertUpdate where
  alert : Alert
  tint : Color
  changed : Bool
  repaint : Bool
deriving Repr, DecidableEq

namespace AlertMachine

/-- Whether the alert of an update is announced. -/
def announces (s : Snapshot) (u : AlertUpdate) : Bool :=
  u.changed && !u.alert.isEmpty && !s.display.preview

/-- What a frame does to the alert. -/
def next (m : AlertMachine) (s : Snapshot) : AlertUpdate :=
  let (alert, changed) := s.nextAlert m.shown m.frequency
  let tint := alert.tint s.status
  ⟨alert, tint, changed, changed || tint ≠ m.tint⟩

/-- Goes on by one frame.  The last part of the result is the alert that is announced, if one
is. -/
def update (m : AlertMachine) (s : Snapshot) : AlertMachine × AlertUpdate × Option Alert :=
  let u := m.next s
  ({ m with shown := u.alert, tint := u.tint }, u, if announces s u then some u.alert else none)

/-- Back to the empty alert. -/
def reset (m : AlertMachine) : AlertMachine :=
  { frequency := m.frequency }

end AlertMachine

end DriveOverlay
