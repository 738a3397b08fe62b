import DriveOverlay.Scene.Codec
import DriveOverlay.Settings.Basic
import DriveOverlay.Text.Blank

/-! # Recordings

A recording is a text file with one snapshot in JSON to a line; blank lines are skipped.  Reading
it stops at the first line that is not UTF-8 or no snapshot, and tells its number, counting all
lines from 1.

`Recording.stamp` gives a snapshot what the replay decides: its number, and units and display
settings of the configuration. -/

namespace DriveOverlay

/-- Why a recording is not replayed. -/
inductive RecordingError where
  /-- The file cannot be opened. -/
  | missing (path : String)
  /-- A line is not UTF-8. -/
  | encoding
  /-- A line is no snapshot. -/
  | badSnapshot (path : String) (line : Nat)
deriving Repr, DecidableEq

/-- The wording of an error. -/
def RecordingError.message : RecordingError → String
  | .missing path => "opening replay " ++ path
  | .encoding => "stream did not contain valid UTF-8"
  | .badSnapshot path line => path ++ ":" ++ toString line ++ ": bad snapshot"

namespace Recording

/-! ### Lines -/

/-- A line, backwards, without a carriage return at its end. -/
def dropReturn : List UInt8 → List UInt8
  | 13 :: line => line
  | line => line

/-- Bytes up to each line feed, without a carriage return before it; what follows the last line
feed is a line if it is not empty.  The second argument is the beginning of a line, backwards. -/
def splitLines : List UInt8 → List UInt8 → List (List UInt8)
  | [], line => if line.isEmpty then [] else [line.reverse]
  | b :: bs, line =>
    if b = 10 then (dropReturn line).reverse :: splitLines bs [] else splitLines bs (b :: line)

/-- The text of a line. -/
def lineText? (line : List UInt8) : Option String :=
  String.fromUTF8? ⟨line.toArray⟩

/-- The snapshots of lines, the first of which has the given number. -/
def readLines (path : String) : Nat → List (List UInt8) → Except RecordingError (List Snapshot)
  | _, [] => .ok []
  | number, line :: lines =>
    match lineText? line with
    | none => .error .encoding
    | some text =>
      if Text.isAllBlank text then readLines path (number + 1) lines
      else
        match Snapshot.ofText? text with
        | none => .error (.badSnapshot path number)
        | some s => (readLines path (number + 1) lines).map (s :: ·)

/-- The snapshots of the file at a path, given its bytes, or nothing when it cannot be opened. -/
def read (path : String) (contents : Option ByteArray) : Except RecordingError (List Snapshot) :=
  match contents with
  | some bytes => readLines path 1 (splitLines bytes.toList [])
  | none => .error (.missing path)

/-! ### Replaying -/

/-- A snapshot of a recording as it is published: with its place in the recording and the units
and display settings of the configuration. -/
def stamp (settings : Settings) (index : Nat) (s : Snapshot) : Snapshot :=
  { s with
    frame := UInt64.ofNat index
    units := settings.units
    display := { s.display with settings := settings.display } }

/-- What is published of a recording, in order. -/
def published (settings : Settings) (snapshots : List Snapshot) : List Snapshot :=
  snapshots.mapIdx (stamp settings)

/-- What is on air so many nanoseconds after the first snapshot was published, at so many snapshots
per second; nothing once the last one has had its time. -/
def onAir? (published : List Snapshot) (frequency : UInt32) (elapsed : Nat) : Option Snapshot :=
  published[elapsed * (max frequency 1).toNat / 1000000000]?

end Recording

end DriveOverlay
