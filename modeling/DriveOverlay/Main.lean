import DriveOverlay.Json.Printer
import DriveOverlay.Loop.Pipeline
import DriveOverlay.Loop.Report
import DriveOverlay.Replay.Recording
import DriveOverlay.Replay.Synthetic
import DriveOverlay.Settings.Reader
import DriveOverlay.Surface.Breakdown
import DriveOverlay.Surface.Digest

/-! # Command line

Replays a recording through the frame loop onto a canvas, in real time, and prints a report.  The
only argument is the file of the configuration; without that file the defaults hold, and without
the recording that it names a synthetic drive is shown. -/

namespace DriveOverlay

/-- The configuration that is looked for when none is named. -/
def defaultSettingsPath : String := "hud.yaml"

/-- The length of a synthetic drive in seconds. -/
def syntheticSeconds : Nat := 10

/-- The bytes of a file, if there is one. -/
def contents? (path : String) : IO (Option ByteArray) := do
  try
    return some (← IO.FS.readBinFile path)
  catch
    | .noFileOrDirectory .. => return none
    | e => throw e

/-- The configuration in a file, or the defaults. -/
def loadSettings (path : String) : IO Settings := do
  match ← contents? path with
  | none => return {}
  | some bytes => IO.ofExcept <|
    (Settings.load path (String.fromUTF8? bytes)).mapError SettingsError.message

/-- The recording that a configuration names, or a synthetic drive. -/
def loadSnapshots (s : Settings) : IO (List Snapshot) := do
  let path := s.replay.input
  match ← contents? path with
  | none => return Synthetic.drive ((max s.replay.frequency 1).toNat * syntheticSeconds)
  | some bytes => IO.ofExcept <|
    (Recording.read path (some bytes)).mapError RecordingError.message

/-- A run: the configuration, what is published, the camera image, and when it started. -/
structure Run where
  settings : Settings
  published : List Snapshot
  video : VideoFrame
  start : Nat

/-- Waits until a frame is due. -/
def Run.waitFor (r : Run) (index : Nat) : IO Unit := do
  let due := r.start + index * 1000000000 / r.settings.pacing.frequency.toNat
  let now ← IO.monoNanosNow
  IO.sleep (.ofNat ((due - now) / 1000000))

/-- Paints frame after frame until nothing is on air any more, or painting breaks down. -/
partial def Run.play (r : Run) (index : Nat) (p : Pipeline) (canvas : Canvas) :
    IO (Pipeline × Canvas) := do
  r.waitFor index
  let started ← IO.monoNanosNow
  match Recording.onAir? r.published r.settings.replay.frequency (started - r.start) with
  | none => return (p, canvas)
  | some s =>
    let (observation, p) := p.observe s
    let (report, canvas?) ← IO.lazyPure fun _ =>
      Overlay.render p.renderer (Pipeline.frame observation (some r.video) s) (some canvas)
    let some canvas := canvas? | throw (.userError "a drawing command broke down")
    let finished ← IO.monoNanosNow
    let (_, p) := p.settle report ⟨started⟩ ⟨finished⟩
    r.play (index + 1) p.drainEvents.2 canvas

/-- Replays what a configuration names. -/
def replay (path : String) : IO RunReport := do
  let settings ← loadSettings path
  let snapshots ← loadSnapshots settings
  let start ← IO.monoNanosNow
  let run : Run :=
    ⟨settings, Recording.published settings snapshots, Synthetic.videoFrame 1928 1208, start⟩
  let canvas := Canvas.filled settings.surface.width.toNat settings.surface.height.toNat
    (Palette.black 255)
  let (p, canvas) ← run.play 0 (.ofSettings settings) canvas
  let stop ← IO.monoNanosNow
  return ⟨p.counters, (UInt64.ofNat (stop - start)).toFloat / 1000000000, canvas.digest⟩

end DriveOverlay

/-- Prints the report of a run, or why there is none. -/
def main (arguments : List String) : IO UInt32 := do
  try
    let report ← DriveOverlay.replay (arguments.headD DriveOverlay.defaultSettingsPath)
    IO.println report.toJson.pretty
    return 0
  catch e =>
    IO.eprintln ("Error: " ++ toString e)
    return 1
