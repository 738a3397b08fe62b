import DriveOverlay.Alerts.Machine
import DriveOverlay.Camera
import DriveOverlay.Color
import DriveOverlay.Digest.Sha256
import DriveOverlay.Double.Decimal
import DriveOverlay.Double.Shortest
import DriveOverlay.Geometry.Point
import DriveOverlay.Geometry.Rect
import DriveOverlay.Hud.Diagnostics
import DriveOverlay.Hud.Leads
import DriveOverlay.Hud.Panels
import DriveOverlay.Hud.Road
import DriveOverlay.Hud.Speed
import DriveOverlay.Hud.Values
import DriveOverlay.Json.Basic
import DriveOverlay.Json.Codec
import DriveOverlay.Json.Printer
import DriveOverlay.Json.Reader
import DriveOverlay.Layout
import DriveOverlay.Loop.Backlog
import DriveOverlay.Loop.Channel
import DriveOverlay.Loop.Counters
import DriveOverlay.Loop.Pacer
import DriveOverlay.Loop.Pipeline
import DriveOverlay.Loop.Report
import DriveOverlay.Main
import DriveOverlay.Overlay.Banner
import DriveOverlay.Overlay.Frame
import DriveOverlay.Overlay.Instruments
import DriveOverlay.Overlay.Road
import DriveOverlay.Powers
import DriveOverlay.Proofs.Alerts.Announcements
import DriveOverlay.Proofs.Alerts.Repaint
import DriveOverlay.Proofs.Alerts.Run
import DriveOverlay.Proofs.Alerts.Silence
import DriveOverlay.Proofs.Camera.Anchors
import DriveOverlay.Proofs.Camera.Perspective
import DriveOverlay.Proofs.Camera.Usability
import DriveOverlay.Proofs.Hud.Confidence
import DriveOverlay.Proofs.Hud.Leads
import DriveOverlay.Proofs.Hud.Limits
import DriveOverlay.Proofs.Hud.Throttle
import DriveOverlay.Proofs.Hud.Tires
import DriveOverlay.Proofs.Hud.Torque
import DriveOverlay.Proofs.Json.Records
import DriveOverlay.Proofs.Loop.Accounting
import DriveOverlay.Proofs.Loop.Agreement
import DriveOverlay.Proofs.Loop.Backlog
import DriveOverlay.Proofs.Loop.Delivery
import DriveOverlay.Proofs.Loop.LatestValue
import DriveOverlay.Proofs.Loop.Preview
import DriveOverlay.Proofs.Loop.Shutdown
import DriveOverlay.Proofs.Loop.Ticks
import DriveOverlay.Proofs.Loop.Touches
import DriveOverlay.Proofs.Overlay.Acceptance
import DriveOverlay.Proofs.Overlay.Backdrop
import DriveOverlay.Proofs.Overlay.Banner
import DriveOverlay.Proofs.Overlay.Boxes
import DriveOverlay.Proofs.Overlay.Chevrons
import DriveOverlay.Proofs.Overlay.Commands
import DriveOverlay.Proofs.Overlay.Completion
import DriveOverlay.Proofs.Overlay.Ghosting
import DriveOverlay.Proofs.Overlay.Isolation
import DriveOverlay.Proofs.Overlay.Markers
import DriveOverlay.Proofs.Overlay.Markings
import DriveOverlay.Proofs.Overlay.Stock
import DriveOverlay.Proofs.Replay.Broadcast
import DriveOverlay.Proofs.Replay.Drive
import DriveOverlay.Proofs.Replay.Reading
import DriveOverlay.Proofs.Scene.Roundtrip
import DriveOverlay.Proofs.Scene.Tables
import DriveOverlay.Proofs.Scene.Variants
import DriveOverlay.Proofs.Single.Accuracy
import DriveOverlay.Proofs.Single.Arithmetic
import DriveOverlay.Proofs.Single.Conversion
import DriveOverlay.Proofs.Single.Decode
import DriveOverlay.Proofs.Single.Division
import DriveOverlay.Proofs.Single.Grid
import DriveOverlay.Proofs.Single.Magnitude
import DriveOverlay.Proofs.Single.Order
import DriveOverlay.Proofs.Single.Overflow
import DriveOverlay.Proofs.Single.Rounding
import DriveOverlay.Proofs.Single.Trigonometry
import DriveOverlay.Proofs.Single.Whole
import DriveOverlay.Proofs.Surface.Blending
import DriveOverlay.Proofs.Surface.Corners
import DriveOverlay.Proofs.Surface.Crossings
import DriveOverlay.Proofs.Surface.EvenOdd
import DriveOverlay.Proofs.Surface.Extents
import DriveOverlay.Proofs.Surface.Faults
import DriveOverlay.Proofs.Surface.Gradients
import DriveOverlay.Proofs.Surface.Images
import DriveOverlay.Proofs.Surface.Integrity
import DriveOverlay.Proofs.Surface.Lettering
import DriveOverlay.Proofs.Surface.Outcomes
import DriveOverlay.Proofs.Surface.Rectangles
import DriveOverlay.Proofs.Surface.Rules
import DriveOverlay.Proofs.Surface.Scaling
import DriveOverlay.Proofs.Surface.Spans
import DriveOverlay.Proofs.Surface.Steps
import DriveOverlay.Proofs.Surface.Triangles
import DriveOverlay.Proofs.Text.Cells
import DriveOverlay.Proofs.Text.Words
import DriveOverlay.Proofs.Text.Wrapping
import DriveOverlay.Replay.Recording
import DriveOverlay.Replay.Synthetic
import DriveOverlay.Scene.Alert
import DriveOverlay.Scene.Codec
import DriveOverlay.Scene.Display
import DriveOverlay.Scene.Lead
import DriveOverlay.Scene.Snapshot
import DriveOverlay.Scene.Telemetry
import DriveOverlay.Scene.Vehicle
import DriveOverlay.Settings.Basic
import DriveOverlay.Settings.Reader
import DriveOverlay.Signed
import DriveOverlay.Single.Decimal
import DriveOverlay.Single.Rounding
import DriveOverlay.Single.Trigonometry
import DriveOverlay.Surface.Breakdown
import DriveOverlay.Surface.Canvas
import DriveOverlay.Surface.Canvas.Lemmas
import DriveOverlay.Surface.Command
import DriveOverlay.Surface.Digest
import DriveOverlay.Surface.Paint
import DriveOverlay.Surface.Raster
import DriveOverlay.Surface.Scanline
import DriveOverlay.Surface.Shapes
import DriveOverlay.Surface.VideoFrame
import DriveOverlay.Text.Blank
import DriveOverlay.Text.Cells
import DriveOverlay.Text.Font
import DriveOverlay.Text.Style
import DriveOverlay.Yaml.Basic
import DriveOverlay.Yaml.Character
import DriveOverlay.Yaml.Reader
import DriveOverlay.Yaml.Scalar
import DriveOverlay.Yaml.Token
