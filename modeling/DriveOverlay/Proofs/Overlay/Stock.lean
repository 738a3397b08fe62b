import DriveOverlay.Proofs.Overlay.Commands
import DriveOverlay.Surface.Raster

/-! # The stock display

On the stock display nothing that is derived or drawn depends on diagnostics.
`Snapshot.withoutDiagnostics` is a snapshot without them: no telemetry of the device and the tires,
no live parameters, map data, longitudinal control or debug text, nothing of the controller's
output, and no display mode that only buttons, panels and debug text look at.

* `derive_withoutDiagnostics`: the display values are those of the snapshot without diagnostics;
* `element_withoutDiagnostics`: so is every element of a frame, as the stock display has no tire
  panel;
* `stock_display_law`: snapshots that are equal without diagnostics look the same. -/

namespace DriveOverlay

namespace Snapshot

/-- The snapshot with everything that is a diagnostic at rest. -/
def withoutDiagnostics (s : Snapshot) : Snapshot :=
  { s with
    frame := 0
    device := {}
    liveParameters := {}
    mapData := {}
    longitudinal := {}
    debugText := ("", "")
    steering := { s.steering with overridden := false, output := 0, limit := 0 }
    display := { s.display with
      recording := false
      mapRunning := false
      settings := { s.display.settings with debugLevel := 0, laneMode := .auto, pressureUnit := .psi } } }

variable {s : Snapshot}

/-! ### Display values -/

theorem pathStyle_of_stock (h : s.isStock = true) :
    s.pathStyle = ⟨Palette.white 150, Palette.white 20⟩ := by
  rw [pathStyle, h, Bool.not_true, Bool.and_false, if_neg Bool.false_ne_true]

theorem tires_of_stock (h : s.isStock = true) (onScreen : AlertSize) (held : HeldFlags) :
    (s.hudValues onScreen held).tires = none := by
  rw [hudValues, h]
  rfl

theorem hudValues_withoutDiagnostics (h : s.isStock = true) (onScreen : AlertSize)
    (held : HeldFlags) :
    s.withoutDiagnostics.hudValues onScreen held = s.hudValues onScreen held := by
  have h' : s.withoutDiagnostics.isStock = true := h
  simp only [hudValues, h, h', pathStyle_of_stock, if_true, Bool.not_true, Bool.false_and,
    Bool.false_eq_true, if_false]
  rfl

end Snapshot

/-- The deriver holds the same flags and gives the same values. -/
theorem HudDeriver.derive_withoutDiagnostics (d : HudDeriver) {s : Snapshot}
    (h : s.isStock = true) (onScreen : Alert) :
    d.derive s.withoutDiagnostics onScreen = d.derive s onScreen := by
  have hl : d.look s.withoutDiagnostics = d.look s := rfl
  rw [derive, derive, hl, Snapshot.hudValues_withoutDiagnostics h]

namespace OverlayFrame

/-- The frame of the snapshot without diagnostics. -/
def withoutDiagnostics (f : OverlayFrame) : OverlayFrame :=
  { f with snapshot := f.snapshot.withoutDiagnostics }

end OverlayFrame

namespace Overlay

variable {σ : Type} [Surface σ]

/-! ### Frames -/

/-- Every element is that of the snapshot without diagnostics. -/
theorem element_withoutDiagnostics (r : OverlayRenderer) {f : OverlayFrame}
    (h : f.snapshot.isStock = true) (ht : f.values.tires = none) (e : OverlayElement) :
    (element r f.withoutDiagnostics e : Painter σ Unit) = element r f e := by
  have h' : f.withoutDiagnostics.snapshot.isStock = true := h
  cases e with
  | debugText =>
      simp only [element, debugText, h, h', Bool.true_or, if_true]
  | buttons => simp only [element, buttons, h, h', if_true]
  | tirePanel =>
      have ht' : f.withoutDiagnostics.values.tires = none := ht
      simp only [element, ht, ht']
  | _ => rfl

theorem render_withoutDiagnostics (r : OverlayRenderer) {f : OverlayFrame}
    (h : f.snapshot.isStock = true) (ht : f.values.tires = none) (surface : σ) :
    render r f.withoutDiagnostics surface = render r f surface := by
  have hi : OverlayElement.isIn f.withoutDiagnostics = OverlayElement.isIn f := by
    funext e
    cases e <;> rfl
  exact render_of_elements hi (element_withoutDiagnostics r h ht) rfl surface

/-- Snapshots that are equal without diagnostics look the same on the stock display: the deriver
goes on alike and gives the same values, and with them the same frame is painted. -/
theorem stock_display_law (d : HudDeriver) (onScreen : Alert) (r : OverlayRenderer)
    (video : Option VideoFrame) (update : AlertUpdate) (surface : σ) {s s' : Snapshot}
    (hs : s.isStock = true) (hs' : s'.isStock = true)
    (h : s.withoutDiagnostics = s'.withoutDiagnostics) :
    d.derive s onScreen = d.derive s' onScreen ∧
      render r ⟨video, s, (d.derive s onScreen).2, update⟩ surface =
        render r ⟨video, s', (d.derive s' onScreen).2, update⟩ surface := by
  have hd : d.derive s onScreen = d.derive s' onScreen := by
    rw [← d.derive_withoutDiagnostics hs, ← d.derive_withoutDiagnostics hs', h]
  refine ⟨hd, ?_⟩
  rw [hd]
  generalize hv : (d.derive s' onScreen).2 = values
  have ht : values.tires = none := by
    rw [← hv]
    exact Snapshot.tires_of_stock hs' _ _
  have hr := render_withoutDiagnostics r (f := ⟨video, s, values, update⟩) hs ht surface
  have hr' := render_withoutDiagnostics r (f := ⟨video, s', values, update⟩) hs' ht surface
  rw [← hr, ← hr', OverlayFrame.withoutDiagnostics, OverlayFrame.withoutDiagnostics, h]

/-- A stock display with nothing to diagnose. -/
def quietStock : Snapshot :=
  { controls := { enabled := true }, display := { settings := { stock := true } } }

/-- The same with a hot device, a flat tire, debug text and a driver who steers. -/
def noisyStock : Snapshot :=
  { quietStock with
    frame := 7
    device := { cpuTemperature := 95, tirePressures := ⟨10, 36, 36, 36⟩ }
    debugText := ("debug", "text")
    steering := { overridden := true, output := 1, limit := 2 }
    display := {
      settings := { stock := true, debugLevel := 2, laneMode := .less, pressureUnit := .bar }
      recording := true
      mapRunning := true } }

/-- Nothing of this shows. -/
theorem stock_display_law_noisyStock :
    quietStock.frame ≠ noisyStock.frame ∧ quietStock.debugText ≠ noisyStock.debugText ∧
      quietStock.display ≠ noisyStock.display ∧
      (HudDeriver.every 10).derive quietStock .empty =
        (HudDeriver.every 10).derive noisyStock .empty ∧
      render (.ofSettings {}) ⟨none, quietStock,
          ((HudDeriver.every 10).derive quietStock .empty).2,
          ⟨.empty, Status.engaged.tint, false, true⟩⟩ (Canvas.filled 3 2 (Palette.white 0)) =
        render (.ofSettings {}) ⟨none, noisyStock,
          ((HudDeriver.every 10).derive noisyStock .empty).2,
          ⟨.empty, Status.engaged.tint, false, true⟩⟩ (Canvas.filled 3 2 (Palette.white 0)) :=
  ⟨by decide, by decide, by decide,
    stock_display_law (HudDeriver.every 10) .empty (.ofSettings {}) none
      ⟨.empty, Status.engaged.tint, false, true⟩ (Canvas.filled 3 2 (Palette.white 0))
      rfl rfl rfl⟩

end Overlay

end DriveOverlay
