import DriveOverlay.Proofs.Overlay.Acceptance
import DriveOverlay.Proofs.Overlay.Chevrons
import DriveOverlay.Proofs.Surface.Extents

/-! # The nearest lead is on top

A marker is a glow, a chevron over it and a letter over both.  The chevron lets the glow through, and
nothing else, because it has no pixel outside the glow; glow and letter let nothing through.  So what
a marker leaves on its pixels does not depend on what was there, and the marker that is drawn last
looks as if it were the only one.

* `lead_apply`, `lead_refused`, `lead_painted`: what the painter of a marker does;
* `LeadMarker.Takes`, `LeadMarker.colorAt`: the pixels of a marker, and their colors;
* `Overwrites`, `overwrites_lead`: a marker hides what is below it;
* `foremost_law`: so that the first marker hides the others. -/

namespace DriveOverlay

open Single Scanline Canvas

namespace LeadMarker

open Overlay

/-! ### The pixels of a marker -/

/-- Where the tip of a marker goes on a surface of the given size, if the lead can be placed. -/
def tip? (m : LeadMarker) (t : CarTransform) (w h : ℕ) : Option Point :=
  (t.leadAnchor? m.lead).map fun anchor => leadTip anchor m.size (ofNat w) (ofNat h)

/-- Where the letter goes. -/
def letterPlace (m : LeadMarker) (tip : Point) : Point :=
  ⟨tip.x, tip.y + m.size * 1.25 / 2 + leadLabelSize / 2⟩

/-- How the letter is written. -/
def letterStyle (m : LeadMarker) : TextStyle :=
  { size := leadLabelSize, color := (leadColors m).2.2 }

def glowCommand (m : LeadMarker) (tip : Point) : Command :=
  .fillPolygon (glowShape tip.x tip.y m.size) (.solid (leadColors m).1)

def chevronCommand (m : LeadMarker) (tip : Point) : Command :=
  .fillPolygon (chevronShape tip.x tip.y m.size) (.solid (leadColors m).2.1)

def letterCommand (m : LeadMarker) (tip : Point) : Command :=
  .drawText m.source.label (m.letterPlace tip) m.letterStyle

/-- The pixel is in the glow or in the letter. -/
def Covers (m : LeadMarker) (tip : Point) (x y : ℕ) : Prop :=
  Odd (passed (glowShape tip.x tip.y m.size) x y) ∨
    Text.Lights m.source.label (m.letterPlace tip) m.letterStyle x y

/-- The pixel is one of the marker on a surface of the given size.  A marker has no pixels if its lead
cannot be placed, or if the place is NaN. -/
def Takes (m : LeadMarker) (t : CarTransform) (w h x y : ℕ) : Prop :=
  ∃ tip ∈ m.tip? t w h, tip.x.isFinite = true ∧ m.Covers tip x y

instance (m : LeadMarker) (tip : Point) (x y : ℕ) : Decidable (m.Covers tip x y) :=
  inferInstanceAs (Decidable (_ ∨ _))

instance (m : LeadMarker) (t : CarTransform) (w h x y : ℕ) : Decidable (m.Takes t w h x y) :=
  inferInstanceAs (Decidable (∃ tip ∈ m.tip? t w h, _))

/-- What the chevron and the letter make of the color of the glow. -/
def colorAt (m : LeadMarker) (tip : Point) (x y : ℕ) : Color :=
  (m.letterCommand tip).rule x y ((m.chevronCommand tip).rule x y (leadColors m).1)

theorem alpha_leadColors (m : LeadMarker) :
    (leadColors m).1.alpha = 255 ∧ (leadColors m).2.2.alpha = 255 := by
  unfold leadColors
  cases m.source with
  | radar => exact ⟨rfl, rfl⟩
  | vision => exact ⟨rfl, rfl⟩

theorem rule_of_covers {m : LeadMarker} {tip : Point} (h : Stands tip m.size) {x y : ℕ}
    (hx : x < 2 ^ 22) (hy : y < 2 ^ 22) (hc : m.Covers tip x y) (below : Color) :
    (m.letterCommand tip).rule x y
        ((m.chevronCommand tip).rule x y ((m.glowCommand tip).rule x y below)) =
      m.colorAt tip x y := by
  obtain ⟨hglow, hletter⟩ := m.alpha_leadColors
  unfold colorAt letterCommand
  rw [rule_drawText_of_full hletter, rule_drawText_of_full hletter]
  by_cases hl : Text.Lights m.source.label (m.letterPlace tip) m.letterStyle x y
  · rw [if_pos hl, if_pos hl]
  · have hodd := hc.resolve_right hl
    rw [if_neg hl, if_neg hl, glowCommand, rule_fillPolygon h.isBounded_glow _ hx hy, if_pos hodd,
      over_of_full hglow]

theorem rule_of_not_covers {m : LeadMarker} {tip : Point} (h : Stands tip m.size) {x y : ℕ}
    (hx : x < 2 ^ 22) (hy : y < 2 ^ 22) (hc : ¬m.Covers tip x y) (below : Color) :
    (m.letterCommand tip).rule x y
      ((m.chevronCommand tip).rule x y ((m.glowCommand tip).rule x y below)) = below := by
  obtain ⟨-, hletter⟩ := m.alpha_leadColors
  obtain ⟨hodd, hl⟩ := not_or.mp hc
  rw [letterCommand, rule_drawText_of_full hletter, if_neg hl, chevronCommand,
    rule_fillPolygon h.isBounded_chevron _ hx hy, if_neg (mt (h.glow_of_chevron hx hy) hodd),
    glowCommand, rule_fillPolygon h.isBounded_glow _ hx hy, if_neg hodd]

end LeadMarker

namespace Overlay

open LeadMarker Painter

variable {t : CarTransform} {m : LeadMarker} {w h : ℕ} {tip : Point} {c : Canvas}

/-! ### The painter of a marker -/

theorem lead_unplaced (hn : m.tip? t w h = none) (c : Canvas) : lead t m c = (.ok (), c) := by
  have ha : t.leadAnchor? m.lead = none := Option.map_eq_none_iff.mp hn
  unfold lead
  rw [ha]
  rfl

/-- A marker is a glow, a chevron and a letter. -/
theorem lead_apply (ht : m.tip? t w h = some tip) (hw : c.width = w) (hh : c.height = h) :
    lead t m c = (Painter.draw (m.glowCommand tip) >>= fun _ =>
      Painter.draw (m.chevronCommand tip) >>= fun _ => Painter.draw (m.letterCommand tip)) c := by
  obtain ⟨anchor, ha, rfl⟩ := Option.map_eq_some_iff.mp ht
  subst hw hh
  unfold lead glowCommand chevronCommand letterCommand letterStyle letterPlace
  rw [ha]
  refine (bind_apply Painter.width _ c).trans ?_
  refine (bind_apply Painter.height _ c).trans ?_
  cases leadColors m
  rfl

/-- A marker whose place is NaN is refused before anything is drawn. -/
theorem lead_refused (ht : m.tip? t w h = some tip) (hx : tip.x.isFinite = false)
    (hw : c.width = w) (hh : c.height = h) : (lead t m c).2 = c := by
  have hcheck : (m.glowCommand tip).check = .error .unboundedVertices := by
    simp [glowCommand, Command.check, glowShape, Point.isFinite, hx]
  rw [lead_apply ht hw hh, draw_bind_refused hcheck]

/-- Every other marker is drawn in full. -/
theorem lead_painted (ht : m.tip? t w h = some tip) (hs : Stands tip m.size)
    (hw : c.width = w) (hh : c.height = h) : lead t m c = (.ok (),
      ((c.paint (m.glowCommand tip)).paint (m.chevronCommand tip)).paint (m.letterCommand tip)) := by
  have hglow : (m.glowCommand tip).check = .ok () :=
    check_fillPolygon _ le_rfl hs.isBounded_glow
  have hchevron : (m.chevronCommand tip).check = .ok () :=
    check_fillPolygon _ le_rfl hs.isBounded_chevron
  have hletter : (m.letterCommand tip).check = .ok () :=
    check_drawText hs.x_isFinite hs.isFinite_letter
  rw [lead_apply ht hw hh, draw_bind hglow, draw_bind hchevron, draw_eq hletter]

/-- On canvases of one size the painter keeps the size, gives the pixels of an area their colors,
whatever they were before, and leaves the others. -/
structure Overwrites (w h : ℕ) (p : Painter Canvas Unit) (area : ℕ → ℕ → Prop)
    (color : ℕ → ℕ → Color) : Prop where
  size_eq : ∀ c : Canvas, c.width = w → c.height = h → (p c).2.width = w ∧ (p c).2.height = h
  get?_of_area : ∀ c : Canvas, c.width = w → c.height = h → ∀ x < w, ∀ y < h, area x y →
    (p c).2.get? x y = some (color x y)
  get?_of_not_area : ∀ c : Canvas, c.width = w → c.height = h → ∀ x < w, ∀ y < h, ¬area x y →
    (p c).2.get? x y = c.get? x y

theorem size_draw (command : Command) (c : Canvas) :
    (c.draw command).2.width = c.width ∧ (c.draw command).2.height = c.height :=
  ⟨(paints_draw command).width_eq c, (paints_draw command).height_eq c⟩

theorem size_lead (t : CarTransform) (m : LeadMarker) (hw : c.width = w) (hh : c.height = h) :
    (lead t m c).2.width = w ∧ (lead t m c).2.height = h := by
  have hp : Painter.Gives (Command.IsLayer none) (lead t m) := gives_lead t m
  refine hp.keeps (P := fun c : Canvas => c.width = w ∧ c.height = h) ?_ ⟨hw, hh⟩
  rintro command c - ⟨hw, hh⟩
  obtain ⟨hw', hh'⟩ := size_draw command c
  exact ⟨hw'.trans hw, hh'.trans hh⟩

theorem get?_lead (ht : m.tip? t w h = some tip) (hs : Stands tip m.size) (hw : c.width = w)
    (hh : c.height = h) (x y : ℕ) : (lead t m c).2.get? x y = (c.get? x y).map fun below =>
      (m.letterCommand tip).rule x y
        ((m.chevronCommand tip).rule x y ((m.glowCommand tip).rule x y below)) := by
  rw [lead_painted ht hs hw hh, (paints_paint (m.letterCommand tip)).get?_eq,
    (paints_paint (m.chevronCommand tip)).get?_eq, (paints_paint (m.glowCommand tip)).get?_eq,
    Option.map_map, Option.map_map]
  rfl

theorem overwrites_nothing {p : Painter Canvas Unit} {area : ℕ → ℕ → Prop}
    (hp : ∀ c : Canvas, c.width = w → c.height = h → (p c).2 = c) (ha : ∀ x y, ¬area x y)
    (color : ℕ → ℕ → Color) : Overwrites w h p area color where
  size_eq c hw hh := by
    rw [hp c hw hh]
    exact ⟨hw, hh⟩
  get?_of_area _ _ _ x _ y _ hxy := absurd hxy (ha x y)
  get?_of_not_area c hw hh _ _ _ _ _ := by rw [hp c hw hh]

/-- A marker with a tip that stands overwrites its pixels. -/
theorem overwrites_lead (hw : w ≤ 2 ^ 12) (hh : h ≤ 2 ^ 12) (ht : m.tip? t w h = some tip)
    (hs : Stands tip m.size) : Overwrites w h (lead t m) (m.Takes t w h) (m.colorAt tip) := by
  have htakes {x y : ℕ} : m.Takes t w h x y ↔ m.Covers tip x y := by
    simp [Takes, ht, hs.x_isFinite]
  refine ⟨fun c => size_lead t m, ?_, ?_⟩
  · intro c hcw hch x hx y hy hxy
    obtain ⟨below, hbelow⟩ := get?_eq_some (c := c) (hcw ▸ hx) (hch ▸ hy)
    rw [get?_lead ht hs hcw hch, hbelow, Option.map_some,
      rule_of_covers hs (by omega) (by omega) (htakes.mp hxy)]
  · intro c hcw hch x hx y hy hxy
    obtain ⟨below, hbelow⟩ := get?_eq_some (c := c) (hcw ▸ hx) (hch ▸ hy)
    rw [get?_lead ht hs hcw hch, hbelow, Option.map_some,
      rule_of_not_covers hs (by omega) (by omega) (mt htakes.mpr hxy)]

theorem isUsual_of_mem {s : Snapshot} (hm : m ∈ s.leadMarkers) : IsUsual m.size := by
  obtain ⟨l, -, rfl⟩ := List.mem_map.mp hm
  exact isUsual_sizeAt l.distance

theorem size_attempt_leads (t : CarTransform) (markers : List LeadMarker) (hw : c.width = w)
    (hh : c.height = h) : (attempt (markers.map (lead t)) c).width = w ∧
      (attempt (markers.map (lead t)) c).height = h := by
  induction markers generalizing c with
  | nil => exact ⟨hw, hh⟩
  | cons m markers ih =>
      obtain ⟨hw', hh'⟩ := size_lead t m hw hh
      exact ih hw' hh'

theorem leads_cons (v : HudValues) (t : CarTransform) {rest : List LeadMarker}
    (hv : v.leads = m :: rest) (c : Canvas) :
    (leads v t c).2 = (lead t m (attempt (rest.reverse.map (lead t)) c)).2 := by
  rw [leads_apply, hv, List.reverse_cons, List.map_append, attempt, List.foldl_append]
  rfl

/-- For any camera, any marker of a snapshot, and canvases of one size of at most 4096 by 4096 pixels:
the marker has a set of pixels, which it gives colors that do not depend on what was there, and it
leaves all other pixels; no pixel of its chevron is outside its glow; and the pixels of the first
marker look the same whether or not there are others. -/
theorem foremost_law (camera : CameraSettings) (tw th : UInt32) (hw : w ≤ 2 ^ 12) (hh : h ≤ 2 ^ 12)
    (s : Snapshot) (hm : m ∈ s.leadMarkers) :
    let t := CarTransform.ofSettings camera tw th
    (∃ color, Overwrites w h (lead t m) (m.Takes t w h) color) ∧
    (∀ tip ∈ m.tip? t w h, tip.x.isFinite = true → ∀ x < w, ∀ y < h,
      Odd (passed (chevronShape tip.x tip.y m.size) x y) →
      Odd (passed (glowShape tip.x tip.y m.size) x y)) ∧
    ∀ (v : HudValues) (rest : List LeadMarker), v.leads = m :: rest →
      ∀ c : Canvas, c.width = w → c.height = h → ∀ x < w, ∀ y < h, m.Takes t w h x y →
        (leads v t c).2.get? x y = (leads { v with leads := [m] } t c).2.get? x y := by
  intro t
  have hsize := isUsual_of_mem hm
  have hstands : ∀ tip ∈ m.tip? t w h, tip.x.isFinite = true → Stands tip m.size := by
    intro tip ht hx
    obtain ⟨anchor, ha, rfl⟩ := Option.map_eq_some_iff.mp ht
    exact stands_leadTip ha hsize hw hh hx
  have hover : ∃ color, Overwrites w h (lead t m) (m.Takes t w h) color := by
    cases ht : m.tip? t w h with
    | none =>
        refine ⟨_, overwrites_nothing ?_ ?_ fun _ _ => (leadColors m).1⟩
        · intro c _ _
          rw [lead_unplaced ht]
        · rintro x y ⟨tip, htip, -⟩
          rw [ht] at htip
          cases htip
    | some tip =>
        cases hx : tip.x.isFinite with
        | true => exact ⟨_, overwrites_lead hw hh ht (hstands tip ht hx)⟩
        | false =>
            refine ⟨_, overwrites_nothing ?_ ?_ fun _ _ => (leadColors m).1⟩
            · intro c
              exact lead_refused ht hx
            · rintro x y ⟨tip', htip, hx', -⟩
              obtain rfl : tip = tip' := Option.some.inj (ht.symm.trans htip)
              rw [hx] at hx'
              cases hx'
  refine ⟨hover, ?_, ?_⟩
  · intro tip ht hx i hi j hj hodd
    exact (hstands tip ht hx).glow_of_chevron (by omega) (by omega) hodd
  · intro v rest hv c hcw hch x hx y hy hxy
    obtain ⟨color, hp⟩ := hover
    obtain ⟨hw₁, hh₁⟩ := size_attempt_leads t rest.reverse hcw hch
    obtain ⟨hw₂, hh₂⟩ := size_attempt_leads t [] hcw hch
    rw [leads_cons v t hv, leads_cons { v with leads := [m] } t rfl,
      hp.get?_of_area _ hw₁ hh₁ x hx y hy hxy]
    exact (hp.get?_of_area _ hw₂ hh₂ x hx y hy hxy).symm

/-- A pixel in the chevron of the nearer one of two leads. -/
theorem foremost_law_twoLeads :
    let near : Lead := { distance := 20, valid := true }
    let far : Lead := { distance := 30, valid := true }
    let s : Snapshot := { leads := [near, far] }
    let first := LeadMarker.ofLead .vision near
    let second := LeadMarker.ofLead .vision far
    let t := CarTransform.ofSettings {} 2160 1080
    s.leadMarkers = [first, second] ∧ first.Takes t 2160 1080 1080 890 ∧
      ∀ (v : HudValues) (c : Canvas), v.leads = [first, second] → c.width = 2160 → c.height = 1080 →
        (leads v t c).2.get? 1080 890 = (leads { v with leads := [first] } t c).2.get? 1080 890 := by
  intro near far s first second t
  have hboth : s.leadMarkers = [first, second] := by
    have hnear : s.Marks near 0 := by decide +kernel
    have hfar : s.Marks far 1 := by decide +kernel
    rw [s.leadMarkers_eq]
    simp [s, List.zipIdx_cons, hnear, hfar, first, second, LeadSource.ofRadar]
  have htakes : first.Takes t 2160 1080 1080 890 := by decide +kernel
  obtain ⟨-, -, hsame⟩ := foremost_law (w := 2160) (h := 1080) (m := first) {} 2160 1080
    (by norm_num) (by norm_num) s (hboth ▸ List.mem_cons_self)
  refine ⟨hboth, htakes, ?_⟩
  intro v c hv hw hh
  exact hsame v [second] hv c hw hh 1080 (by norm_num) 890 (by norm_num) htakes

end Overlay

end DriveOverlay
