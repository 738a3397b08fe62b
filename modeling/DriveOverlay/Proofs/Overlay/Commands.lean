import DriveOverlay.Overlay.Frame
import DriveOverlay.Proofs.Surface.Corners

/-! # Which commands a painter gives

A painter changes a surface by the commands that it gives, and by nothing else.  `Gives allowed p`
says so: on two surfaces that answer alike to each command that is allowed, the painter `p` comes to
the same, and they answer alike after it.  Painters that are put together from such painters are such
painters (`Gives.bind`, `gives_inTurn`, `gives_each`).

Only the border clears the surface.  Each other element gives layers, commands that put something over
what is there and never break down, but for the camera image (`gives_element`); and so does the banner
(`gives_banner`). -/

namespace DriveOverlay

namespace Command

/-- The command goes through on every canvas, carried out or refused. -/
def IsSteady (command : Command) : Prop :=
  ∀ c : Canvas, c.attempt? command = some (c.draw command)

theorem isSteady_of_not_mayBreakDown {command : Command} (h : ¬command.MayBreakDown) :
    command.IsSteady :=
  Canvas.attempt?_of_steady h

theorem isSteady_blit {frame : VideoFrame}
    (h : frame.check = .ok () → frame.byteCount < 2 ^ 64) (dest clip : Rect) :
    (blit frame dest clip).IsSteady := by
  cases hf : frame.check with
  | ok => exact isSteady_of_not_mayBreakDown (not_le.mpr (h hf))
  | error e =>
      intro c
      have hfault : (blit frame dest clip).Fault (.badFrame e) :=
        .badFrame (VideoFrame.check_eq_error_iff.mp hf)
      rw [Canvas.attempt?_of_fault hfault, Canvas.draw, check_eq_error_iff.mpr hfault]

/-- A command that a frame with a given camera image, or with none, is painted with after the border:
it puts something over what is there, and it goes through unless it is the camera image. -/
inductive IsLayer (video : Option VideoFrame) : Command → Prop
  | steady {command : Command} (ho : command.isOver = true) (hs : command.IsSteady) :
      IsLayer video command
  | image {frame : VideoFrame} (hv : video = some frame) (dest clip : Rect) :
      IsLayer video (.blit frame dest clip)

variable {video : Option VideoFrame} {command : Command}

theorem IsLayer.isOver (h : command.IsLayer video) : command.isOver = true := by
  cases h with
  | steady ho _ => exact ho
  | image _ _ _ => rfl

theorem IsLayer.isSteady (h : command.IsLayer video)
    (hv : ∀ frame, video = some frame → frame.check = .ok () → frame.byteCount < 2 ^ 64) :
    command.IsSteady := by
  cases h with
  | steady _ hs => exact hs
  | image h dest clip => exact isSteady_blit (hv _ h) dest clip

end Command

namespace Painter

/-- Two surfaces in relation answer alike to the commands that are allowed, and stay in relation. -/
structure Alike {σ τ : Type} [Surface σ] [Surface τ] (allowed : Command → Prop)
    (R : σ → τ → Prop) : Prop where
  width_eq : ∀ {s t}, R s t → Surface.width s = Surface.width t
  height_eq : ∀ {s t}, R s t → Surface.height s = Surface.height t
  draw : ∀ {command}, allowed command → ∀ {s t}, R s t →
    (Surface.draw command s).1 = (Surface.draw command t).1 ∧
      R (Surface.draw command s).2 (Surface.draw command t).2

/-- The painter gives no command but those that are allowed. -/
structure Gives {α : Type} (allowed : Command → Prop)
    (p : ∀ {σ : Type} [Surface σ], Painter σ α) : Prop where
  /-- On surfaces that are alike the painter comes to the same. -/
  alike : ∀ {σ τ : Type} [Surface σ] [Surface τ] {R : σ → τ → Prop}, Alike allowed R →
    ∀ {s t}, R s t → (p s).1 = (p t).1 ∧ R (p s).2 (p t).2

variable {σ α β : Type} {allowed wider : Command → Prop}

theorem Gives.mono {p : ∀ {σ : Type} [Surface σ], Painter σ α} (hp : Gives allowed p)
    (h : ∀ command, allowed command → wider command) : Gives wider p :=
  ⟨fun hR => hp.alike ⟨hR.width_eq, hR.height_eq, fun hc => hR.draw (h _ hc)⟩⟩

theorem alike_of_keeps [Surface σ] {P : σ → Prop}
    (hP : ∀ command s, allowed command → P s → P (Surface.draw command s).2) :
    Alike allowed fun s t => s = t ∧ P s where
  width_eq h := congrArg Surface.width h.1
  height_eq h := congrArg Surface.height h.1
  draw := by
    rintro command hc s _ ⟨rfl, hs⟩
    exact ⟨rfl, rfl, hP command s hc hs⟩

theorem Gives.keeps [Surface σ] {p : ∀ {σ : Type} [Surface σ], Painter σ α}
    (hp : Gives allowed p) {P : σ → Prop}
    (hP : ∀ command s, allowed command → P s → P (Surface.draw command s).2) {s : σ} (hs : P s) :
    P (p s).2 :=
  (hp.alike (alike_of_keeps hP) ⟨rfl, hs⟩).2.2

/-! ### Painters put together -/

/-- The second painter starts where the first stopped, unless the first was refused something. -/
theorem bind_apply (p : Painter σ α) (f : α → Painter σ β) (s : σ) :
    (p >>= f) s = match p s with
      | (.ok a, s) => f a s
      | (.error e, s) => (.error e, s) := by
  show (match p s with | (a, s) => ExceptT.bindCont f a s) = _
  obtain ⟨_ | _, _⟩ := p s <;> rfl

theorem gives_pure (a : α) : Gives allowed (pure a) :=
  ⟨fun _ _ _ hs => ⟨rfl, hs⟩⟩

theorem Gives.bind {p : ∀ {σ : Type} [Surface σ], Painter σ α}
    {f : ∀ {σ : Type} [Surface σ], α → Painter σ β} (hp : Gives allowed p)
    (hf : ∀ a, Gives allowed (f a)) : Gives allowed (p >>= f) := by
  refine ⟨fun hR s t hs => ?_⟩
  obtain ⟨he, hR'⟩ := hp.alike hR hs
  rw [bind_apply, bind_apply]
  generalize p s = r at he hR'
  generalize p t = r' at he hR'
  obtain ⟨e, s'⟩ := r
  obtain ⟨e', t'⟩ := r'
  obtain rfl : e = e' := he
  cases e with
  | error e => exact ⟨rfl, hR'⟩
  | ok a => exact (hf a).alike hR hR'

theorem gives_draw {command : Command} (h : allowed command) : Gives allowed (draw command) :=
  ⟨fun hR _ _ hs => hR.draw h hs⟩

theorem Gives.ifThen {c : Prop} [Decidable c] {p : ∀ {σ : Type} [Surface σ], Painter σ Unit}
    {q : ∀ {σ : Type} [Surface σ], Painter σ α} (hp : Gives allowed p) (hq : Gives allowed q) :
    Gives allowed (if c then p >>= fun _ => q else q) := by
  split
  · exact hp.bind fun _ => hq
  · exact hq

theorem gives_width : Gives allowed width :=
  ⟨fun hR _ _ hs => ⟨congrArg Except.ok (hR.width_eq hs), hs⟩⟩

theorem gives_height : Gives allowed height :=
  ⟨fun hR _ _ hs => ⟨congrArg Except.ok (hR.height_eq hs), hs⟩⟩

theorem gives_bounds : Gives allowed bounds :=
  gives_width.bind fun _ => gives_height.bind fun _ => gives_pure _

theorem Gives.ignoringRefusal {p : ∀ {σ : Type} [Surface σ], Painter σ Unit}
    (hp : Gives allowed p) : Gives allowed p.ignoringRefusal :=
  ⟨fun hR _ _ hs => ⟨rfl, (hp.alike hR hs).2⟩⟩

end Painter

namespace Overlay

open Painter

variable {ι : Type} {allowed : Command → Prop}

theorem gives_inTurn (l : List ι) {f : ι → ∀ {σ : Type} [Surface σ], Painter σ Unit}
    (h : ∀ i ∈ l, Gives allowed (f i)) : Gives allowed (inTurn (l.map fun i => f i)) := by
  induction l with
  | nil => exact gives_pure ()
  | cons i l ih =>
      exact (h i List.mem_cons_self).bind fun _ => ih fun j hj => h j (List.mem_cons_of_mem i hj)

theorem gives_inTurn_mapIdx (l : List ι) {f : ℕ → ι → ∀ {σ : Type} [Surface σ], Painter σ Unit}
    (h : ∀ n i, Gives allowed (f n i)) : Gives allowed (inTurn (l.mapIdx fun n i => f n i)) := by
  simp only [List.mapIdx_eq_zipIdx_map]
  exact gives_inTurn _ fun i _ => h i.2 i.1

theorem gives_each (l : List ι) {f : ι → ∀ {σ : Type} [Surface σ], Painter σ Unit}
    (h : ∀ i ∈ l, Gives allowed (f i)) : Gives allowed (each (l.map fun i => f i)) := by
  induction l with
  | nil => exact gives_pure ()
  | cons i l ih =>
      exact (h i List.mem_cons_self).ignoringRefusal.bind fun _ =>
        ih fun j hj => h j (List.mem_cons_of_mem i hj)

/-! ### Single commands -/

section

variable {video : Option VideoFrame}

theorem gives_layer {command : Command} (ho : command.isOver = true) (hb : ¬command.MayBreakDown) :
    Gives (Command.IsLayer video) (draw command) :=
  gives_draw (.steady ho (Command.isSteady_of_not_mayBreakDown hb))

theorem isModerate_of_index_le {radius : Float32} (hn : radius.isNaN = false)
    (h : Single.index radius ≤ Single.index 8388608) : Edges.IsModerate radius :=
  ⟨hn, Single.value_wholeLimit ▸ Single.grid_strictMono.monotone h⟩

theorem gives_fillRoundedRect (rect : Rect) (color : Color) :
    Gives (Command.IsLayer video) (draw (.fillRoundedRect rect 20 color)) :=
  gives_layer rfl (Command.not_mayBreakDown_fillRoundedRect_of_moderate
    (isModerate_of_index_le (by decide) (by decide)))

theorem gives_strokeCruiseBox (rect : Rect) (color : Color) :
    Gives (Command.IsLayer video) (draw (.strokeRoundedRect rect 20 10 color)) :=
  gives_layer rfl (Command.not_mayBreakDown_strokeRoundedRect_of_moderate (z := 5)
    (Single.isWhole_ofInt (z := 5) (by norm_num)) (by decide)
    (isModerate_of_index_le (by decide) (by decide))
    (isModerate_of_index_le (by decide) (by decide)))

theorem gives_strokePanel (rect : Rect) (color : Color) :
    Gives (Command.IsLayer video) (draw (.strokeRoundedRect rect 20 6 color)) :=
  gives_layer rfl (Command.not_mayBreakDown_strokeRoundedRect_of_moderate (z := 3)
    (Single.isWhole_ofInt (z := 3) (by norm_num)) (by decide)
    (isModerate_of_index_le (by decide) (by decide))
    (isModerate_of_index_le (by decide) (by decide)))

/-! ### Road -/

theorem gives_fillMapped (t : CarTransform) (polygon : Polygon) (paint : Paint) :
    Gives (Command.IsLayer video) (fillMapped t polygon paint) := by
  unfold fillMapped
  split
  · exact gives_layer rfl id
  · exact gives_pure ()

theorem gives_lanes (s : Snapshot) (v : HudValues) (t : CarTransform) :
    Gives (Command.IsLayer video) (lanes s v t) := by
  unfold lanes
  split
  · exact gives_pure ()
  · exact gives_each _ fun m _ => gives_fillMapped t m.1 _

theorem gives_path (s : Snapshot) (v : HudValues) (t : CarTransform) :
    Gives (Command.IsLayer video) (path s v t) :=
  gives_height.bind fun _ => gives_fillMapped t s.path _

theorem gives_lead (t : CarTransform) (m : LeadMarker) :
    Gives (Command.IsLayer video) (lead t m) := by
  unfold lead
  split
  · exact gives_pure ()
  · exact gives_width.bind fun _ => gives_height.bind fun _ => (gives_layer rfl id).bind fun _ =>
      (gives_layer rfl id).bind fun _ => gives_layer rfl id

theorem gives_leads (v : HudValues) (t : CarTransform) :
    Gives (Command.IsLayer video) (leads v t) :=
  gives_each _ fun m _ => gives_lead t m

/-! ### Instruments -/

theorem gives_write (text : String) (x y size : Float32) (color : Color) :
    Gives (Command.IsLayer video) (write text x y size color) :=
  gives_layer rfl id

theorem gives_writeLeft (text : String) (x y size : Float32) (color : Color) :
    Gives (Command.IsLayer video) (writeLeft text x y size color) :=
  gives_layer rfl id

theorem gives_header (l : Layout) : Gives (Command.IsLayer video) (header l) :=
  gives_layer rfl id

theorem gives_cruiseBox (l : Layout) (v : HudValues) :
    Gives (Command.IsLayer video) (cruiseBox l v) :=
  .bind (gives_fillRoundedRect ..) fun _ => .bind (gives_strokeCruiseBox ..) fun _ =>
    .bind (gives_write ..) fun _ => gives_write ..

theorem gives_speed (l : Layout) (v : HudValues) : Gives (Command.IsLayer video) (speed l v) :=
  .ifThen (gives_cruiseBox l v) (.bind (gives_write ..) fun _ => gives_write ..)

theorem gives_wheelGlyph (icon : Rect) (angle : Float32) (color : Color) :
    Gives (Command.IsLayer video) (wheelGlyph icon angle color) :=
  .bind (gives_layer rfl id) fun _ => .bind (gives_layer rfl id) fun _ =>
    gives_inTurn _ fun _ _ => gives_layer rfl id

theorem gives_faceGlyph (icon : Rect) (color : Color) :
    Gives (Command.IsLayer video) (faceGlyph icon color) :=
  .bind (gives_layer rfl id) fun _ => gives_inTurn _ fun _ _ => gives_layer rfl id

theorem gives_icons (l : Layout) (s : Snapshot) (v : HudValues) :
    Gives (Command.IsLayer video) (icons l s v) :=
  .bind (gives_layer rfl id) fun _ => .bind (gives_wheelGlyph ..) fun _ =>
    .bind (gives_layer rfl id) fun _ => gives_faceGlyph ..

theorem gives_panelRow (anchor : Point) (row : PanelRow) :
    Gives (Command.IsLayer video) (panelRow anchor row) := by
  refine .bind (gives_write ..) fun _ => .bind (gives_write ..) fun _ => ?_
  split
  · exact gives_layer rfl id
  · exact gives_pure ()

theorem gives_panel (rect : Rect) (rows : List PanelRow) :
    Gives (Command.IsLayer video) (panel rect rows) :=
  .bind (gives_strokePanel ..) fun _ => gives_inTurn_mapIdx _ fun _ _ => gives_panelRow ..

theorem gives_sidePanels (l : Layout) (v : HudValues) :
    Gives (Command.IsLayer video) (sidePanels l v) := by
  refine .ifThen (gives_panel ..) ?_
  split
  · exact gives_panel ..
  · exact gives_pure ()

theorem gives_tuning (l : Layout) (mapSearch : Bool) (readout : TuningReadout) (color : Color) :
    Gives (Command.IsLayer video) (tuning l mapSearch readout color) :=
  .bind (gives_inTurn_mapIdx _ fun _ _ => gives_writeLeft ..) fun _ =>
    .bind (gives_inTurn_mapIdx _ fun _ _ => gives_writeLeft ..) fun _ => gives_write ..

theorem gives_debugText (l : Layout) (s : Snapshot) (v : HudValues) :
    Gives (Command.IsLayer video) (debugText l s v) := by
  unfold debugText
  split
  · exact gives_pure ()
  · refine .bind (gives_writeLeft ..) fun _ => .bind (gives_writeLeft ..) fun _ => ?_
    split
    · exact gives_tuning ..
    · exact gives_pure ()

theorem gives_tirePanel (l : Layout) (tires : TirePanel) (unit : PressureUnit) :
    Gives (Command.IsLayer video) (tirePanel l tires unit) :=
  .ifThen (gives_fillRoundedRect ..) <| .bind (gives_strokePanel ..) fun _ =>
    .bind (gives_write ..) fun _ => .bind (gives_write ..) fun _ =>
      .bind (gives_write ..) fun _ => .bind (gives_write ..) fun _ => gives_write ..

theorem gives_button (l : Layout) (d : Display) (b : Button) :
    Gives (Command.IsLayer video) (button l d b) := by
  unfold button
  dsimp only
  split
  on_goal 1 => refine .bind (gives_layer rfl id) fun _ => ?_
  all_goals
    refine .bind (gives_layer rfl id) fun _ => ?_
    split
    · exact gives_write ..
    · exact .bind (gives_write ..) fun _ => gives_write ..
    · exact gives_pure ()

theorem gives_buttons (l : Layout) (s : Snapshot) :
    Gives (Command.IsLayer video) (buttons l s) := by
  unfold buttons
  split
  · exact gives_pure ()
  · exact gives_inTurn _ fun b _ => gives_button ..

theorem gives_standstill (l : Layout) (s : Snapshot) (v : HudValues) :
    Gives (Command.IsLayer video) (standstill l s v) := by
  unfold standstill
  split
  · exact gives_pure ()
  · exact .bind (gives_write ..) fun _ => gives_write ..

theorem gives_writeLines (lines : List BannerLine) :
    Gives (Command.IsLayer video) (writeLines lines) := by
  induction lines with
  | nil => exact gives_pure ()
  | cons line lines ih => exact .bind (gives_layer rfl id) fun _ => ih

theorem gives_banner (l : Layout) (alert : Alert) (tint : Color) :
    Gives (Command.IsLayer video) (banner l alert tint) := by
  unfold banner
  split
  · exact gives_pure 0
  · exact .bind (gives_layer rfl id) fun _ => .bind (gives_layer rfl id) fun _ =>
      .bind (gives_writeLines _) fun _ => gives_pure _

end

/-! ### Frames -/

theorem render_of_elements {σ : Type} [Surface σ] {r : OverlayRenderer} {f f' : OverlayFrame}
    (hi : OverlayElement.isIn f = OverlayElement.isIn f')
    (he : ∀ e, (element r f e : Painter σ Unit) = element r f' e) (hu : f.update = f'.update)
    (surface : σ) : render r f surface = render r f' surface := by
  have hall : (elements r f : List (Painter σ Unit)) = elements r f' := by
    rw [elements, elements, hi]
    exact List.map_congr_left fun e _ => he e
  unfold render
  rw [hall, hu]

theorem gives_video (t : CarTransform) (frame : VideoFrame) :
    Gives (Command.IsLayer (some frame)) (video t frame) :=
  .bind gives_bounds fun _ => gives_draw (.image rfl _ _)

/-- Every element but the border gives layers. -/
theorem gives_element (r : OverlayRenderer) (f : OverlayFrame) {e : OverlayElement}
    (he : e ≠ .border) : Gives (Command.IsLayer f.video) (element r f e) := by
  cases e with
  | border => exact absurd rfl he
  | video =>
      cases hv : f.video with
      | none => simpa only [element, hv] using gives_pure ()
      | some frame => simpa only [element, hv] using gives_video r.transform frame
  | lanes => exact gives_lanes ..
  | path => exact gives_path ..
  | leads => exact gives_leads ..
  | header => exact gives_header ..
  | speed => exact gives_speed ..
  | icons => exact gives_icons ..
  | sidePanels => exact gives_sidePanels ..
  | debugText => exact gives_debugText ..
  | tirePanel =>
      cases ht : f.values.tires with
      | none => simpa only [element, ht] using gives_pure ()
      | some tires => simpa only [element, ht] using gives_tirePanel r.layout tires _
  | buttons => exact gives_buttons ..
  | standstill => exact gives_standstill ..

/-! ### Elements in turn -/

section

theorem fst_countingRefusals {σ : Type} (p : Painter σ Unit) (ps : List (Painter σ Unit)) (s : σ) :
    (countingRefusals (p :: ps) s).1 = match (p s).1 with
      | .ok _ => (countingRefusals ps (p s).2).1
      | .error _ => (countingRefusals ps (p s).2).1 + 1 :=
  rfl

theorem snd_countingRefusals {σ : Type} (p : Painter σ Unit) (ps : List (Painter σ Unit)) (s : σ) :
    (countingRefusals (p :: ps) s).2 = (countingRefusals ps (p s).2).2 :=
  rfl

theorem fst_render {σ : Type} [Surface σ] (r : OverlayRenderer) (f : OverlayFrame) (s : σ) :
    let below := countingRefusals (elements r f) s
    (render r f s).1 = match (banner r.layout f.update.alert f.update.tint below.2).1 with
      | .ok area => ⟨below.1, area⟩
      | .error _ => ⟨below.1 + 1, 0⟩ := by
  unfold render
  dsimp only
  split <;> simp_all

theorem snd_render {σ : Type} [Surface σ] (r : OverlayRenderer) (f : OverlayFrame) (s : σ) :
    (render r f s).2 = (banner r.layout f.update.alert f.update.tint
      (countingRefusals (elements r f) s).2).2 := by
  unfold render
  dsimp only
  split <;> simp_all

variable {σ τ : Type} [Surface σ] [Surface τ] {l : List ι}
  {f : ι → ∀ {σ : Type} [Surface σ], Painter σ Unit}

theorem alike_countingRefusals {R : σ → τ → Prop} (hR : Alike allowed R)
    (h : ∀ i ∈ l, Gives allowed (f i)) {s : σ} {t : τ} (hs : R s t) :
    (countingRefusals (l.map fun i => f i) s).1 = (countingRefusals (l.map fun i => f i) t).1 ∧
      R (countingRefusals (l.map fun i => f i) s).2
        (countingRefusals (l.map fun i => f i) t).2 := by
  induction l generalizing s t with
  | nil => exact ⟨rfl, hs⟩
  | cons i l ih =>
      obtain ⟨he, hs'⟩ := (h i List.mem_cons_self).alike hR hs
      obtain ⟨hcount, hrest⟩ := ih (fun j hj => h j (List.mem_cons_of_mem i hj)) hs'
      refine ⟨?_, hrest⟩
      simp only [List.map_cons, fst_countingRefusals, he, hcount]

theorem keeps_countingRefusals {P : σ → Prop} (h : ∀ i ∈ l, Gives allowed (f i))
    (hP : ∀ command s, allowed command → P s → P (Surface.draw command s).2) {s : σ} (hs : P s) :
    P (countingRefusals (l.map fun i => f i) s).2 :=
  (alike_countingRefusals (alike_of_keeps hP) h ⟨rfl, hs⟩).2.2

theorem alike_render {R : σ → τ → Prop} (hR : Alike allowed R) {r : OverlayRenderer}
    {f : OverlayFrame} (he : ∀ e, Gives allowed (element r f e))
    (hb : Gives allowed (banner r.layout f.update.alert f.update.tint)) {s : σ} {t : τ}
    (hs : R s t) : (render r f s).1 = (render r f t).1 ∧ R (render r f s).2 (render r f t).2 := by
  have hall : ∀ e ∈ OverlayElement.all.filter (OverlayElement.isIn f), Gives allowed (element r f e) :=
    fun e _ => he e
  obtain ⟨hcount, hs'⟩ := alike_countingRefusals hR hall hs
  obtain ⟨houtcome, hs''⟩ := hb.alike hR hs'
  constructor
  · rw [fst_render, fst_render]
    dsimp only [elements]
    rw [houtcome, hcount]
  · rw [snd_render, snd_render]
    exact hs''

end

end Overlay

end DriveOverlay
