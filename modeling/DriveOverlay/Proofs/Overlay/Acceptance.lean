import DriveOverlay.Proofs.Overlay.Completion
import DriveOverlay.Proofs.Overlay.Isolation
import DriveOverlay.Proofs.Single.Trigonometry

/-! # What a canvas never refuses

A canvas refuses the commands that make no sense and no others.  Whatever the telemetry is, no
element of a frame gives such a command, but for a lead marker, whose refusal goes no further, and
for a camera image with a fault.

* `IsAccepted p`: the painter `p` is refused nothing, on whatever canvas;
* `isAccepted_fillMapped`: polygons of the telemetry are looked at before they are filled;
* `all_isFinite_spoke`, `isFinite_of_mem_bannerLines`: everything else is at a place that is finite
  for any input;
* `render_uncountable`: a camera image that is not refused, and of which the frame breaks down;
* `acceptance_law`: a frame fails in its camera image, if anywhere, and then as if it had none. -/

namespace DriveOverlay

open Single (Within within_ofInt within_ofNat)

/-! ### Lines of text -/

namespace Text

theorem within_lineHeight (size : Float32) : Within 36 (lineHeight size) := by
  have hround := Single.toInt32_mem (Single.round (size / Single.ofNat Font.height))
  refine Single.within_ofInt_of_le (d := 36) ?_ (by norm_num)
  unfold glyphScale
  change (_ * (20 : ℤ)).natAbs ≤ _
  split <;> omega

end Text

namespace Painter

variable {α β : Type}

/-- A canvas refuses the painter nothing. -/
structure IsAccepted (p : Painter Canvas α) : Prop where
  result : ∀ c, ∃ a c', p c = (.ok a, c')

/-! ### Painters put together -/

theorem isAccepted_pure (a : α) : IsAccepted (pure a) :=
  ⟨fun c => ⟨a, c, rfl⟩⟩

theorem IsAccepted.bind {p : Painter Canvas α} {f : α → Painter Canvas β} (hp : IsAccepted p)
    (hf : ∀ a, IsAccepted (f a)) : IsAccepted (p >>= f) := by
  refine ⟨fun c => ?_⟩
  obtain ⟨a, c', h⟩ := hp.result c
  rw [bind_apply, h]
  exact (hf a).result c'

theorem draw_eq {command : Command} (h : command.check = .ok ()) (c : Canvas) :
    draw command c = (.ok (), c.paint command) :=
  Canvas.draw_of_check h c

theorem draw_bind {command : Command} (h : command.check = .ok ()) (f : Unit → Painter Canvas α)
    (c : Canvas) : (draw command >>= f) c = f () (c.paint command) := by
  rw [bind_apply, draw_eq h]

theorem draw_bind_refused {command : Command} {e : DrawError} (h : command.check = .error e)
    (f : Unit → Painter Canvas α) (c : Canvas) : (draw command >>= f) c = (.error e, c) := by
  have hd : draw command c = (.error e, c) := by
    change c.draw command = _
    rw [Canvas.draw, h]
  rw [bind_apply, hd]

theorem isAccepted_draw {command : Command} (h : command.check = .ok ()) :
    IsAccepted (draw command) :=
  ⟨fun c => ⟨(), c.paint command, draw_eq h c⟩⟩

theorem isAccepted_height : IsAccepted height :=
  ⟨fun c => ⟨c.height, c, rfl⟩⟩

theorem isAccepted_bounds : IsAccepted bounds :=
  ⟨fun c => ⟨c.bounds, c, rfl⟩⟩

theorem IsAccepted.ifThen {b : Prop} [Decidable b] {p : Painter Canvas Unit} {q : Painter Canvas α}
    (hp : IsAccepted p) (hq : IsAccepted q) :
    IsAccepted (if b then p >>= fun _ => q else q) := by
  split
  · exact hp.bind fun _ => hq
  · exact hq

theorem check_drawText {text : String} {anchor : Point} {style : TextStyle}
    (hx : anchor.x.isFinite = true) (hy : anchor.y.isFinite = true) :
    (Command.drawText text anchor style).check = .ok () := by
  rw [Command.check, Point.isFinite, hx, hy]
  exact if_neg (by simp)

theorem isAccepted_drawText {text : String} {anchor : Point} {style : TextStyle}
    (hx : anchor.x.isFinite = true) (hy : anchor.y.isFinite = true) :
    IsAccepted (draw (.drawText text anchor style)) :=
  isAccepted_draw (check_drawText hx hy)

theorem isAccepted_fillPolygon {polygon : Polygon} {paint : Paint} (hlen : 3 ≤ polygon.length)
    (hall : polygon.all Point.isFinite = true) :
    IsAccepted (draw (.fillPolygon polygon paint)) := by
  refine isAccepted_draw ?_
  rw [Command.check, if_neg (by omega), hall]
  rfl

end Painter

namespace Overlay

open Canvas Painter

theorem isAccepted_inTurn {ps : List (Painter Canvas Unit)} (h : ∀ p ∈ ps, IsAccepted p) :
    IsAccepted (inTurn ps) := by
  induction ps with
  | nil => exact isAccepted_pure ()
  | cons p ps ih =>
      exact (h p List.mem_cons_self).bind fun _ => ih fun q hq => h q (List.mem_cons_of_mem p hq)

/-! ### Road -/

theorem check_of_isDrawable {polygon : Polygon} (h : polygon.isDrawable = true) (paint : Paint) :
    (Command.fillPolygon polygon paint).check = .ok () := by
  unfold Polygon.isDrawable at h
  simp only [Bool.and_eq_true, decide_eq_true_eq] at h
  rw [Command.check, if_neg (by omega), h.1.2]
  rfl

/-- A polygon is filled only if it can be drawn. -/
theorem isAccepted_fillMapped (t : CarTransform) (polygon : Polygon) (paint : Paint) :
    IsAccepted (fillMapped t polygon paint) := by
  unfold fillMapped
  split
  · rename_i mapped h
    exact isAccepted_draw (check_of_isDrawable (Option.filter_eq_some_iff.mp h).2 paint)
  · exact isAccepted_pure ()

theorem isAccepted_path (s : Snapshot) (v : HudValues) (t : CarTransform) :
    IsAccepted (path s v t) :=
  isAccepted_height.bind fun _ => isAccepted_fillMapped t s.path _

theorem isAccepted_lanes (s : Snapshot) (v : HudValues) (t : CarTransform) :
    IsAccepted (lanes s v t) :=
  ⟨fun c => ⟨(), _, lanes_apply s v t c⟩⟩

theorem isAccepted_leads (v : HudValues) (t : CarTransform) : IsAccepted (leads v t) :=
  ⟨fun c => ⟨(), _, leads_apply v t c⟩⟩

/-! ### Instruments -/

theorem isAccepted_write {text : String} {x y size : Float32} {color : Color}
    (hx : x.isFinite = true) (hy : y.isFinite = true) : IsAccepted (write text x y size color) :=
  isAccepted_drawText hx hy

theorem isAccepted_writeLeft {text : String} {x y size : Float32} {color : Color}
    (hx : x.isFinite = true) (hy : y.isFinite = true) :
    IsAccepted (writeLeft text x y size color) :=
  isAccepted_drawText hx hy

theorem isAccepted_header (l : Layout) : IsAccepted (header l) :=
  isAccepted_draw rfl

theorem isAccepted_cruiseBox (l : Layout) (v : HudValues) : IsAccepted (cruiseBox l v) :=
  .bind (isAccepted_draw rfl) fun _ => .bind (isAccepted_draw rfl) fun _ =>
    .bind (isAccepted_write (within_ofInt _).isFinite (within_ofInt _).isFinite) fun _ =>
      isAccepted_write (within_ofInt _).isFinite (within_ofInt _).isFinite

theorem isAccepted_speed (l : Layout) (v : HudValues) : IsAccepted (speed l v) :=
  .ifThen (isAccepted_cruiseBox l v) <|
    .bind (isAccepted_write (within_ofInt _).isFinite rfl) fun _ =>
      isAccepted_write (within_ofInt _).isFinite rfl

/-- A spoke of a finite direction is finite. -/
theorem all_isFinite_spoke {cx cy inner outer halfWidth degrees : Float32}
    (hcx : Within 64 cx) (hcy : Within 64 cy) (hi : Within 6 inner) (ho : Within 6 outer)
    (hw : Within 6 halfWidth) (hd : degrees.isFinite = true) :
    (spoke cx cy inner outer halfWidth degrees).all Point.isFinite = true := by
  have ha := Single.isFinite_toRadians hd
  have hsin := Single.within_sin ha
  have hcos := Single.within_cos ha
  have place {along across : Float32} (hl : Within 6 along) (hc : Within 6 across) :
      (⟨cx + along * Single.cos (Single.toRadians degrees) -
          across * Single.sin (Single.toRadians degrees),
        cy + along * Single.sin (Single.toRadians degrees) +
          across * Single.cos (Single.toRadians degrees)⟩ : Point).isFinite = true := by
    have hlc := hl.mul hcos (by norm_num) (by norm_num)
    have hls := hl.mul hsin (by norm_num) (by norm_num)
    have hcs := hc.mul hsin (by norm_num) (by norm_num)
    have hcc := hc.mul hcos (by norm_num) (by norm_num)
    have hx := ((hcx.mono (by norm_num)).add hlc (by norm_num)).sub (hcs.mono (by norm_num))
      (by norm_num)
    have hy := ((hcy.mono (by norm_num)).add hls (by norm_num)).add (hcc.mono (by norm_num))
      (by norm_num)
    rw [Point.isFinite, hx.isFinite, hy.isFinite]
    rfl
  have hw' := hw.neg (by norm_num)
  unfold spoke
  simp only [List.all_cons, List.all_nil, Bool.and_true]
  rw [place hi hw', place ho hw', place ho hw, place hi hw]
  rfl

theorem isAccepted_wheelGlyph {icon : Rect} (hw : icon.w = Layout.iconSize) (angle : Float32)
    (color : Color) : IsAccepted (wheelGlyph icon angle color) := by
  have hturn : (if angle.isFinite then -angle else 0 : Float32).isFinite = true := by
    split
    · rename_i h
      rwa [Single.isFinite_neg]
    · rfl
  refine .bind (isAccepted_draw rfl) fun _ => .bind (isAccepted_draw rfl) fun _ =>
    isAccepted_inTurn fun p hp => ?_
  obtain ⟨base, hb, rfl⟩ := List.mem_map.mp hp
  have hbase : Within 100 base := by
    simp only [List.mem_cons, List.not_mem_nil, or_false] at hb
    rcases hb with rfl | rfl | rfl <;> decide
  have hinner : Within 6 (Single.ofInt (icon.w.tdiv 9) / 2) := by
    rw [hw]
    decide
  have houter : Within 6 (Single.ofInt ((icon.w * 5).tdiv 9) / 2) := by
    rw [hw]
    decide
  have hturned := Single.isFinite_add_of_small hbase hturn
  exact isAccepted_fillPolygon (by simp [spoke])
    (all_isFinite_spoke (within_ofInt _) (within_ofInt _) hinner houter (by decide) hturned)

theorem isAccepted_faceGlyph (icon : Rect) (color : Color) : IsAccepted (faceGlyph icon color) := by
  refine .bind (isAccepted_draw rfl) fun _ => isAccepted_inTurn fun p hp => ?_
  obtain ⟨dx, -, rfl⟩ := List.mem_map.mp hp
  exact isAccepted_draw rfl

theorem isAccepted_icons (l : Layout) (s : Snapshot) (v : HudValues) : IsAccepted (icons l s v) :=
  .bind (isAccepted_draw rfl) fun _ => .bind (isAccepted_wheelGlyph rfl _ _) fun _ =>
    .bind (isAccepted_draw rfl) fun _ => isAccepted_faceGlyph _ _

theorem isAccepted_panelRow {x y : Float32} (hx : Within 64 x) (hy : Within 64 y)
    (row : PanelRow) : IsAccepted (panelRow ⟨x, y⟩ row) := by
  refine .bind (isAccepted_write hx.isFinite hy.isFinite) fun _ =>
    .bind (isAccepted_write hx.isFinite (hy.add (by decide) (by norm_num)).isFinite) fun _ => ?_
  split
  · exact isAccepted_drawText (hx.add (by decide) (by norm_num)).isFinite
      (hy.add (by decide) (by norm_num)).isFinite
  · exact isAccepted_pure ()

theorem isAccepted_panel (rect : Rect) (rows : List PanelRow) : IsAccepted (panel rect rows) := by
  refine .bind (isAccepted_draw rfl) fun _ => isAccepted_inTurn fun p hp => ?_
  obtain ⟨i, hi, rfl⟩ := List.mem_mapIdx.mp hp
  unfold Layout.rowAnchor
  exact isAccepted_panelRow (within_ofInt _) (within_ofInt _) _

theorem isAccepted_sidePanels (l : Layout) (v : HudValues) : IsAccepted (sidePanels l v) := by
  refine .ifThen (isAccepted_panel ..) ?_
  split
  · exact isAccepted_panel ..
  · exact isAccepted_pure ()

theorem isAccepted_tuning (l : Layout) (mapSearch : Bool) (readout : TuningReadout)
    (color : Color) : IsAccepted (tuning l mapSearch readout color) := by
  have column {x size : Float32} (hx : x.isFinite = true) (y : ℤ) (lines : List String) :
      IsAccepted (inTurn (lines.mapIdx fun i line =>
        writeLeft line x (Single.ofInt y + 40 * Single.ofNat i) size color)) := by
    refine isAccepted_inTurn fun p hp => ?_
    obtain ⟨i, hi, rfl⟩ := List.mem_mapIdx.mp hp
    have hpitch := (by decide : Within 6 (40 : Float32)).mul (within_ofNat i) (by norm_num)
      (by norm_num)
    exact isAccepted_writeLeft hx
      (((within_ofInt y).mono (by norm_num)).add hpitch (by norm_num)).isFinite
  have hmap : Within 64 (if mapSearch then 150 else 200 : Float32) := by
    cases mapSearch <;> decide
  exact .bind (column (within_ofInt _).isFinite _ _) fun _ =>
    .bind (column ((within_ofInt _).add hmap (by norm_num)).isFinite _ _) fun _ =>
      isAccepted_write (within_ofInt _).isFinite (within_ofInt _).isFinite

theorem isAccepted_debugText (l : Layout) (s : Snapshot) (v : HudValues) :
    IsAccepted (debugText l s v) := by
  have line {text : String} {up nudge size : Float32} {color : Color} (hu : Within 64 up)
      (hn : Within 66 nudge) : IsAccepted (writeLeft text 205
        (Single.ofInt l.height - up - Single.ofInt Layout.border + nudge) size color) := by
    have hbase := ((within_ofInt l.height).sub hu (by norm_num)).sub
      ((within_ofInt Layout.border).mono (by norm_num)) (by norm_num)
    exact isAccepted_writeLeft rfl (hbase.add hn (by norm_num)).isFinite
  have hnudge (high : Float32) (h : Within 66 high) :
      Within 66 (if s.display.mapSearch then high else 0) := by
    split
    · exact h
    · decide
  unfold debugText
  split
  · exact isAccepted_pure ()
  · refine .bind (line (by decide) (hnudge 15 (by decide))) fun _ =>
      .bind (line (by decide) (hnudge 5 (by decide))) fun _ => ?_
    split
    · exact isAccepted_tuning ..
    · exact isAccepted_pure ()

theorem isAccepted_tirePanel (l : Layout) (tires : TirePanel) (unit : PressureUnit) :
    IsAccepted (tirePanel l tires unit) := by
  have reading {ox oy : Float32} (hx : Within 64 ox) (hy : Within 64 oy) (r : TireReading)
      (size : Float32) : IsAccepted (write r.text
        (Single.ofInt l.tirePanel.centerX + ox) (Single.ofInt (l.tirePanel.y + 20) + oy) size
        (tireColor r.level)) :=
    isAccepted_write ((within_ofInt _).add hx (by norm_num)).isFinite
      ((within_ofInt _).add hy (by norm_num)).isFinite
  refine .ifThen (isAccepted_draw rfl) <| .bind (isAccepted_draw rfl) fun _ =>
    .bind (isAccepted_write (within_ofInt _).isFinite
      ((within_ofInt _).add (by decide) (by norm_num)).isFinite) fun _ => ?_
  cases unit <;>
    exact .bind (reading (by decide) (by decide) _ _) fun _ =>
      .bind (reading (by decide) (by decide) _ _) fun _ =>
        .bind (reading (by decide) (by decide) _ _) fun _ =>
          reading (by decide) (by decide) _ _

theorem isAccepted_button (l : Layout) (d : Display) (b : Button) : IsAccepted (button l d b) := by
  have line {text : String} {y size : Float32} {color : Color} (hy : Within 67 y) :
      IsAccepted (write text (Single.ofInt (l.button b).centerX) (centeredBaseline y size) size
        color) := by
    have hnudge := (by decide : Within 3 (5 : Float32)).mul
      (within_ofInt (Text.glyphScale size)) (by norm_num) (by norm_num)
    exact isAccepted_write (within_ofInt _).isFinite (hy.add hnudge (by norm_num)).isFinite
  have hy := within_ofInt (l.button b).centerY
  unfold button
  dsimp only
  split
  on_goal 1 => refine .bind (isAccepted_draw rfl) fun _ => ?_
  all_goals
    refine .bind (isAccepted_draw rfl) fun _ => ?_
    split
    · exact line (hy.mono (by norm_num))
    · have hup := (hy.sub (by decide : Within 64 (20 : Float32)) (by norm_num)).mono
        (by norm_num : (65 : ℤ) ≤ 67)
      have hdown := (hy.add (by decide : Within 64 (20 : Float32)) (by norm_num)).mono
        (by norm_num : (65 : ℤ) ≤ 67)
      exact .bind (line hup) fun _ => line hdown
    · exact isAccepted_pure ()

theorem isAccepted_buttons (l : Layout) (s : Snapshot) : IsAccepted (buttons l s) := by
  unfold buttons
  split
  · exact isAccepted_pure ()
  · refine isAccepted_inTurn fun p hp => ?_
    obtain ⟨b, -, rfl⟩ := List.mem_map.mp hp
    exact isAccepted_button ..

theorem isAccepted_standstill (l : Layout) (s : Snapshot) (v : HudValues) :
    IsAccepted (standstill l s v) := by
  unfold standstill
  split
  · exact isAccepted_pure ()
  · exact .bind (isAccepted_write (within_ofInt _).isFinite (within_ofInt _).isFinite) fun _ =>
      isAccepted_write (within_ofInt _).isFinite (within_ofInt _).isFinite

/-! ### Frames -/

theorem isAccepted_border (tint : Color) : IsAccepted (border tint) :=
  isAccepted_bounds.bind fun _ => .bind (isAccepted_draw rfl) fun _ => isAccepted_draw rfl

theorem isAccepted_video (t : CarTransform) {frame : VideoFrame} (h : frame.check = .ok ()) :
    IsAccepted (video t frame) :=
  isAccepted_bounds.bind fun _ => isAccepted_draw (by rw [Command.check, h]; rfl)

theorem video_of_fault (t : CarTransform) {frame : VideoFrame} {e : FrameError}
    (h : frame.check = .error e) (c : Canvas) : video t frame c = (.error (.badFrame e), c) := by
  change Canvas.draw (.blit frame (videoRect t frame) _) c = _
  rw [Canvas.draw, Command.check, h]
  rfl

theorem isFinite_of_mem_stacked {lines : List String} {size centerX top : Float32}
    (hx : centerX.isFinite = true) (ht : Within 66 top) {line : BannerLine}
    (hl : line ∈ stacked lines size centerX top) :
    line.anchor.x.isFinite = true ∧ line.anchor.y.isFinite = true := by
  obtain ⟨i, hi, rfl⟩ := List.mem_mapIdx.mp hl
  have hpitch := Text.within_lineHeight size
  have hbase := (by decide : Within 0 (0.75 : Float32)).mul hpitch (by norm_num) (by norm_num)
  have hdown := (within_ofNat i).mul hpitch (by norm_num) (by norm_num)
  have hy := (ht.add (hbase.mono (by norm_num)) (by norm_num)).mono
    (by norm_num : (67 : ℤ) ≤ 100)
  exact ⟨hx, (hy.add hdown (by norm_num)).isFinite⟩

theorem isFinite_of_mem_bannerLines {alert : Alert} {rect : Rect} {line : BannerLine}
    (hl : line ∈ bannerLines alert rect) :
    line.anchor.x.isFinite = true ∧ line.anchor.y.isFinite = true := by
  have hx := (within_ofInt rect.centerX).isFinite
  have hy := within_ofInt rect.centerY
  have one {text : String} {size top : Float32} (ht : Within 66 top)
      (hl : line ∈ oneLine text size (Single.ofInt rect.centerX) top) :
      line.anchor.x.isFinite = true ∧ line.anchor.y.isFinite = true := by
    unfold oneLine at hl
    split at hl
    · cases hl
    · exact isFinite_of_mem_stacked hx ht hl
  unfold bannerLines at hl
  dsimp only at hl
  split at hl
  · cases hl
  · have hup : Within 64 (Text.lineHeight 74 / 2) := by decide +kernel
    exact one ((hy.sub hup (by norm_num)).mono (by norm_num)) hl
  · rcases List.mem_append.mp hl with hl | hl
    · exact one ((hy.sub (by decide) (by norm_num)).mono (by norm_num)) hl
    · exact one ((hy.add (by decide) (by norm_num)).mono (by norm_num)) hl
  · have htop := within_ofInt rect.y
    have hh := within_ofInt rect.h
    have full {size down up : Float32} (hd : Within 64 down) (hu : Within 64 up)
        (hl : line ∈ wrapped alert.title size (Single.ofInt rect.centerX)
            (Single.ofInt rect.y + down) rect.w ++
          wrapped alert.subtitle 88 (Single.ofInt rect.centerX)
            (Single.upper (Single.ofInt rect.h - up) (Single.ofInt rect.y)) rect.w) :
        line.anchor.x.isFinite = true ∧ line.anchor.y.isFinite = true := by
      rcases List.mem_append.mp hl with hl | hl
      · exact isFinite_of_mem_stacked hx ((htop.add hd (by norm_num)).mono (by norm_num)) hl
      · have hsub := (hh.sub hu (by norm_num)).upper (htop.mono (by norm_num))
        exact isFinite_of_mem_stacked hx (hsub.mono (by norm_num)) hl
    split at hl
    · exact full (by decide) (by decide) hl
    · exact full (by decide) (by decide) hl

theorem isAccepted_writeLines {lines : List BannerLine}
    (h : ∀ line ∈ lines, line.anchor.x.isFinite = true ∧ line.anchor.y.isFinite = true) :
    IsAccepted (writeLines lines) := by
  induction lines with
  | nil => exact isAccepted_pure ()
  | cons line lines ih =>
      obtain ⟨hx, hy⟩ := h line List.mem_cons_self
      exact .bind (isAccepted_drawText hx hy) fun _ =>
        ih fun other ho => h other (List.mem_cons_of_mem line ho)

theorem isAccepted_banner (l : Layout) (alert : Alert) (tint : Color) :
    IsAccepted (banner l alert tint) := by
  unfold banner
  split
  · exact isAccepted_pure 0
  · exact .bind (isAccepted_draw rfl) fun _ => .bind (isAccepted_draw rfl) fun _ =>
      .bind (isAccepted_writeLines fun _ => isFinite_of_mem_bannerLines) fun _ => isAccepted_pure _

/-! ### Whole frames -/

theorem isAccepted_of_mem_aboveVideo (r : OverlayRenderer) (f : OverlayFrame)
    {p : Painter Canvas Unit} (h : p ∈ aboveVideo r f) : IsAccepted p := by
  simp only [aboveVideo, List.mem_append, List.mem_cons, List.mem_map, List.not_mem_nil,
    or_false] at h
  rcases h with ((rfl | rfl | rfl | rfl | rfl | rfl | rfl | rfl) | ⟨tires, -, rfl⟩) | rfl | rfl
  · exact isAccepted_lanes ..
  · exact isAccepted_path ..
  · exact isAccepted_leads ..
  · exact isAccepted_header ..
  · exact isAccepted_speed ..
  · exact isAccepted_icons ..
  · exact isAccepted_sidePanels ..
  · exact isAccepted_debugText ..
  · exact isAccepted_tirePanel ..
  · exact isAccepted_buttons ..
  · exact isAccepted_standstill ..

theorem countP_outcomes_eq_zero {ps : List (Painter Canvas Unit)} (h : ∀ p ∈ ps, IsAccepted p)
    (c : Canvas) : (outcomes ps c).countP (!·.isOk) = 0 := by
  induction ps generalizing c with
  | nil => rfl
  | cons p ps ih =>
      obtain ⟨a, c', hp⟩ := (h p List.mem_cons_self).result c
      rw [outcomes, hp, List.countP_cons_of_neg Bool.false_ne_true]
      exact ih (fun q hq => h q (List.mem_cons_of_mem p hq)) c'

theorem failedElements_eq_zero {r : OverlayRenderer} {f : OverlayFrame}
    (h : ∀ p ∈ below r f, IsAccepted p) (c : Canvas) : (render r f c).1.failedElements = 0 := by
  obtain ⟨area, c', ht⟩ := (isAccepted_banner r.layout f.update.alert f.update.tint).result
    (attempt (below r f) c)
  rw [render_eq, ht]
  exact countP_outcomes_eq_zero h c

/-- A camera image with a fault is the one failure, and leaves no trace in the rest of the frame. -/
theorem render_of_fault (r : OverlayRenderer) (s : Snapshot) (v : HudValues) (u : AlertUpdate)
    {frame : VideoFrame} {e : FrameError} (h : frame.check = .error e) (c : Canvas) :
    render r ⟨some frame, s, v, u⟩ c =
      (⟨1, (render r ⟨none, s, v, u⟩ c).1.bannerArea⟩, (render r ⟨none, s, v, u⟩ c).2) := by
  have hattempt : attempt (below r ⟨some frame, s, v, u⟩) c =
      attempt (below r ⟨none, s, v, u⟩) c := by
    change attempt (aboveVideo r _) (video r.transform frame (border u.tint c).2).2 = _
    rw [video_of_fault r.transform h]
    rfl
  have hcount : (outcomes (below r ⟨some frame, s, v, u⟩) c).countP (!·.isOk) = 1 := by
    obtain ⟨a, c', hb⟩ := (isAccepted_border u.tint).result c
    change ((border u.tint c).1 :: (video r.transform frame (border u.tint c).2).1 ::
      outcomes (aboveVideo r _) (video r.transform frame (border u.tint c).2).2).countP _ = 1
    rw [hb, video_of_fault r.transform h, List.countP_cons_of_neg Bool.false_ne_true,
      List.countP_cons_of_pos rfl,
      countP_outcomes_eq_zero fun _ => isAccepted_of_mem_aboveVideo r ⟨some frame, s, v, u⟩]
  obtain ⟨area, c', ht⟩ := (isAccepted_banner r.layout u.alert u.tint).result
    (attempt (below r ⟨none, s, v, u⟩) c)
  rw [render_eq, render_eq]
  simp only [hattempt, hcount, ht]
  rfl

theorem failedElements_of_none (r : OverlayRenderer) (s : Snapshot) (v : HudValues)
    (u : AlertUpdate) (c : Canvas) : (render r ⟨none, s, v, u⟩ c).1.failedElements = 0 := by
  refine failedElements_eq_zero (fun p hp => ?_) c
  rcases List.mem_cons.mp hp with rfl | hp
  · exact isAccepted_border u.tint
  · exact isAccepted_of_mem_aboveVideo r ⟨none, s, v, u⟩ hp

theorem failedElements_of_check (r : OverlayRenderer) (s : Snapshot) (v : HudValues)
    (u : AlertUpdate) {frame : VideoFrame} (h : frame.check = .ok ()) (c : Canvas) :
    (render r ⟨some frame, s, v, u⟩ c).1.failedElements = 0 := by
  refine failedElements_eq_zero (fun p hp => ?_) c
  rcases List.mem_cons.mp hp with rfl | hp
  · exact isAccepted_border u.tint
  · rcases List.mem_cons.mp hp with rfl | hp
    · exact isAccepted_video r.transform h
    · exact isAccepted_of_mem_aboveVideo r ⟨some frame, s, v, u⟩ hp

/-- A camera on a surface of 100 by 100 pixels. -/
def smallSurface : OverlayRenderer where
  transform := .ofSettings {} 100 100
  layout := .ofSize 100 100

theorem render_smallSurface {f : OverlayFrame} (hv : f.video = some uncountable) {c : Canvas}
    (hw : c.width = 100) (hh : c.height = 100) : (render smallSurface f (some c)).2 = none := by
  refine render_of_breaksDown hv (breaksDown_uncountable (x := 50) (y := 50) ?_ ?_ ?_ ?_)
  · rw [hw]
    norm_num
  · rw [hh]
    norm_num
  · decide +kernel
  · rw [Canvas.bounds, hw, hh]
    decide

/-- A camera image of `2 ^ 62` pixels that has no bytes is not refused, and nothing is left of the
frame. -/
theorem render_uncountable :
    let c := filled 100 100 (Palette.black 255)
    uncountable.check = .ok () ∧
      (render smallSurface { blankScene with video := some uncountable } (some c)).2 = none :=
  ⟨rfl, render_smallSurface rfl (width_filled ..) (height_filled ..)⟩

/-- Whatever the camera and the surface, the telemetry and what is derived from it, a frame without
a camera image, or with a sound one of fewer than `2 ^ 64` bytes, is painted to the end and without
failure.  With a camera image that has a fault one element fails, and the frame is that without a
camera image. -/
theorem acceptance_law (r : OverlayRenderer) (s : Snapshot) (v : HudValues) (u : AlertUpdate)
    (c : Canvas) :
    let painted (video : Option VideoFrame) := render r ⟨video, s, v, u⟩ (some c)
    (∃ area c', painted none = (⟨0, area⟩, some c')) ∧
      ∀ frame : VideoFrame,
        (frame.check = .ok () → frame.byteCount < 2 ^ 64 →
          ∃ area c', painted (some frame) = (⟨0, area⟩, some c')) ∧
        ∀ e, frame.check = .error e →
          painted (some frame) = (⟨1, (painted none).1.bannerArea⟩, (painted none).2) := by
  intro painted
  have hpainted {video : Option VideoFrame} (hv : IsCountable video) :
      painted video = ((render r ⟨video, s, v, u⟩ c).1, some (render r ⟨video, s, v, u⟩ c).2) :=
    render_some r hv c
  have hclean {video : Option VideoFrame} (hv : IsCountable video)
      (h : (render r ⟨video, s, v, u⟩ c).1.failedElements = 0) :
      ∃ area c', painted video = (⟨0, area⟩, some c') := by
    refine ⟨(render r ⟨video, s, v, u⟩ c).1.bannerArea, (render r ⟨video, s, v, u⟩ c).2, ?_⟩
    rw [hpainted hv, ← h]
  refine ⟨hclean isCountable_none (failedElements_of_none r s v u c),
    fun frame => ⟨fun hok hcount => ?_, fun e hf => ?_⟩⟩
  · exact hclean (isCountable_some fun _ => hcount) (failedElements_of_check r s v u hok c)
  · have hcountable : IsCountable (some frame) := isCountable_some fun hok => by
      rw [hf] at hok
      cases hok
    rw [hpainted hcountable, hpainted isCountable_none, render_of_fault r s v u hf c]

/-- An image of a single pixel, and the same without its last byte. -/
theorem acceptance_law_singlePixel :
    let single : VideoFrame := ⟨1, 1, 3, ⟨#[10, 20, 30]⟩⟩
    let cut : VideoFrame := ⟨1, 1, 3, ⟨#[10, 20]⟩⟩
    let painted (video : VideoFrame) := render smallSurface { blankScene with video := some video }
      (some (filled 100 100 (Palette.black 255)))
    (single.check = .ok () ∧ single.byteCount < 2 ^ 64 ∧
        cut.check = .error (.bufferSize 2 3 1 1 3)) ∧
      (painted single).1.failedElements = 0 ∧ (painted cut).1.failedElements = 1 := by
  intro single cut painted
  have hok : single.check = .ok () := rfl
  have hcount : single.byteCount < 2 ^ 64 := by decide
  have hcut : cut.check = .error (.bufferSize 2 3 1 1 3) := rfl
  obtain ⟨-, hlaw⟩ := acceptance_law smallSurface blankScene.snapshot blankScene.values
    blankScene.update (filled 100 100 (Palette.black 255))
  obtain ⟨area, c', hsingle⟩ := (hlaw single).1 hok hcount
  have hfailed := (hlaw cut).2 _ hcut
  refine ⟨⟨hok, hcount, hcut⟩, ?_, ?_⟩
  · have h : painted single = (⟨0, area⟩, some c') := hsingle
    rw [h]
  · have h : painted cut = _ := hfailed
    rw [h]

end Overlay

end DriveOverlay
