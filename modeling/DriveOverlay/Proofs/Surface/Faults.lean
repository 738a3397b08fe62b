import DriveOverlay.Proofs.Surface.Images
import DriveOverlay.Surface.Raster

/-! # Faults of commands

A command that makes no sense has a fault; of several faults the check finds the first, in the order
in which they are looked for.

* `Command.check_eq_error_iff`: the check finds the faults;
* `Command.exists_fault_iff`: the three commands that can have one, and when they do. -/

namespace DriveOverlay

/-! ### Commands -/

namespace Command

variable {command : Command} {e : DrawError}

/-- What is wrong with a command. -/
inductive Fault : Command → DrawError → Prop
  | tooFewVertices {polygon : Polygon} {paint : Paint} (hn : polygon.length < 3) :
      Fault (.fillPolygon polygon paint) (.tooFewVertices polygon.length)
  | unboundedVertices {polygon : Polygon} {paint : Paint} (hn : 3 ≤ polygon.length)
      (hp : ∃ p ∈ polygon, p.isFinite = false) :
      Fault (.fillPolygon polygon paint) .unboundedVertices
  | unboundedAnchor {text : String} {anchor : Point} {style : TextStyle} (ht : text ≠ "")
      (hv : style.color.alpha ≠ 0) (ha : anchor.isFinite = false) :
      Fault (.drawText text anchor style) .unboundedAnchor
  | badFrame {frame : VideoFrame} {dest clip : Rect} {error : FrameError}
      (hf : frame.Fault error) : Fault (.blit frame dest clip) (.badFrame error)

theorem check_eq_error_iff : command.check = .error e ↔ command.Fault e := by
  constructor
  · intro h
    cases command with
    | fillPolygon polygon paint =>
        simp only [check] at h
        split_ifs at h with hn hp
        · cases h
          exact .tooFewVertices hn
        · cases h
          exact .unboundedVertices (Nat.not_lt.mp hn) (by simpa using hp)
    | drawText text anchor style =>
        simp only [check] at h
        split_ifs at h with ha
        cases h
        obtain ⟨⟨ht, hv⟩, ha⟩ := by simpa using ha
        exact .unboundedAnchor ht hv ha
    | blit frame dest clip =>
        cases hf : frame.check with
        | ok => simp [check, hf, Except.mapError] at h
        | error error =>
            simp only [check, hf, Except.mapError] at h
            cases h
            exact .badFrame (VideoFrame.check_eq_error_iff.mp hf)
    | _ => cases h
  · intro h
    cases h with
    | tooFewVertices hn => rw [check, if_pos hn]
    | unboundedVertices hn hp => rw [check, if_neg (Nat.not_lt.mpr hn), if_pos (by simpa using hp)]
    | unboundedAnchor ht hv ha => rw [check, if_pos (by simp [ht, hv, ha])]
    | badFrame hf => rw [check, VideoFrame.check_eq_error_iff.mpr hf, Except.mapError]

/-- When a command has a fault: whether anything would show does not matter for polygons and camera
images, and comes first for texts. -/
def IsFaulty : Command → Prop
  | .fillPolygon polygon _ => polygon.length < 3 ∨ ∃ p ∈ polygon, p.isFinite = false
  | .drawText text anchor style => text ≠ "" ∧ style.color.alpha ≠ 0 ∧ anchor.isFinite = false
  | .blit f _ _ =>
    (f.width = 0 ∨ f.height = 0) ∨ (f.channels ≠ 3 ∧ f.channels ≠ 4) ∨
      f.bytes.size ≠ f.expectedSize
  | _ => False

theorem exists_fault_iff : (∃ e, command.Fault e) ↔ command.IsFaulty := by
  constructor
  · rintro ⟨e, h⟩
    cases h with
    | tooFewVertices hn => exact .inl hn
    | unboundedVertices _ hp => exact .inr hp
    | unboundedAnchor ht hv ha => exact ⟨ht, hv, ha⟩
    | badFrame hf => exact VideoFrame.exists_fault_iff.mp ⟨_, hf⟩
  · intro h
    cases command with
    | fillPolygon polygon paint =>
        by_cases hn : polygon.length < 3
        · exact ⟨_, .tooFewVertices hn⟩
        · exact ⟨_, .unboundedVertices (Nat.not_lt.mp hn) (h.resolve_left hn)⟩
    | drawText text anchor style => exact ⟨_, .unboundedAnchor h.1 h.2.1 h.2.2⟩
    | blit frame dest clip =>
        obtain ⟨error, hf⟩ := VideoFrame.exists_fault_iff.mpr h
        exact ⟨_, .badFrame hf⟩
    | _ => cases h

theorem check_eq_ok_iff : command.check = .ok () ↔ ¬command.IsFaulty := by
  rw [← exists_fault_iff]
  simp only [← check_eq_error_iff]
  cases command.check with
  | ok => simp
  | error e => simp

end Command

/-! ### Canvases -/

namespace Canvas

theorem fst_draw (command : Command) (c : Canvas) : (c.draw command).1 = command.check := by
  unfold draw
  split
  · rename_i h
    exact h.symm
  · rename_i h
    exact h.symm

theorem draw_of_check {command : Command} (h : command.check = .ok ()) (c : Canvas) :
    c.draw command = (.ok (), c.paint command) := by
  rw [draw, h]

theorem snd_draw_of_error {command : Command} {e : DrawError} (h : command.check = .error e)
    (c : Canvas) : (c.draw command).2 = c := by
  rw [draw, h]

end Canvas

end DriveOverlay
