import DriveOverlay.Surface.VideoFrame
import Mathlib.Algebra.Order.Ring.Nat
import Mathlib.Data.Nat.Notation
import Mathlib.Tactic.SplitIfs
import Mathlib.Tactic.Tauto

/-! # The bytes of camera images

The check of a camera image finds its first fault.  It takes the number of bytes in 64 bits, so that
an image that needs `2 ^ 64` bytes may pass with none.  Of a smaller image that passes, the bytes of
every pixel are there.

* `check_eq_error_iff`, `exists_fault_iff`: the check finds the faults;
* `expectedSize_eq`: how many bytes the check asks for;
* `Shows`: the color of a pixel;
* `Valid`, `Valid.exists_colorAt?`: images of which every pixel has its bytes. -/

namespace DriveOverlay

namespace VideoFrame

variable {f : VideoFrame} {e : FrameError}

/-! ### Numbers of bytes -/

/-- How many bytes the pixels of an image have. -/
def byteCount (f : VideoFrame) : ℕ :=
  f.width.toNat * f.height.toNat * f.channels.toNat

theorem expectedSize_eq (f : VideoFrame) : f.expectedSize = f.byteCount % 2 ^ 64 := by
  simp [expectedSize, byteCount, UInt64.toNat_mul, Nat.mod_mul_mod]

theorem expectedSize_of_lt (h : f.byteCount < 2 ^ 64) : f.expectedSize = f.byteCount := by
  rw [expectedSize_eq, Nat.mod_eq_of_lt h]

/-! ### Faults -/

/-- What is wrong with a camera image. -/
inductive Fault (f : VideoFrame) : FrameError → Prop
  | zeroSize (hs : f.width = 0 ∨ f.height = 0) :
      Fault f (.zeroSize f.width.toNat f.height.toNat)
  | channelCount (hs : f.width ≠ 0 ∧ f.height ≠ 0) (hc : f.channels ≠ 3 ∧ f.channels ≠ 4) :
      Fault f (.channelCount f.channels.toNat)
  | bufferSize (hs : f.width ≠ 0 ∧ f.height ≠ 0) (hc : f.channels = 3 ∨ f.channels = 4)
      (hb : f.bytes.size ≠ f.expectedSize) :
      Fault f (.bufferSize f.bytes.size f.expectedSize f.width.toNat f.height.toNat
        f.channels.toNat)

theorem check_eq_error_iff : f.check = .error e ↔ f.Fault e := by
  constructor
  · intro h
    unfold check at h
    split_ifs at h with hs hc hb
    · cases h
      exact .zeroSize (by simpa using hs)
    · cases h
      exact .channelCount (by simpa using hs) (by simpa using hc)
    · cases h
      exact .bufferSize (by simpa using hs) (by simpa [or_iff_not_imp_left] using hc) hb
  · intro h
    unfold check
    cases h with
    | zeroSize hs => rw [if_pos (by simpa using hs)]
    | channelCount hs hc => rw [if_neg (by simpa using hs), if_pos (by simpa using hc)]
    | bufferSize hs hc hb =>
        have hc' : ¬(decide (f.channels ≠ 3) && decide (f.channels ≠ 4)) = true := by
          rcases hc with hc | hc
          · simp [hc]
          · simp [hc]
        rw [if_neg (by simpa using hs), if_neg hc', if_pos hb]

/-- A camera image is refused for its size, its channels or its bytes. -/
theorem exists_fault_iff : (∃ e, f.Fault e) ↔
    (f.width = 0 ∨ f.height = 0) ∨ (f.channels ≠ 3 ∧ f.channels ≠ 4) ∨
      f.bytes.size ≠ f.expectedSize := by
  constructor
  · rintro ⟨e, h⟩
    cases h with
    | zeroSize hs => exact .inl hs
    | channelCount _ hc => exact .inr (.inl hc)
    | bufferSize _ _ hb => exact .inr (.inr hb)
  · intro h
    by_cases hs : f.width = 0 ∨ f.height = 0
    · exact ⟨_, .zeroSize hs⟩
    · by_cases hc : f.channels ≠ 3 ∧ f.channels ≠ 4
      · exact ⟨_, .channelCount (not_or.mp hs) hc⟩
      · have hb := (h.resolve_left hs).resolve_left hc
        exact ⟨_, .bufferSize (not_or.mp hs) (by tauto) hb⟩

theorem check_eq_ok_iff : f.check = .ok () ↔
    (f.width ≠ 0 ∧ f.height ≠ 0) ∧ (f.channels = 3 ∨ f.channels = 4) ∧
      f.bytes.size = f.expectedSize := by
  have hok : f.check = .ok () ↔ ¬∃ e, f.Fault e := by
    simp only [← check_eq_error_iff]
    cases f.check with
    | ok => simp
    | error e => simp
  rw [hok, exists_fault_iff]
  tauto

/-! ### Pixels -/

/-- Three bytes of the image from an index on are the color without alpha. -/
def Stores (f : VideoFrame) (i : ℕ) (color : Color) : Prop :=
  ∃ (_ : i < f.bytes.size) (_ : i + 1 < f.bytes.size) (_ : i + 2 < f.bytes.size),
    color = ⟨f.bytes[i], f.bytes[i + 1], f.bytes[i + 2], 255⟩

/-- The color without alpha is that of a pixel of the image, all bytes of which are there. -/
def Shows (f : VideoFrame) (x y : ℤ) (color : Color) : Prop :=
  ∃ i j : ℕ, (x = i ∧ i < f.width.toNat) ∧ (y = j ∧ j < f.height.toNat) ∧
    f.Stores (f.offset i j) color

theorem colorAt?_eq_some_iff {x y : ℕ} {color : Color} :
    f.colorAt? x y = some color ↔ f.Stores (f.offset x y) color := by
  unfold colorAt? Stores
  dsimp only
  split
  · rename_i h
    rw [Option.some.injEq, eq_comm]
    exact ⟨fun e => ⟨by omega, by omega, h, e⟩, fun ⟨_, _, _, e⟩ => e⟩
  · rename_i h
    exact ⟨fun e => (Option.some_ne_none _ e.symm).elim, fun ⟨_, _, h', _⟩ => absurd h' h⟩

theorem shows_of_colorAt? {x y : ℕ} {color : Color} (hx : x < f.width.toNat)
    (hy : y < f.height.toNat) (h : f.colorAt? x y = some color) : f.Shows x y color :=
  ⟨x, y, ⟨rfl, hx⟩, ⟨rfl, hy⟩, colorAt?_eq_some_iff.mp h⟩

theorem Shows.colorAt? {x y : ℕ} {color : Color} (h : f.Shows x y color) :
    f.colorAt? x y = some color := by
  obtain ⟨i, j, ⟨hi, -⟩, ⟨hj, -⟩, hcolor⟩ := h
  obtain rfl := Int.ofNat.inj hi
  obtain rfl := Int.ofNat.inj hj
  exact colorAt?_eq_some_iff.mpr hcolor

/-- A pixel of an image is never out of the range of 64 bits before its channels are counted. -/
theorem offset_eq {x y : ℕ} (hx : x < f.width.toNat) (hy : y < f.height.toNat) :
    f.offset x y = (y * f.width.toNat + x) * f.channels.toNat % 2 ^ 64 := by
  have hw := f.width.toNat_lt
  have hh := f.height.toNat_lt
  have hrow : y * f.width.toNat ≤ (2 ^ 32 - 1) * (2 ^ 32 - 1) :=
    Nat.mul_le_mul (by omega) (by omega)
  simp only [offset, UInt64.toNat_mul, UInt64.toNat_add, UInt32.toNat_toUInt64,
    UInt8.toNat_toUInt64, Nat.toUInt64_eq, UInt64.toNat_ofNat']
  rw [Nat.mod_eq_of_lt (a := y) (by omega), Nat.mod_eq_of_lt (a := x) (by omega),
    Nat.mod_eq_of_lt (a := y * _) (by omega), Nat.mod_eq_of_lt (a := _ + x) (by omega)]

/-! ### Images with all their bytes -/

/-- An image without a fault that needs no more bytes than can be counted. -/
structure Valid (f : VideoFrame) : Prop where
  width_pos : 0 < f.width.toNat
  height_pos : 0 < f.height.toNat
  channels_ge : 3 ≤ f.channels.toNat
  size_eq : f.bytes.size = f.byteCount
  size_lt : f.byteCount < 2 ^ 64

theorem size_pos_of_check (h : f.check = .ok ()) : 0 < f.width.toNat ∧ 0 < f.height.toNat := by
  obtain ⟨⟨hw, hh⟩, -⟩ := check_eq_ok_iff.mp h
  exact ⟨Nat.pos_of_ne_zero fun h0 => hw (UInt32.toNat_inj.mp h0),
    Nat.pos_of_ne_zero fun h0 => hh (UInt32.toNat_inj.mp h0)⟩

theorem valid_of_check (h : f.check = .ok ()) (hb : f.byteCount < 2 ^ 64) : f.Valid := by
  obtain ⟨-, hc, hsize⟩ := check_eq_ok_iff.mp h
  exact {
    width_pos := (size_pos_of_check h).1
    height_pos := (size_pos_of_check h).2
    channels_ge := by
      rcases hc with hc | hc
      · rw [hc]
        decide
      · rw [hc]
        decide
    size_eq := hsize.trans (expectedSize_of_lt hb)
    size_lt := hb }

theorem Valid.last_lt (hf : f.Valid) {i j : ℕ} (hi : i < f.width.toNat) (hj : j < f.height.toNat) :
    (j * f.width.toNat + i) * f.channels.toNat + 2 < f.bytes.size := by
  have hpixel : j * f.width.toNat + i + 1 ≤ f.width.toNat * f.height.toNat := by
    have hrows := Nat.mul_le_mul_right f.width.toNat (Nat.succ_le_of_lt hj)
    rw [Nat.succ_mul, Nat.mul_comm f.height.toNat] at hrows
    omega
  have hbytes := Nat.mul_le_mul_right f.channels.toNat hpixel
  have hthree := hf.channels_ge
  rw [Nat.add_mul, Nat.one_mul, ← byteCount, ← hf.size_eq] at hbytes
  omega

theorem Valid.offset_eq (hf : f.Valid) {i j : ℕ} (hi : i < f.width.toNat)
    (hj : j < f.height.toNat) : f.offset i j = (j * f.width.toNat + i) * f.channels.toNat := by
  have hlast := hf.last_lt hi hj
  have hlt := hf.size_lt
  rw [← hf.size_eq] at hlt
  rw [VideoFrame.offset_eq hi hj, Nat.mod_eq_of_lt (by omega)]

/-- Three bytes of each pixel are read, and they are there. -/
theorem Valid.exists_colorAt? (hf : f.Valid) {i j : ℕ} (hi : i < f.width.toNat)
    (hj : j < f.height.toNat) : ∃ color, f.colorAt? i j = some color := by
  have hlast := hf.last_lt hi hj
  rw [← hf.offset_eq hi hj] at hlast
  exact ⟨_, colorAt?_eq_some_iff.mpr ⟨by omega, by omega, hlast, rfl⟩⟩

end VideoFrame

end DriveOverlay
