import DriveOverlay.Hud.Speed
import DriveOverlay.Proofs.Single.Order

/-! # The limit check keeps to the order

The check compares a speed with a sum of three numbers, the second of which is a rounded product
when the driver's offset is a percentage.  The sum is the larger, the larger the offset and the limit
are; of offsets this is so with infinities as well.  A negative percentage of a higher limit takes
more away, so that the check keeps to the order of the limits only when no percentage is negative.

* `onePercent_spec`, `isNaN_allowance`: what is compared is a number;
* `allowance_mono_offset`, `allowance_mono_value`: the part that the offset adds;
* `isExceededBy_of_le`: the check for two limits, from the order of their parts;
* `limit_law`: the check is monotone in speed, offset and limit. -/

namespace DriveOverlay.SpeedLimit

open Single

variable {l l' : SpeedLimit} {speed : Float32}

/-! ### The allowance -/

theorem isValid_iff : l.isValid = true ↔ l.value.isFinite = true ∧ leastKnown < l.value := by
  simp [isValid]

/-- A hundredth of the limit. -/
def onePercent (l : SpeedLimit) : Float32 :=
  l.value * 0.01

theorem index_value_pos (h : l.isValid = true) : 0 < index l.value := by
  have hleast : 0 < index leastKnown := by decide
  exact hleast.trans (lt_iff.mp (isValid_iff.mp h).2).2.2

/-- Limits that are known have a hundredth, which is neither infinite nor zero. -/
theorem onePercent_spec (h : l.isValid = true) :
    l.onePercent.isFinite = true ∧ 0 < index l.onePercent := by
  obtain ⟨hf, hleast⟩ := isValid_iff.mp h
  have hn := isNaN_of_isFinite hf
  have hc : (0.01 : Float32).isFinite = true := by decide
  have hc0 : 0 < index 0.01 := by decide
  have hpos : 0 < index l.onePercent := by
    have hknown : 0 < index (leastKnown * 0.01) := by decide +kernel
    exact hknown.trans_le (index_mul_mono rfl hn hc hc0 (lt_iff.mp hleast).2.2.le)
  have hle : index l.onePercent ≤ index l.value := by
    have hc1 : Single.value 0.01 ≤ 1 := value_one ▸ grid_strictMono.monotone (by decide)
    have hshrunk : Single.value l.value * Single.value 0.01 ≤ Single.value l.value :=
      mul_le_of_le_one_right (value_nonneg (index_value_pos h).le) hc1
    rw [onePercent, index_mul hf hc]
    exact (nearest_mono hshrunk).trans_eq (nearest_grid (natAbs_index_le l.value))
  refine ⟨isFinite_iff.mpr ⟨isNaN_mul hf hc, ?_⟩, hpos⟩
  have hlt := (isFinite_iff.mp hf).2
  change (index l.onePercent).natAbs < infinityIndex
  omega

theorem isNaN_allowance (h : l.isValid = true) (ho : l.offset.isNaN = false) :
    l.allowance.isNaN = false := by
  obtain ⟨hf, h0⟩ := onePercent_spec h
  unfold allowance
  cases l.policy with
  | fixed => exact ho
  | percent =>
      have hn : (l.onePercent * l.offset).isNaN = false := by
        rw [mul_swap]
        exact isNaN_mul_left ho hf h0.ne'
      exact isNaN_round hn

/-- A larger offset adds no less. -/
theorem allowance_mono_offset (h : l.isValid = true) {o : Float32} (ho : o.isNaN = false)
    (hl : l.offset.isNaN = false) (hle : index o ≤ index l.offset) :
    index (allowance { l with offset := o }) ≤ index l.allowance := by
  obtain ⟨hf, h0⟩ := onePercent_spec h
  unfold allowance
  cases l.policy with
  | fixed => exact hle
  | percent =>
      change index (round (l.onePercent * o)) ≤ index (round (l.onePercent * l.offset))
      rw [mul_swap _ o, mul_swap _ l.offset]
      exact round_mono (isNaN_mul_left ho hf h0.ne') (isNaN_mul_left hl hf h0.ne')
        (index_mul_mono ho hl hf h0 hle)

/-- The same offset adds no less to a higher limit, unless it is a negative percentage. -/
theorem allowance_mono_value (h : l.isValid = true) {w : Float32}
    (hw : isValid { l with value := w } = true) (ho : l.offset.isNaN = false)
    (hle : index w ≤ index l.value) (hpolicy : l.policy = .percent → 0 ≤ index l.offset) :
    index (allowance { l with value := w }) ≤ index l.allowance := by
  cases hp : l.policy with
  | fixed => simp only [allowance, hp, le_refl]
  | percent =>
      obtain ⟨hf, h0⟩ := onePercent_spec h
      obtain ⟨hf', h0'⟩ := onePercent_spec hw
      have hpart : index (onePercent { l with value := w }) ≤ index l.onePercent :=
        index_mul_mono (isNaN_of_isFinite (isValid_iff.mp hw).1)
          (isNaN_of_isFinite (isValid_iff.mp h).1) (by decide) (by decide) hle
      have hn : (l.onePercent * l.offset).isNaN = false := by
        rw [mul_swap]
        exact isNaN_mul_left ho hf h0.ne'
      have hn' : (onePercent { l with value := w } * l.offset).isNaN = false := by
        rw [mul_swap]
        exact isNaN_mul_left ho hf' h0'.ne'
      simp only [allowance, hp]
      exact round_mono hn' hn (index_mul_le_mul hf' hf h0' hpart ho (hpolicy hp))

/-! ### The check -/

theorem isExceededBy_iff : l.isExceededBy speed = true ↔
    l.isValid = true ∧ speed.isFinite = true ∧ l.value + l.allowance + margin < speed := by
  simp [isExceededBy, and_assoc]

/-- A limit that is no higher than an exceeded one, with an allowance that is no larger, is exceeded
at a speed that is no lower. -/
theorem isExceededBy_of_le (h : l.isExceededBy speed = true) (hv : l'.isValid = true)
    (ho : l.offset.isNaN = false) (ho' : l'.offset.isNaN = false)
    (hvalue : index l'.value ≤ index l.value) (hallowance : index l'.allowance ≤ index l.allowance)
    {speed' : Float32} (hf : speed'.isFinite = true) (hle : index speed ≤ index speed') :
    l'.isExceededBy speed' = true := by
  obtain ⟨hl, -, hlt⟩ := isExceededBy_iff.mp h
  have hn := isNaN_allowance hl ho
  have hn' := isNaN_allowance hv ho'
  have hfl := (isValid_iff.mp hl).1
  have hfl' := (isValid_iff.mp hv).1
  have hm : margin.isFinite = true := by decide
  have hsum := isNaN_add hfl hn
  have hsum' := isNaN_add hfl' hn'
  have hthreshold : index (l'.value + l'.allowance + margin) ≤
      index (l.value + l.allowance + margin) :=
    index_add_mono hsum' hsum hm (index_add_le_add hfl' hfl hn' hn hvalue hallowance)
  refine isExceededBy_iff.mpr ⟨hv, hf, lt_iff.mpr ⟨?_, isNaN_of_isFinite hf, ?_⟩⟩
  · exact isNaN_add_right hsum' hm
  · exact (hthreshold.trans_lt (lt_iff.mp hlt).2.2).trans_le hle

/-- For an offset that is a number: a limit that is exceeded is known; it stays exceeded at every
higher finite speed, with every smaller offset, and when it is lowered to another known limit, unless
the offset is a negative percentage; and no speed that is not finite exceeds it. -/
theorem limit_law (l : SpeedLimit) (ho : l.offset.isNaN = false) (speed : Float32) :
    (l.isExceededBy speed = true →
      l.isValid = true ∧
      (∀ faster : Float32, faster.isFinite = true → speed ≤ faster →
        l.isExceededBy faster = true) ∧
      (∀ offset : Float32, offset.isNaN = false → offset ≤ l.offset →
        isExceededBy { l with offset } speed = true) ∧
      ∀ value : Float32, isValid { l with value } = true → value ≤ l.value →
        (l.policy = .percent → 0 ≤ l.offset) → isExceededBy { l with value } speed = true) ∧
    (speed.isFinite = false → l.isExceededBy speed = false) := by
  constructor
  · intro h
    obtain ⟨hv, hf, -⟩ := isExceededBy_iff.mp h
    refine ⟨hv, ?_, ?_, ?_⟩
    · intro faster hfaster hle
      exact isExceededBy_of_le h hv ho ho le_rfl le_rfl hfaster (le_iff.mp hle).2.2
    · intro offset hoffset hle
      have hallowance := allowance_mono_offset hv hoffset ho (le_iff.mp hle).2.2
      have hv' : isValid { l with offset } = true := hv
      exact isExceededBy_of_le h hv' ho hoffset le_rfl hallowance hf le_rfl
    · intro value hvalue hle hpolicy
      have hindex := (le_iff.mp hle).2.2
      apply isExceededBy_of_le h hvalue ho ho hindex _ hf le_rfl
      apply allowance_mono_value hv hvalue ho hindex
      intro hp
      exact (le_iff.mp (hpolicy hp)).2.2
  · intro hf
    simp [isExceededBy, hf]

/-- A limit of 100 with ten percent is exceeded at 112, hence at 200, with a tenth taken away, and as
a limit of 50. -/
theorem limit_law_tenPercent :
    let l : SpeedLimit := ⟨100, 10, .percent⟩
    l.isExceededBy 200 = true ∧ isExceededBy { l with offset := -10 } 112 = true ∧
      isExceededBy { l with value := 50 } 112 = true := by
  intro l
  obtain ⟨hexceeded, -⟩ := limit_law l (by decide) 112
  obtain ⟨-, hfaster, hoffset, hvalue⟩ := hexceeded (by decide +kernel)
  exact ⟨hfaster 200 (by decide) (by decide), hoffset (-10) (by decide) (by decide),
    hvalue 50 (by decide) (by decide) (fun _ => by decide)⟩

end DriveOverlay.SpeedLimit
