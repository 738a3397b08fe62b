import Mathlib.Algebra.Order.Floor.Semiring
import Mathlib.Data.Int.ConditionallyCompleteOrder
import Mathlib.Data.Nat.Log
import Mathlib.Data.Rat.Floor
import Mathlib.Order.Monotone.Odd
import Mathlib.Tactic.FieldSimp
import Mathlib.Tactic.GCongr
import Mathlib.Tactic.Linarith
import Mathlib.Tactic.Positivity
import Mathlib.Tactic.Ring

/-! # The grid of single precision

The magnitudes of singles have indices `0, 1, 2, …` in growing order.  `units k` is the magnitude
with index `k`, in units of the smallest one above zero.  Below `2 ^ 24` the indices are the
magnitudes themselves; from there on `2 ^ 23` neighbours at a time have the same distance, twice
that of those before.

`nearestIndex u` is the index of the magnitude nearest to `u` units, a tie going to an even
mantissa.  What is too large for single precision is left on the grid there and cut off at
`infinityIndex` by `nearest`, which also takes care of signs.

* `units_strictMono`, `grid_strictMono`: the grid is in order;
* `nearest_mono`: rounding never changes an order;
* `nearest_grid`: what is on the grid stays;
* `onGrid_of_mantissa`: every mantissa of 24 bits is on the grid, in all its places;
* `nearest_sub_pos`: different values do not have a difference that rounds to zero. -/

namespace DriveOverlay.Single

/-! ### Rounding to whole numbers -/

/-- The whole number nearest to `t`; a half goes to the even neighbour. -/
def nearestEven (t : ℚ) : ℕ :=
  let m := ⌊t⌋₊
  if t < m + 1 / 2 then m else if m + 1 / 2 < t then m + 1 else m + m % 2

theorem floor_le_nearestEven (t : ℚ) : ⌊t⌋₊ ≤ nearestEven t := by
  unfold nearestEven
  dsimp only
  split_ifs <;> omega

theorem nearestEven_le_floor_succ (t : ℚ) : nearestEven t ≤ ⌊t⌋₊ + 1 := by
  unfold nearestEven
  dsimp only
  split_ifs <;> omega

theorem nearestEven_mono {t t' : ℚ} (h : t ≤ t') : nearestEven t ≤ nearestEven t' := by
  rcases (Nat.floor_mono h).lt_or_eq with hlt | heq
  · exact (nearestEven_le_floor_succ t).trans (le_trans hlt (floor_le_nearestEven t'))
  · unfold nearestEven
    rw [heq]
    generalize ⌊t'⌋₊ = m
    dsimp only
    by_cases h₁ : t < m + 1 / 2
    · rw [if_pos h₁]
      split_ifs <;> omega
    · have h₁' : ¬t' < m + 1 / 2 := by linarith
      rw [if_neg h₁, if_neg h₁']
      by_cases h₂ : m + 1 / 2 < t
      · rw [if_pos h₂, if_pos (h₂.trans_le h)]
      · rw [if_neg h₂]
        split_ifs <;> omega

@[simp] theorem nearestEven_natCast (n : ℕ) : nearestEven n = n := by
  unfold nearestEven
  rw [Nat.floor_natCast, if_pos (by linarith)]

theorem nearestEven_le {t : ℚ} {n : ℕ} (h : t ≤ n) : nearestEven t ≤ n :=
  (nearestEven_mono h).trans_eq (nearestEven_natCast n)

theorem le_nearestEven {t : ℚ} {n : ℕ} (h : n ≤ t) : n ≤ nearestEven t :=
  (nearestEven_natCast n).symm.trans_le (nearestEven_mono h)

/-! ### Magnitudes by index -/

/-- The magnitude with index `k`, in units of the smallest one above zero. -/
def units (k : ℕ) : ℕ :=
  (k - (k / 2 ^ 23 - 1) * 2 ^ 23) * 2 ^ (k / 2 ^ 23 - 1)

theorem units_of_mantissa {m s : ℕ} (hm : m < 2 ^ 24) (hn : 2 ^ 23 ≤ m ∨ s = 0) :
    units (s * 2 ^ 23 + m) = m * 2 ^ s := by
  have hs : (s * 2 ^ 23 + m) / 2 ^ 23 - 1 = s := by omega
  unfold units
  rw [hs, Nat.add_sub_cancel_left]

theorem exists_mantissa (k : ℕ) :
    ∃ m s, m < 2 ^ 24 ∧ (2 ^ 23 ≤ m ∨ s = 0) ∧ k = s * 2 ^ 23 + m :=
  ⟨k - (k / 2 ^ 23 - 1) * 2 ^ 23, k / 2 ^ 23 - 1, by omega, by omega, by omega⟩

theorem units_of_lt {k : ℕ} (h : k < 2 ^ 24) : units k = k := by
  have := units_of_mantissa h (.inr rfl : 2 ^ 23 ≤ k ∨ 0 = 0)
  rwa [Nat.zero_mul, Nat.zero_add, pow_zero, Nat.mul_one] at this

@[simp] theorem units_zero : units 0 = 0 := units_of_lt (by norm_num)

@[simp] theorem units_one : units 1 = 1 := units_of_lt (by norm_num)

theorem units_lt_succ (k : ℕ) : units k < units (k + 1) := by
  obtain ⟨m, s, hm, hn, rfl⟩ := exists_mantissa k
  rw [units_of_mantissa hm hn]
  rcases Nat.lt_or_ge (m + 1) (2 ^ 24) with h | h
  · rw [Nat.add_assoc, units_of_mantissa h (by omega)]
    exact Nat.mul_lt_mul_of_pos_right (Nat.lt_succ_self m) (by positivity)
  · have e : s * 2 ^ 23 + m + 1 = (s + 1) * 2 ^ 23 + 2 ^ 23 := by omega
    have hm' : m = 2 ^ 24 - 1 := by omega
    rw [e, units_of_mantissa (by norm_num) (.inl le_rfl), hm', pow_succ 2 s, ← Nat.mul_assoc,
      Nat.mul_right_comm]
    exact Nat.mul_lt_mul_of_pos_right (by norm_num) (by positivity)

theorem units_strictMono : StrictMono units := strictMono_nat_of_lt_succ units_lt_succ

/-! ### The nearest magnitude -/

/-- How often the distance has doubled at `u` units. -/
def doublings (u : ℚ) : ℕ := Nat.log 2 ⌊u⌋₊ - 23

/-- The index of the magnitude nearest to `u` units. -/
def nearestIndex (u : ℚ) : ℕ :=
  doublings u * 2 ^ 23 + nearestEven (u / 2 ^ doublings u)

theorem doublings_mono {u v : ℚ} (h : u ≤ v) : doublings u ≤ doublings v :=
  Nat.sub_le_sub_right (Nat.log_mono_right (Nat.floor_mono h)) 23

theorem div_doublings_lt (u : ℚ) : u / 2 ^ doublings u < 2 ^ 24 := by
  rw [div_lt_iff₀ (by positivity), ← pow_add]
  have h := Nat.lt_pow_succ_log_self (b := 2) (by norm_num) ⌊u⌋₊
  have hd : Nat.log 2 ⌊u⌋₊ + 1 ≤ 24 + doublings u := by unfold doublings; omega
  have h2 : ⌊u⌋₊ < 2 ^ (24 + doublings u) :=
    lt_of_lt_of_le h (Nat.pow_le_pow_right (by norm_num) hd)
  exact_mod_cast (Nat.floor_lt' (by positivity)).mp h2

theorem le_div_doublings {u : ℚ} (h : doublings u ≠ 0) : 2 ^ 23 ≤ u / 2 ^ doublings u := by
  rw [le_div_iff₀ (by positivity), ← pow_add]
  have hd : 23 + doublings u = Nat.log 2 ⌊u⌋₊ := by unfold doublings at h ⊢; omega
  have h0 : ⌊u⌋₊ ≠ 0 := by
    intro h0
    rw [h0, Nat.log_zero_right] at hd
    omega
  have hp : 2 ^ (23 + doublings u) ≤ ⌊u⌋₊ := hd ▸ Nat.pow_log_le_self 2 h0
  exact_mod_cast (Nat.le_floor_iff' (by positivity)).mp hp

theorem nearestIndex_mono {u v : ℚ} (h : u ≤ v) : nearestIndex u ≤ nearestIndex v := by
  unfold nearestIndex
  rcases (doublings_mono h).lt_or_eq with hlt | heq
  · have hu : nearestEven (u / 2 ^ doublings u) ≤ 2 ^ 24 :=
      nearestEven_le (by exact_mod_cast (div_doublings_lt u).le)
    have hv : 2 ^ 23 ≤ nearestEven (v / 2 ^ doublings v) :=
      le_nearestEven (by exact_mod_cast le_div_doublings (u := v) (by omega))
    omega
  · rw [heq]
    have : nearestEven (u / 2 ^ doublings v) ≤ nearestEven (v / 2 ^ doublings v) :=
      nearestEven_mono (by gcongr)
    omega

theorem doublings_of_mantissa {m s : ℕ} (hm : m < 2 ^ 24) (hn : 2 ^ 23 ≤ m ∨ s = 0) :
    doublings ((m * 2 ^ s : ℕ) : ℚ) = s := by
  unfold doublings
  rw [Nat.floor_natCast]
  rcases hn with hn | rfl
  · have hl : Nat.log 2 (m * 2 ^ s) = 23 + s := by
      rw [Nat.log_eq_iff (.inl (by omega)), pow_add 2 23 s,
        show 23 + s + 1 = 24 + s by omega, pow_add 2 24 s]
      exact ⟨Nat.mul_le_mul_right _ hn, Nat.mul_lt_mul_of_pos_right hm (by positivity)⟩
    rw [hl, Nat.add_sub_cancel_left]
  · rw [pow_zero, Nat.mul_one]
    have : Nat.log 2 m < 24 := Nat.log_lt_of_lt_pow' (by norm_num) hm
    omega

theorem nearestIndex_units (k : ℕ) : nearestIndex (units k) = k := by
  obtain ⟨m, s, hm, hn, rfl⟩ := exists_mantissa k
  rw [units_of_mantissa hm hn]
  unfold nearestIndex
  have e : ((m * 2 ^ s : ℕ) : ℚ) / 2 ^ s = (m : ℕ) := by
    push_cast
    field_simp
  rw [doublings_of_mantissa hm hn, e, nearestEven_natCast]

@[simp] theorem nearestIndex_zero : nearestIndex 0 = 0 := by
  have := nearestIndex_units 0
  rwa [units_zero, Nat.cast_zero] at this

/-! ### Signs and infinity -/

/-- The index of infinity, behind those of all finite magnitudes. -/
def infinityIndex : ℕ := 2139095040

/-- The value with index `k`; negative indices have the opposite values. -/
def grid (k : ℤ) : ℚ := k.sign * units k.natAbs / 2 ^ 149

/-- The index of the value nearest to `q`, or of infinity when `q` is too large. -/
def nearest (q : ℚ) : ℤ :=
  if q < 0 then -(min infinityIndex (nearestIndex (-q * 2 ^ 149)) : ℕ)
  else (min infinityIndex (nearestIndex (q * 2 ^ 149)) : ℕ)

theorem grid_natCast (n : ℕ) : grid n = units n / 2 ^ 149 := by
  unfold grid
  rcases Nat.eq_zero_or_pos n with rfl | h
  · simp
  · rw [Int.sign_natCast_of_ne_zero (by omega), Int.natAbs_natCast, Int.cast_one, one_mul]

@[simp] theorem grid_neg (k : ℤ) : grid (-k) = -grid k := by
  unfold grid
  rw [Int.sign_neg, Int.natAbs_neg]
  push_cast
  ring

@[simp] theorem grid_zero : grid 0 = 0 := by simp [grid]

theorem abs_grid (k : ℤ) : |grid k| = units k.natAbs / 2 ^ 149 := by
  obtain ⟨n, rfl | rfl⟩ := k.eq_nat_or_neg
  · rw [grid_natCast, Int.natAbs_natCast, abs_of_nonneg (by positivity)]
  · rw [grid_neg, grid_natCast, abs_neg, Int.natAbs_neg, Int.natAbs_natCast,
      abs_of_nonneg (by positivity)]

theorem grid_strictMono : StrictMono grid := by
  apply strictMono_of_odd_strictMonoOn_nonneg grid_neg
  intro k hk l hl h
  lift k to ℕ using hk
  lift l to ℕ using hl
  have : (units k : ℚ) < units l := by exact_mod_cast units_strictMono (Int.ofNat_lt.mp h)
  rw [grid_natCast, grid_natCast]
  gcongr

theorem grid_nonneg {k : ℤ} (h : 0 ≤ k) : 0 ≤ grid k :=
  grid_zero.ge.trans (grid_strictMono.monotone h)

theorem nearest_of_nonneg {q : ℚ} (h : 0 ≤ q) :
    nearest q = (min infinityIndex (nearestIndex (q * 2 ^ 149)) : ℕ) :=
  if_neg h.not_gt

@[simp] theorem nearest_zero : nearest 0 = 0 := by
  rw [nearest_of_nonneg le_rfl, zero_mul, nearestIndex_zero]
  rfl

theorem nearest_neg (q : ℚ) : nearest (-q) = -nearest q := by
  rcases lt_trichotomy q 0 with h | rfl | h
  · rw [nearest_of_nonneg (by linarith), nearest, if_pos h, neg_neg]
  · rw [neg_zero, nearest_zero, neg_zero]
  · rw [nearest_of_nonneg h.le, nearest, if_pos (by linarith), neg_neg]

/-- Rounding never changes an order. -/
theorem nearest_mono : Monotone nearest := by
  apply monotone_of_odd_of_monotoneOn_nonneg nearest_neg
  intro p hp q hq h
  rw [nearest_of_nonneg hp, nearest_of_nonneg hq, Int.ofNat_le]
  apply min_le_min le_rfl
  apply nearestIndex_mono
  gcongr

/-- What is on the grid stays. -/
theorem nearest_grid {k : ℤ} (h : k.natAbs ≤ infinityIndex) : nearest (grid k) = k := by
  have hn : ∀ n : ℕ, n ≤ infinityIndex → nearest (grid n) = n := by
    intro n hn
    have e : grid n * 2 ^ 149 = units n := by
      rw [grid_natCast]
      field_simp
    rw [nearest_of_nonneg (by rw [grid_natCast]; positivity), e, nearestIndex_units,
      min_eq_right hn]
  obtain ⟨n, rfl | rfl⟩ := k.eq_nat_or_neg
  · exact hn n (by omega)
  · rw [grid_neg, nearest_neg, hn n (by omega)]

/-! ### Exact values -/

/-- Every mantissa of 24 bits and every count of doublings make a magnitude, also where the
mantissa is not full. -/
theorem exists_units {m : ℕ} (hm : m ≤ 2 ^ 24) (s : ℕ) : ∃ k, units k = m * 2 ^ s := by
  rcases hm.lt_or_eq with hlt | rfl
  · induction s generalizing m with
    | zero => exact ⟨_, units_of_mantissa hlt (.inr rfl)⟩
    | succ s ih =>
        by_cases hn : 2 ^ 23 ≤ m
        · exact ⟨_, units_of_mantissa hlt (.inl hn)⟩
        · obtain ⟨k, hk⟩ := ih (m := 2 * m) (by omega) (by omega)
          exact ⟨k, by rw [hk, pow_succ']; ring⟩
  · refine ⟨_, (units_of_mantissa (m := 2 ^ 23) (s := s + 1) (by norm_num) (.inl le_rfl)).trans ?_⟩
    rw [pow_succ' 2 s]
    ring

theorem units_infinityIndex : units infinityIndex = 2 ^ 23 * 2 ^ 254 :=
  units_of_mantissa (m := 2 ^ 23) (s := 254) (by norm_num) (.inl le_rfl)

theorem grid_infinityIndex : grid infinityIndex = 2 ^ 128 := by
  rw [grid_natCast, units_infinityIndex]
  norm_num

/-- The finite values. -/
def OnGrid (q : ℚ) : Prop :=
  ∃ k : ℤ, k.natAbs < infinityIndex ∧ grid k = q

theorem OnGrid.grid_nearest {q : ℚ} (h : OnGrid q) : grid (nearest q) = q := by
  obtain ⟨k, hk, rfl⟩ := h
  rw [nearest_grid hk.le]

theorem OnGrid.natAbs_nearest_lt {q : ℚ} (h : OnGrid q) : (nearest q).natAbs < infinityIndex := by
  obtain ⟨k, hk, rfl⟩ := h
  rwa [nearest_grid hk.le]

theorem OnGrid.neg {q : ℚ} (h : OnGrid q) : OnGrid (-q) := by
  obtain ⟨k, hk, rfl⟩ := h
  exact ⟨-k, by rwa [Int.natAbs_neg], grid_neg k⟩

theorem onGrid_of_mantissa {m : ℕ} (hm : m ≤ 2 ^ 24) {s : ℕ} (hs : s ≤ 252) :
    OnGrid (m * 2 ^ s / 2 ^ 149) := by
  obtain ⟨k, hk⟩ := exists_units hm s
  have hlt : units k < units infinityIndex := by
    rw [hk, units_infinityIndex]
    calc m * 2 ^ s ≤ 2 ^ 24 * 2 ^ 252 :=
          Nat.mul_le_mul hm (Nat.pow_le_pow_right (by norm_num) hs)
      _ < 2 ^ 23 * 2 ^ 254 := by norm_num
  refine ⟨k, units_strictMono.lt_iff_lt.mp hlt, ?_⟩
  rw [grid_natCast, hk]
  push_cast
  rfl

theorem onGrid_natCast {n : ℕ} (hn : n ≤ 2 ^ 24) : OnGrid n := by
  have h := onGrid_of_mantissa hn (s := 149) (by norm_num)
  rwa [mul_div_cancel_right₀ _ (by positivity)] at h

theorem onGrid_intCast {z : ℤ} (hz : z.natAbs ≤ 2 ^ 24) : OnGrid z := by
  obtain ⟨n, rfl | rfl⟩ := z.eq_nat_or_neg
  · exact onGrid_natCast (by omega)
  · rw [Int.cast_neg, Int.cast_natCast]
    exact (onGrid_natCast (by omega)).neg

theorem onGrid_add_half {n : ℕ} (hn : n < 2 ^ 23) : OnGrid (n + 1 / 2) := by
  have h := onGrid_of_mantissa (m := 2 * n + 1) (by omega) (s := 148) (by norm_num)
  have e : ((2 * n + 1 : ℕ) : ℚ) * 2 ^ 148 / 2 ^ 149 = n + 1 / 2 := by
    push_cast
    ring
  rwa [e] at h

theorem natAbs_nearest_lt_of_abs_le {q r : ℚ} (h : |q| ≤ r)
    (hr : (nearest r).natAbs < infinityIndex) : (nearest q).natAbs < infinityIndex := by
  obtain ⟨hl, hu⟩ := abs_le.mp h
  have hl := nearest_mono hl
  have hu := nearest_mono hu
  rw [nearest_neg] at hl
  omega

theorem natAbs_nearest_lt {q : ℚ} (h : |q| ≤ 2 ^ 127) : (nearest q).natAbs < infinityIndex := by
  have hg : OnGrid (2 ^ 127) := by
    have h := onGrid_of_mantissa (m := 2 ^ 24) le_rfl (s := 252) le_rfl
    norm_num at h ⊢
    exact h
  exact natAbs_nearest_lt_of_abs_le h hg.natAbs_nearest_lt

/-- Different values do not have a difference that rounds to zero. -/
theorem nearest_sub_pos {k l : ℤ} (h : l < k) : 0 < nearest (grid k - grid l) := by
  have hlt := grid_strictMono h
  have hone : grid 1 ≤ grid k - grid l := by
    have e1 : grid 1 = 1 / 2 ^ 149 := by
      have := grid_natCast 1
      rwa [units_one, Nat.cast_one, Nat.cast_one] at this
    unfold grid at hlt
    rw [e1]
    unfold grid
    rw [← sub_div, div_le_div_iff_of_pos_right (by positivity)]
    rw [div_lt_div_iff_of_pos_right (by positivity)] at hlt
    have hz : l.sign * units l.natAbs < k.sign * units k.natAbs := by exact_mod_cast hlt
    have hz' : l.sign * units l.natAbs + 1 ≤ k.sign * units k.natAbs := hz
    have : (l.sign * units l.natAbs : ℚ) + 1 ≤ k.sign * units k.natAbs := by exact_mod_cast hz'
    linarith
  have := nearest_mono hone
  rw [nearest_grid (by decide)] at this
  omega

end DriveOverlay.Single
