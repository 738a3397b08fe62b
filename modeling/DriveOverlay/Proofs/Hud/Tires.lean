import DriveOverlay.Hud.Diagnostics
import DriveOverlay.Proofs.Single.Extremes

/-! # Tires that differ

The check takes the least and the greatest of all finite pressures, from infinite starts, and
compares their rounded difference.  Rounding keeps the order of differences, so that the greatest
less the least exceeds the limit as soon as any two pressures do; and two pressures neither depend on
the order nor on what else is in the list.

* `areOutOfBalance_iff`: what the check says, by two pressures;
* `areOutOfBalance_of_finite_subset`: more finite pressures never restore the balance;
* `balance_law`: what does not matter to the check, and what can only turn it on. -/

namespace DriveOverlay

open Single

variable {pressures : List Float32}

theorem value_lt_of_imbalance {p q : Float32} (hp : p.isFinite = true) (hq : q.isFinite = true)
    (h : imbalance < p - q) : value q < value p := by
  by_contra hle
  have hnonpos : index (p - q) ≤ index (q - q) :=
    index_sub_le_sub hp hq hq hq (not_lt.mp hle) le_rfl
  have hlimit : index 0 < index imbalance := by decide
  have hzero : index 0 = 0 := by decide
  have hlt := (lt_iff.mp h).2.2
  rw [index_sub hq hq, sub_self, nearest_zero] at hnonpos
  omega

/-- Tires are out of balance exactly when two finite pressures differ by more than the limit. -/
theorem areOutOfBalance_iff : areOutOfBalance pressures = true ↔
    ∃ p ∈ pressures, ∃ q ∈ pressures, p.isFinite = true ∧ q.isFinite = true ∧
      imbalance < p - q := by
  unfold areOutOfBalance
  obtain ⟨finite, hfinite⟩ : ∃ finite, pressures.filter Float32.isFinite = finite := ⟨_, rfl⟩
  have hmem : ∀ p, p ∈ finite ↔ p ∈ pressures ∧ p.isFinite = true := by
    intro p
    rw [← hfinite, List.mem_filter]
  simp only [hfinite, Bool.and_eq_true, decide_eq_true_eq]
  by_cases hne : finite = []
  · -- the infinities that the folds start with are the wrong way around
    subst hne
    have hstart : ¬infinity < -infinity := by decide
    constructor
    · rintro ⟨h, -⟩
      exact absurd h hstart
    · rintro ⟨p, hp, -, -, hfp, -⟩
      exact absurd ((hmem p).mpr ⟨hp, hfp⟩) List.not_mem_nil
  · have hall : ∀ p ∈ finite, p.isFinite = true := fun p hp => ((hmem p).mp hp).2
    obtain ⟨hleast, hle⟩ := least_spec hall hne
    obtain ⟨hmost, hge⟩ := greatest_spec hall hne
    generalize finite.foldl lower infinity = least at hleast hle
    generalize finite.foldl upper (-infinity) = most at hmost hge
    obtain ⟨hlm, hlf⟩ := (hmem least).mp hleast
    obtain ⟨hmm, hmf⟩ := (hmem most).mp hmost
    constructor
    · rintro ⟨-, h⟩
      exact ⟨most, hmm, least, hlm, hmf, hlf, h⟩
    · rintro ⟨p, hp, q, hq, hfp, hfq, h⟩
      have hlq := hle q ((hmem q).mpr ⟨hq, hfq⟩)
      have hpm := hge p ((hmem p).mpr ⟨hp, hfp⟩)
      have hqp := value_lt_of_imbalance hfp hfq h
      obtain ⟨hn, -, hlt⟩ := lt_iff.mp h
      constructor
      · rw [lt_iff_value (isNaN_of_isFinite hlf) (isNaN_of_isFinite hmf)]
        exact hlq.trans_lt (hqp.trans_le hpm)
      · exact lt_iff.mpr ⟨hn, isNaN_sub (isNaN_of_isFinite hmf) hlf,
          hlt.trans_le (index_sub_le_sub hfp hmf hfq hlf hpm hlq)⟩

/-- More finite pressures never restore the balance. -/
theorem areOutOfBalance_of_finite_subset {others : List Float32}
    (h : ∀ p ∈ pressures, p.isFinite = true → p ∈ others) (hout : areOutOfBalance pressures = true) :
    areOutOfBalance others = true := by
  obtain ⟨p, hp, q, hq, hfp, hfq, hlt⟩ := areOutOfBalance_iff.mp hout
  exact areOutOfBalance_iff.mpr ⟨p, h p hp hfp, q, h q hq hfq, hfp, hfq, hlt⟩

theorem areOutOfBalance_congr {others : List Float32}
    (h : ∀ p : Float32, p.isFinite = true → (p ∈ pressures ↔ p ∈ others)) :
    areOutOfBalance others = areOutOfBalance pressures := by
  rw [Bool.eq_iff_iff]
  constructor
  · exact areOutOfBalance_of_finite_subset fun p hp hf => (h p hf).mpr hp
  · exact areOutOfBalance_of_finite_subset fun p hp hf => (h p hf).mp hp

/-- For every list of pressures, with NaN and infinities: the tires are out of balance exactly when
two finite pressures have a rounded difference of more than three.  The order does not matter, nor do
an entry that is not finite and one that is there already, wherever they are put in or taken out; and
a finite entry can only turn the check on. -/
theorem balance_law (pressures : List Float32) :
    (areOutOfBalance pressures = true ↔ ∃ p ∈ pressures, ∃ q ∈ pressures,
      p.isFinite = true ∧ q.isFinite = true ∧ 3 < p - q) ∧
    (∀ others, pressures.Perm others → areOutOfBalance others = areOutOfBalance pressures) ∧
    ∀ before after, before ++ after = pressures → ∀ p : Float32,
      (p.isFinite = false ∨ p ∈ pressures →
        areOutOfBalance (before ++ p :: after) = areOutOfBalance pressures) ∧
      (areOutOfBalance pressures = true → areOutOfBalance (before ++ p :: after) = true) := by
  refine ⟨areOutOfBalance_iff, ?_, ?_⟩
  · intro others h
    exact areOutOfBalance_congr fun p _ => h.mem_iff
  · rintro before after rfl p
    have hinsert (q : Float32) : q ∈ before ++ p :: after ↔ q = p ∨ q ∈ before ++ after := by
      simp only [List.mem_append, List.mem_cons]
      tauto
    constructor
    · intro hp
      apply areOutOfBalance_congr
      intro q hq
      rw [hinsert]
      refine ⟨.inr, ?_⟩
      rintro (rfl | hm)
      · rcases hp with hp | hp
        · rw [hp] at hq
          cases hq
        · exact hp
      · exact hm
    · exact areOutOfBalance_of_finite_subset fun q hq _ => (hinsert q).mpr (.inr hq)

/-- Three pounds apart is in balance; a tire that reads NaN does not change that, and one of
35 pounds does. -/
theorem balance_law_fourTires :
    areOutOfBalance [31, 32, 33, 34] = false ∧
      areOutOfBalance [31, 32, Float32.ofBits 0x7fc00000, 33, 34] = false ∧
      areOutOfBalance [31, 32, 35, 33, 34] = true := by
  obtain ⟨-, -, hinsert⟩ := balance_law [31, 32, 33, 34]
  obtain ⟨hiff, -⟩ := balance_law [31, 32, 35, 33, 34]
  have hbalance : areOutOfBalance [31, 32, 33, 34] = false := by decide +kernel
  have hnan := (hinsert [31, 32] [33, 34] rfl (.ofBits 0x7fc00000)).1 (.inl (by decide))
  refine ⟨hbalance, hnan.trans hbalance, ?_⟩
  exact hiff.mpr ⟨35, by simp, 31, by simp, by decide, by decide, by decide +kernel⟩

end DriveOverlay
