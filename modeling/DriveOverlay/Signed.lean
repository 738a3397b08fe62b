/-! # Coordinates in 32 bits

Coordinates are numbers of 32 bits with a sign.  A sum or a product that leaves their range goes on
from its other end. -/

namespace DriveOverlay

/-- The number of 32 bits that a number comes to. -/
def signed32 (z : Int) : Int :=
  z.bmod 4294967296

/-- The number is one of 32 bits. -/
def IsSigned32 (z : Int) : Prop :=
  -2147483648 ≤ z ∧ z < 2147483648

instance (z : Int) : Decidable (IsSigned32 z) :=
  inferInstanceAs (Decidable (_ ∧ _))

theorem signed32_of_isSigned32 {z : Int} (h : IsSigned32 z) : signed32 z = z := by
  unfold IsSigned32 at h
  exact Int.bmod_eq_of_le_mul_two (by omega) (by omega)

theorem signed32_add_period (z : Int) : signed32 (z + 4294967296) = signed32 z :=
  Int.add_bmod_right ..

theorem signed32_le {z : Int} (h : -2147483648 ≤ z) : signed32 z ≤ z := by
  have hlow := Int.le_bmod (x := z) (m := 4294967296) (by omega)
  have hdef := Int.bmod_def z 4294967296
  unfold signed32
  split at hdef <;> omega

end DriveOverlay
