/-! # Powers of two and of ten

The scales of binary and decimal numerals, as natural numbers. -/

namespace DriveOverlay

/-- The power of two with a given exponent. -/
def twoTo (n : Nat) : Nat := Nat.pow 2 n

/-- The power of ten with a given exponent. -/
def tenTo (n : Nat) : Nat := Nat.pow 10 n

@[simp] theorem tenTo_zero : tenTo 0 = 1 := rfl

end DriveOverlay
