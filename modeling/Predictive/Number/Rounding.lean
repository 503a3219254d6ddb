/-! Rounding of quotients: to the nearest integer, and to the nearest number that has 53
significant bits. Ties go to the even neighbour. -/

set_option autoImplicit false

namespace Predictive.Number

/-- The integer nearest to a quotient. -/
def roundDiv (dividend divisor : Nat) : Nat :=
  let quotient := dividend / divisor
  let remainder := dividend % divisor
  if 2 * remainder < divisor then quotient
  else if divisor < 2 * remainder then quotient + 1
  else quotient + quotient % 2

/-- A power, which is one where the exponent is negative: the part of a power of either sign that
belongs above a fraction bar. -/
def power (base : Nat) (exponent : Int) : Nat :=
  Nat.pow base exponent.toNat

/-- The number `significand * 2 ^ exponent`. -/
structure Binary where
  significand : Nat
  exponent : Int
  deriving DecidableEq, Repr

namespace Binary

def numerator (value : Binary) : Nat :=
  value.significand * power 2 value.exponent

def denominator (value : Binary) : Nat :=
  power 2 (-value.exponent)

/-- The largest power of two that a positive quotient reaches. -/
def floorLog (dividend divisor : Nat) : Int :=
  let guess : Int := dividend.log2 - divisor.log2
  if divisor * power 2 guess ≤ dividend * power 2 (-guess) then guess else guess - 1

/-- The number nearest to a quotient among those with 53 significant bits, of which fewer are
left below the exponent -1074. What is rounded up to the next power of two moves to its
exponent. -/
def nearest (dividend divisor : Nat) : Binary :=
  let exponent : Int := max (floorLog dividend divisor - 52) (-1074)
  let significand := roundDiv (dividend * power 2 (-exponent)) (divisor * power 2 exponent)
  if significand = power 2 53 then ⟨power 2 52, exponent + 1⟩ else ⟨significand, exponent⟩

end Binary

end Predictive.Number
