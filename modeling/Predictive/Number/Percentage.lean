import Predictive.Number.Rounding

/-! A share as a percentage with two decimals. The quotient and its hundredfold are each rounded
to 53 bits before the decimals are. -/

set_option autoImplicit false

namespace Predictive.Number

/-- The hundredths of a percent in `part` of `total`; none of nothing. -/
def percentHundredths (part total : Nat) : Nat :=
  if total = 0 then 0
  else
    let share := Binary.nearest part total
    let percent := Binary.nearest (100 * share.numerator) share.denominator
    roundDiv (100 * percent.numerator) percent.denominator

def percentText (part total : Nat) : String :=
  let hundredths := percentHundredths part total
  toString (hundredths / 100) ++ "." ++ toString (hundredths / 10 % 10) ++
    toString (hundredths % 10)

end Predictive.Number
