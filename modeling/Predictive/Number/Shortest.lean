import Predictive.Number.Rounding

/-! Real numbers with 53 significant bits, and the shortest decimal text that reads back as such a
number. -/

set_option autoImplicit false

namespace Predictive.Number

inductive Real where
  | nan
  | infinite (negative : Bool)
  | finite (negative : Bool) (magnitude : Binary)
  deriving DecidableEq, Repr

namespace Real

/-- The number nearest to `digits * 10 ^ exponent`; infinite from 2 ^ 1024 up. What is far beyond
either end of the range is settled without computing its power of ten. -/
def ofDecimal (negative : Bool) (digits : Nat) (exponent : Int) : Real :=
  let point := exponent + (toString digits).length
  if digits = 0 ∨ point < -400 then .finite negative ⟨0, -1074⟩
  else if 400 < point then .infinite negative
  else
    let magnitude := Binary.nearest (digits * power 10 exponent) (power 10 (-exponent))
    if magnitude.denominator * power 2 1024 ≤ magnitude.numerator then .infinite negative
    else .finite negative magnitude

def isZero : Real → Bool
  | .finite _ magnitude => magnitude.significand == 0
  | _ => false

end Real

/-- The largest power of ten that a positive quotient reaches. -/
def decimalExponent (dividend divisor : Nat) : Int :=
  if divisor ≤ dividend then (toString (dividend / divisor)).length - 1
  else
    let digits : Int := (toString (divisor / dividend)).length
    if divisor ≤ dividend * power 10 (digits - 1) then 1 - digits else -digits

/-- Whether a decimal is nearer to a number than to its neighbours. A decimal halfway belongs to
the number with the even significand. -/
def readsBack (value : Binary) (digits : Nat) (exponent : Int) : Bool :=
  let below := if value.significand = power 2 52 ∧ -1074 < value.exponent then 1 else 2
  let quarter : Binary := ⟨1, value.exponent - 2⟩
  let decimal := digits * power 10 exponent * quarter.denominator
  let unit := quarter.numerator * power 10 (-exponent)
  let low := (4 * value.significand - below) * unit
  let high := (4 * value.significand + 2) * unit
  if value.significand % 2 = 0 then low ≤ decimal && decimal ≤ high
  else low < decimal && decimal < high

/-- The first decimal that reads back, on grids of more and more digits from `count` on. -/
def shortestFrom (value : Binary) (leading : Int) : (fuel count : Nat) → Nat × Int
  | 0, _ => (0, 0)
  | fuel + 1, count =>
    let exponent := leading - count + 1
    let dividend := value.numerator * power 10 (-exponent)
    let divisor := value.denominator * power 10 exponent
    let nearest := roundDiv dividend divisor
    let floor := dividend / divisor
    let other := if nearest = floor then floor + 1 else floor
    if readsBack value nearest exponent then (nearest, exponent)
    else if readsBack value other exponent then (other, exponent)
    else shortestFrom value leading fuel (count + 1)

/-- The digits and exponent of the shortest decimal of a positive number; seventeen digits
always suffice. -/
def shortest (value : Binary) : Nat × Int :=
  shortestFrom value (decimalExponent value.numerator value.denominator) 17 1

def dropTrailingZeros (digits : List Char) : List Char :=
  (digits.reverse.dropWhile (· == '0')).reverse

/-- Digits behind the point that stands before the digit at `point`, counted from the first. The
positional form is used for a point from -3 to 16, the exponent form for all others. -/
def decimalText (digits : List Char) (point : Int) : List Char :=
  if -4 < point ∧ point ≤ 16 then
    if point ≤ 0 then ['0', '.'] ++ List.replicate (-point).toNat '0' ++ digits
    else
      let whole := digits.take point.toNat
      let padding := List.replicate (point.toNat - digits.length) '0'
      let rest := digits.drop point.toNat
      whole ++ padding ++ '.' :: (if rest = [] then ['0'] else rest)
  else
    let exponent := point - 1
    let size := (toString exponent.natAbs).toList
    let padded := if size.length < 2 then '0' :: size else size
    let rest := digits.drop 1
    digits.take 1 ++ (if rest = [] then [] else '.' :: rest) ++
      ['e', if exponent < 0 then '-' else '+'] ++ padded

def Real.text : Real → String
  | .nan => "nan"
  | .infinite negative => if negative then "-inf" else "inf"
  | .finite negative magnitude =>
    let sign := if negative then "-" else ""
    if magnitude.significand = 0 then sign ++ "0.0"
    else
      let (digits, exponent) := shortest magnitude
      let shown := (toString digits).toList
      sign ++ String.ofList (decimalText (dropTrailingZeros shown) (shown.length + exponent))

end Predictive.Number
