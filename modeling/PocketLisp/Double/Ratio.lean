/-!
# Ratios

A `Ratio` is a quotient of natural numbers, not necessarily reduced.  Here stand what exact
conversion between decimals and doubles needs of it: scaling by powers of two and of ten, the
exponent of the leading digit, and rounding.
-/

namespace PocketLisp

/-- The quotient of two natural numbers. -/
structure Ratio where
  numerator : Nat
  denominator : Nat

namespace Ratio

/-- The ratio divided by `2 ^ exponent`. -/
def inPowersOfTwo (r : Ratio) (exponent : Int) : Ratio :=
  if 0 ≤ exponent then ⟨r.numerator, r.denominator <<< exponent.toNat⟩
  else ⟨r.numerator <<< exponent.natAbs, r.denominator⟩

/-- The ratio divided by `10 ^ exponent`. -/
def inPowersOfTen (r : Ratio) (exponent : Int) : Ratio :=
  if 0 ≤ exponent then ⟨r.numerator, r.denominator * Nat.pow 10 exponent.toNat⟩
  else ⟨r.numerator * Nat.pow 10 exponent.natAbs, r.denominator⟩

/-- The greatest whole number that is not above the ratio. -/
def floor (r : Ratio) : Nat :=
  r.numerator / r.denominator

/-- Whether the ratio is below the middle between its floor and the next whole number. -/
def isBelowMiddle (r : Ratio) : Bool :=
  2 * (r.numerator % r.denominator) < r.denominator

/-- Whether the ratio is in the middle between its floor and the next whole number. -/
def isMiddle (r : Ratio) : Bool :=
  2 * (r.numerator % r.denominator) == r.denominator

/-- The nearest whole number, of two equally near ones the even one. -/
def round (r : Ratio) : Nat :=
  if r.isBelowMiddle || (r.isMiddle && r.floor % 2 == 0) then r.floor else r.floor + 1

/-- The exponent of the greatest power of two that is not above a positive ratio. -/
def log2 (r : Ratio) : Int :=
  let guess := Int.ofNat r.numerator.log2 - Int.ofNat r.denominator.log2
  if (r.inPowersOfTwo guess).floor = 0 then guess - 1 else guess

/-- The exponent of the greatest power of ten that is not above a ratio, if the ratio is at
least `10 ^ (-400)`. -/
def log10 (r : Ratio) : Int :=
  Int.ofNat (Nat.toDigits 10 (r.inPowersOfTen (-400)).floor).length - 401

end Ratio

end PocketLisp
