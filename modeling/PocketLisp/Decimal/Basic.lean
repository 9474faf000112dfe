import PocketLisp.Double.Nearest

/-!
# Decimals

A `Decimal` is an exact number with finitely many decimal places.  `Decimal.toFloat` is the
double nearest to it; it depends on the number only, and not on how many trailing zeros the
digits have.
-/

namespace PocketLisp

/-- The number `digits * 10 ^ exponent`. -/
structure Decimal where
  digits : Nat
  exponent : Int
deriving DecidableEq

namespace Decimal

/-- Moves trailing zeros of the digits into the exponent, at most `fuel` of them. -/
def stripZeros : (fuel : Nat) → (digits : Nat) → (exponent : Int) → Decimal
  | 0, digits, exponent => ⟨digits, exponent⟩
  | fuel + 1, digits, exponent =>
    if digits % 10 = 0 then stripZeros fuel (digits / 10) (exponent + 1) else ⟨digits, exponent⟩

/-- The same number with digits that do not end in zero; zero itself has exponent zero. -/
def normal (d : Decimal) : Decimal :=
  if d.digits = 0 then ⟨0, 0⟩ else stripZeros d.digits d.digits d.exponent

/-- The digits as characters. -/
def digitChars (d : Decimal) : List Char :=
  Nat.toDigits 10 d.digits

/-- The place of the point: how many digits stand before it.  It is negative when zeros stand
between the point and the first digit. -/
def point (d : Decimal) : Int :=
  d.digitChars.length + d.exponent

/-- The value of a decimal. -/
def value (d : Decimal) : Ratio :=
  (Ratio.mk d.digits 1).inPowersOfTen (-d.exponent)

/-- The nearest double.  The greatest finite one is below `10 ^ 309` and half of the least
positive one is above `10 ^ (-324)`, so that beyond those bounds nothing has to be computed. -/
def toFloat (d : Decimal) : Float :=
  let n := d.normal
  if n.digits = 0 then 0.0
  else if 309 < n.point then 1.0 / 0.0
  else if n.point < -323 then 0.0
  else Double.nearest n.value

end Decimal

end PocketLisp
