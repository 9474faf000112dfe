import PocketLisp.Decimal.Shortest

/-!
# Layout of doubles

A double is written with the digits of its shortest decimal, either positionally, with a point
among the digits or after them, or scientifically, with one digit before the point and an
exponent.  A `FloatFormat` says which of the two.
-/

namespace PocketLisp

namespace Decimal

/-- The digits with a point among them; a whole number ends in `.0`. -/
def positional (d : Decimal) : List Char :=
  let digits := d.digitChars
  if d.point ≤ 0 then
    '0' :: '.' :: List.replicate d.point.natAbs '0' ++ digits
  else if digits.length ≤ d.point then
    digits ++ List.replicate (d.point.toNat - digits.length) '0' ++ ['.', '0']
  else
    digits.take d.point.toNat ++ '.' :: digits.drop d.point.toNat

/-- The first digit, the others after a point if there are any, and the exponent. -/
def scientific (d : Decimal) : List Char :=
  let exponent := ('e' :: (toString (d.point - 1)).toList)
  match d.digitChars with
  | [] => exponent
  | [digit] => digit :: exponent
  | digit :: digits => digit :: '.' :: digits ++ exponent

end Decimal

/-- The places of the point that are written positionally.  A missing bound does not bind. -/
structure FloatFormat where
  leastPoint : Option Int
  greatestPoint : Option Int

namespace FloatFormat

/-- Every double is written positionally. -/
def plain : FloatFormat := ⟨none, none⟩

/-- Doubles from `10 ^ (-4)` to below `10 ^ 16` are written positionally. -/
def compact : FloatFormat := ⟨some (-3), some 16⟩

/-- Whether a decimal is written positionally. -/
def isPositional (format : FloatFormat) (d : Decimal) : Bool :=
  format.leastPoint.all (· ≤ d.point) && format.greatestPoint.all (d.point ≤ ·)

/-- The text of a positive finite double. -/
def digitsOf (format : FloatFormat) (x : Float) : List Char :=
  let d := Decimal.shortest x
  if format.isPositional d then d.positional else d.scientific

/-- The text of a double. -/
def write (format : FloatFormat) (x : Float) : String :=
  if x.isNaN then "NaN"
  else
    let sign := if x.toBits >>> 63 = 1 then "-" else ""
    let magnitude := x.abs
    if magnitude.isInf then sign ++ "inf"
    else if magnitude == 0.0 then sign ++ "0.0"
    else sign ++ String.ofList (format.digitsOf magnitude)

end FloatFormat

end PocketLisp
