import PocketLisp.Decimal.Basic

/-!
# Shortest decimals

`Decimal.shortest x` is the decimal with the fewest digits that reads back as the double `x`,
and among those with equally many digits the nearest to `x`.

A grid is the set of multiples of one power of ten.  The two neighbours of `x` on a grid are
the only candidates there, because whatever lies further away reads back as `x` only if the
neighbour on its side does.  Grids are tried from the coarsest on, one more digit each time.
-/

namespace PocketLisp

namespace Decimal

/-- The nearest of the neighbours of `x` on the grid of `10 ^ exponent` that read back as `x`;
of two equally near ones the greater. -/
def onGrid? (x : Float) (exponent : Int) : Option Decimal :=
  let r := (Double.value x).inPowersOfTen exponent
  let below : Decimal := ⟨r.floor, exponent⟩
  let above : Decimal := ⟨r.floor + 1, exponent⟩
  if below.toFloat == x && (r.isBelowMiddle || above.toFloat != x) then some below
  else if above.toFloat == x then some above
  else none

/-- The exact value of a positive finite double, which has finitely many decimal places. -/
def exact (x : Float) : Decimal :=
  let (mantissa, exponent) := Double.parts x
  if 0 ≤ exponent then ⟨mantissa <<< exponent.toNat, 0⟩
  else ⟨mantissa * Nat.pow 5 exponent.natAbs, exponent⟩

/-- The shortest decimal that reads back as a positive finite double.  Seventeen digits always
suffice. -/
def shortest (x : Float) : Decimal :=
  let magnitude := (Double.value x).log10
  (((List.range 17).findSome? fun (places : Nat) => onGrid? x (magnitude - places)).getD
    (exact x)).normal

end Decimal

end PocketLisp
