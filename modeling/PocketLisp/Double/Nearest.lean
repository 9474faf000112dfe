import PocketLisp.Double.Ratio

/-!
# Doubles as exact numbers

A positive finite double is a mantissa below `2 ^ 53` times a power of two; `Double.value` is
that number.  In the other direction `Double.nearest` rounds a ratio, a tie going to the even
mantissa.
-/

namespace PocketLisp.Double

/-- The exponent of the least positive double, a power of two. -/
def leastExponent : Int := -1074

/-- The exponent of the greatest finite doubles, whose mantissas have 53 bits. -/
def greatestExponent : Int := 971

/-- The mantissa and the exponent of a positive finite double.  The mantissa has 53 bits unless
the exponent is the least. -/
def parts (x : Float) : Nat × Int :=
  let bits := x.toBits.toNat
  let fraction := bits % (1 <<< 52)
  let biased := bits >>> 52
  if biased = 0 then (fraction, leastExponent)
  else ((1 <<< 52) + fraction, Int.ofNat biased - 1 + leastExponent)

/-- The value of a positive finite double. -/
def value (x : Float) : Ratio :=
  let (mantissa, exponent) := parts x
  (Ratio.mk mantissa 1).inPowersOfTwo (-exponent)

/-- The double of a mantissa and an exponent.  Its bits are a sum, because a mantissa of 53 bits
counts one up in the exponent field, and one that rounding has taken to `2 ^ 53` counts two. -/
def ofParts (mantissa : Nat) (exponent : Int) : Float :=
  Float.ofBits (((exponent - leastExponent).toNat <<< 52) + mantissa).toUInt64

/-- The nearest double. -/
def nearest (r : Ratio) : Float :=
  if r.numerator = 0 then 0.0
  else
    let exponent := max (r.log2 - 52) leastExponent
    if greatestExponent < exponent then 1.0 / 0.0
    else ofParts (r.inPowersOfTwo exponent).round exponent

/-- The nearest double of an integer. -/
def ofInt (n : Int) : Float :=
  let magnitude := nearest ⟨n.natAbs, 1⟩
  if n < 0 then -magnitude else magnitude

end PocketLisp.Double
