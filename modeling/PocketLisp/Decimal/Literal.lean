import PocketLisp.Decimal.Basic

/-!
# Number literals

`integer?` and `float?` say which texts are numbers.  An integer is an optional sign and
digits, within the range of `Int64`.  A float is an optional sign and either a decimal, with
digits on at least one side of an optional point and an optional exponent, or one of the names
of infinity and not-a-number.

Two limits hold for long floats.  The exponent is bounded: beyond `exponentBound` its further
digits count for nothing, which shows only where tens of thousands of other digits make up for
the exponent.  Of the other digits `significantLimit` are kept, which never shows: the middle
between two neighbouring doubles has fewer, so that a number with more is on the same side of
it whatever the digits beyond the limit are, as long as it is known whether all of them are zero.
-/

namespace PocketLisp.Literal

/-- Why a text is no integer. -/
inductive IntegerFault where
  | empty
  | invalidDigit
  | tooLarge
  | tooSmall
deriving DecidableEq

namespace IntegerFault

def text : IntegerFault → String
  | empty => "cannot parse integer from empty string"
  | invalidDigit => "invalid digit found in string"
  | tooLarge => "number too large to fit in target type"
  | tooSmall => "number too small to fit in target type"

end IntegerFault

/-- The value of a decimal digit. -/
def digit? (c : Char) : Option Nat :=
  if c.isDigit then some (c.toNat - '0'.toNat) else none

/-- Reads digits after the ones that gave `value`.  The first fault from the left counts, and
a digit that leaves the range is one. -/
def integerFrom (negative : Bool) : (value : Int) → List Char → Except IntegerFault Int
  | value, [] => .ok value
  | value, c :: text =>
    match digit? c with
    | none => .error .invalidDigit
    | some d =>
      let next := if negative then value * 10 - d else value * 10 + d
      if next < Int64.minValue.toInt then .error .tooSmall
      else if Int64.maxValue.toInt < next then .error .tooLarge
      else integerFrom negative next text

/-- The integer that a text denotes. -/
def integer? : List Char → Except IntegerFault Int64
  | [] => .error .empty
  | ['+'] | ['-'] => .error .invalidDigit
  | '+' :: text => (integerFrom false 0 text).map Int64.ofInt
  | '-' :: text => (integerFrom true 0 text).map Int64.ofInt
  | text => (integerFrom false 0 text).map Int64.ofInt

/-- Why a text is no float. -/
inductive FloatFault where
  | empty
  | invalid
deriving DecidableEq

namespace FloatFault

def text : FloatFault → String
  | empty => "cannot parse float from empty string"
  | invalid => "invalid float literal"

end FloatFault

/-- An exponent this great has taken in all the digits that it is going to. -/
def exponentBound : Nat := 65536

/-- Reads digits of an exponent after the ones that gave `value`.  As soon as the exponent has
reached its bound, further digits are passed over. -/
def exponentFrom : (value : Nat) → List Char → Option Nat
  | value, [] => some value
  | value, c :: text =>
    match digit? c with
    | none => none
    | some d => exponentFrom (if value < exponentBound then value * 10 + d else value) text

/-- The magnitude of an exponent, which has at least one digit. -/
def magnitude? : List Char → Option Nat
  | [] => none
  | digits => exponentFrom 0 digits

/-- The exponent after the digits of a decimal; none stands for zero. -/
def exponent? : List Char → Option Int
  | [] => some 0
  | mark :: text =>
    if mark = 'e' || mark = 'E' then
      match text with
      | '-' :: digits => (magnitude? digits).map fun n => -(n : Int)
      | '+' :: digits => (magnitude? digits).map (↑·)
      | digits => (magnitude? digits).map (↑·)
    else none

/-- How many digits of a decimal are kept, from the first that is not zero.  The middle between
two neighbouring doubles has at most 768 digits. -/
def significantLimit : Nat := 800

/-- A decimal of these digits, with the same nearest double.  Beyond the limit one digit stands
for all, which is zero only if they all are. -/
def ofSignificant (digits : List Char) (exponent : Int) : Decimal :=
  let digits := digits.dropWhile (· == '0')
  let kept := digits.take significantLimit
  match digits.drop significantLimit with
  | [] => ⟨Nat.ofDigitChars 10 kept 0, exponent⟩
  | beyond =>
    let last := if beyond.all (· == '0') then '0' else '1'
    ⟨Nat.ofDigitChars 10 (kept ++ [last]) 0, exponent + beyond.length - 1⟩

/-- The decimal that an unsigned text denotes, its digits kept up to `significantLimit`. -/
def decimal? (text : List Char) : Option Decimal :=
  let whole := text.takeWhile Char.isDigit
  let afterWhole := text.dropWhile Char.isDigit
  let (fraction, afterFraction) :=
    match afterWhole with
    | '.' :: rest => (rest.takeWhile Char.isDigit, rest.dropWhile Char.isDigit)
    | rest => ([], rest)
  if whole.isEmpty && fraction.isEmpty then none
  else
    (exponent? afterFraction).map fun exponent =>
      ofSignificant (whole ++ fraction) (exponent - fraction.length)

/-- The value of a name, in letters of either case. -/
def named? (text : List Char) : Option Float :=
  match String.ofList (text.map Char.toLower) with
  | "inf" | "infinity" => some (1.0 / 0.0)
  | "nan" => some (0.0 / 0.0)
  | _ => none

/-- The float that an unsigned text denotes. -/
def unsigned? (text : List Char) : Option Float :=
  match decimal? text with
  | some d => some d.toFloat
  | none => named? text

/-- The float that a text denotes. -/
def float? (text : List Char) : Except FloatFault Float :=
  let value? :=
    match text with
    | '-' :: rest => (unsigned? rest).map Float.neg
    | '+' :: rest => unsigned? rest
    | rest => unsigned? rest
  match text, value? with
  | [], _ => .error .empty
  | _, some x => .ok x
  | _, none => .error .invalid

end PocketLisp.Literal
