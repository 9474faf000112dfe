import PocketLisp.Error

/-!
# Numbers

A `Number` is an integer or a float.  Integer arithmetic is exact or refused; as soon as one
operand is a float the operation is one of floats.
-/

namespace PocketLisp

/-- An integer or a float. -/
inductive Number where
  | integer (n : Int64)
  | float (x : Float)

namespace Number

/-- The value of a number. -/
def toValue : Number → Value
  | integer n => .integer n
  | float x => .float x

/-- The nearest float. -/
def toFloat : Number → Float
  | integer n => Double.ofInt n.toInt
  | float x => x

/-- An integer, if it is in the range of `Int64`. -/
def checked? (n : Int) : Option Int64 :=
  if Int64.minValue.toInt ≤ n ∧ n ≤ Int64.maxValue.toInt then some (Int64.ofInt n) else none

/-- The exact result of an operation on integers; division drops the fraction. -/
def exact (op : ArithmeticOp) (m n : Int) : Int :=
  match op with
  | .addition => m + n
  | .subtraction => m - n
  | .multiplication => m * n
  | .division => m.tdiv n

/-- The result of an operation on floats. -/
def rounded (op : ArithmeticOp) (x y : Float) : Float :=
  match op with
  | .addition => x + y
  | .subtraction => x - y
  | .multiplication => x * y
  | .division => x / y

/-- The result of an operation. -/
def apply (op : ArithmeticOp) : Number → Number → Except Error Number
  | integer m, integer n =>
    if op = .division ∧ n = 0 then .error (.ofEval .divisionByZero)
    else
      match checked? (exact op m.toInt n.toInt) with
      | some result => .ok (integer result)
      | none => .error (.ofEval (.overflow op))
  | a, b => .ok (float (rounded op a.toFloat b.toFloat))

/-- The four comparisons. -/
inductive Comparison where
  | less
  | lessOrEqual
  | greater
  | greaterOrEqual
deriving DecidableEq

/-- Whether two numbers stand in a relation.  Integers compare exactly, all else as floats. -/
def compares (relation : Comparison) : Number → Number → Bool
  | integer m, integer n =>
    match relation with
    | .less => m.toInt < n.toInt
    | .lessOrEqual => m.toInt ≤ n.toInt
    | .greater => n.toInt < m.toInt
    | .greaterOrEqual => n.toInt ≤ m.toInt
  | a, b =>
    match relation with
    | .less => a.toFloat < b.toFloat
    | .lessOrEqual => a.toFloat ≤ b.toFloat
    | .greater => b.toFloat < a.toFloat
    | .greaterOrEqual => b.toFloat ≤ a.toFloat

/-- Applies an operation from the left to a row of numbers. -/
def fold (op : ArithmeticOp) : Number → List Number → Except Error Number
  | value, [] => .ok value
  | value, n :: numbers => do fold op (← value.apply op n) numbers

/-- Whether each two neighbours stand in a relation. -/
def chained (relation : Comparison) : Number → List Number → Bool
  | _, [] => true
  | previous, n :: numbers => previous.compares relation n && chained relation n numbers

end Number

end PocketLisp
