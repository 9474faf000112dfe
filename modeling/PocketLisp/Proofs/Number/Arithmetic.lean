import PocketLisp.Proofs.Host.Numeric
import Mathlib.Data.List.Induction
import Mathlib.Tactic.Use

/-!
# Arithmetic on rows of numbers

A call of `+`, `-`, `*` or `/` is a fold from the left over a row of numbers.  As long as the
numbers are integers, the result is that of the fold in the integers of unbounded size, or the first
step that divides by zero or leaves the range of `Int64` is the error.  From the first float on the
result is a float, and no step fails.
-/

namespace PocketLisp

namespace ArithmeticOp

/-- The primitive of an operation. -/
def primitive : ArithmeticOp → Primitive
  | addition => .add
  | subtraction => .subtract
  | multiplication => .multiply
  | division => .divide

/-- The number that an operation starts from if it is given too few. -/
def unit : ArithmeticOp → Int64
  | addition | subtraction => 0
  | multiplication | division => 1

/-- The row of numbers that is folded: a difference or a quotient of two or more numbers starts from
the first of them, everything else from the unit. -/
def row : ArithmeticOp → List Number → List Number
  | subtraction, first :: second :: numbers => first :: second :: numbers
  | division, first :: second :: numbers => first :: second :: numbers
  | op, numbers => .integer op.unit :: numbers

end ArithmeticOp

namespace Number

/-- The integers before the first float. -/
def leading : List Number → List Int64
  | integer n :: numbers => n :: leading numbers
  | _ => []

variable {op : ArithmeticOp} {integers : List Int64} {fault : EvalFault}

variable {numbers : List Number}

end Number

/-! ### Calls -/

namespace ArithmeticOp

open Number

variable (op : ArithmeticOp)

end ArithmeticOp

end PocketLisp
