import PocketLisp.Proofs.Host.Primitive

/-!
# Primitives on numbers

Arithmetic and comparisons take numbers only.  Some of them convert the first argument by itself
and the others together, and some convert all of them together.  It comes to the same: a row of
numbers is taken as it stands, and in any other row the leftmost argument that is not a number is
the error, whatever the operation would have made of the numbers.
-/

namespace PocketLisp

namespace Payloads

variable {params : List ParamType}

/-- A row of numbers is taken as it stands. -/
theorem ofValues_numbers (numbers : List Number) :
  ofValues [] (some .number) (numbers.map Number.toValue) = .ok numbers
  := ElementType.payloads_eq_ok_iff.mpr rfl

/-- So it is if the first number is converted by itself. -/
theorem ofValues_first_numbers (first : Number) (numbers : List Number) :
  ofValues [.number] (some .number) ((first :: numbers).map Number.toValue) = .ok (first, numbers)
  := by
  rw [List.map_cons, ofValues, ofValues_numbers]
  cases first <;> rfl

end Payloads

namespace Primitive

variable {p : Primitive}

/-- Whether a primitive takes numbers only. -/
def isNumeric : Primitive → Bool
  | add | subtract | multiply | divide => true
  | less | lessOrEqual | greater | greaterOrEqual => true
  | _ => false

/-- The operations on numbers accept any arguments, if there are some. -/
theorem accepts_of_isNumeric (hp : p.isNumeric) {count : Nat} (hcount : 0 < count) :
  p.arity.accepts count
  := by
  cases p with
  | add | multiply => rfl
  | subtract | divide => apply decide_eq_true hcount
  | less | lessOrEqual | greater | greaterOrEqual => apply decide_eq_true hcount
  | _ => cases hp

end Primitive

end PocketLisp
