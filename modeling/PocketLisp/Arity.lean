/-!
# Arities

An `Arity` says which argument counts an operation accepts.
-/

namespace PocketLisp

/-- The argument counts that an operation accepts. -/
inductive Arity where
  | exact (count : Nat)
  | atLeast (least : Nat)
  /-- Both bounds are accepted. -/
  | range (least greatest : Nat)
  /-- Zero is even. -/
  | even
  | any
deriving DecidableEq

namespace Arity

/-- Whether `count` arguments are accepted. -/
def accepts : Arity → Nat → Bool
  | exact n, count => count == n
  | atLeast n, count => n ≤ count
  | range least greatest, count => least ≤ count && count ≤ greatest
  | even, count => count % 2 == 0
  | any, _ => true

/-- Exactly so many are accepted. -/
@[simp]
theorem accepts_exact_iff {n count : Nat} :
  (exact n).accepts count ↔ count = n
  := by
  simp [accepts]

/-- So many and more are accepted. -/
@[simp]
theorem accepts_atLeast_iff {n count : Nat} :
  (atLeast n).accepts count ↔ n ≤ count
  := by
  simp [accepts]

/-- What is between the bounds is accepted. -/
@[simp]
theorem accepts_range_iff {least greatest count : Nat} :
  (range least greatest).accepts count ↔ least ≤ count ∧ count ≤ greatest
  := by
  simp [accepts]

/-- Even numbers are accepted. -/
@[simp]
theorem accepts_even_iff {count : Nat} :
  even.accepts count ↔ count % 2 = 0
  := by
  simp [accepts]

/-- Any number is accepted. -/
@[simp]
theorem accepts_any (count : Nat) :
  any.accepts count
  := rfl

/-- The accepted counts in words, as they stand before "arguments" in a message. -/
def text : Arity → String
  | exact n => toString n
  | atLeast n => "at least " ++ toString n
  | range least greatest => toString least ++ " to " ++ toString greatest
  | even => "an even number of"
  | any => "any number of"

/-- The arity as a term, for inspection. -/
def inspect : Arity → String
  | exact n => "Exact(" ++ toString n ++ ")"
  | atLeast n => "AtLeast(" ++ toString n ++ ")"
  | range least greatest => "Range(" ++ toString least ++ ", " ++ toString greatest ++ ")"
  | even => "Even"
  | any => "Any"

end Arity

end PocketLisp
