import PocketLisp.Value.Basic

/-!
# Equality of values

Two values are equal when they are of one kind and hold equal content.  Sequences compare
element by element, maps as sets of pairs whatever their order, floats as numbers, so that
not-a-number differs from itself, and callables by identity.
-/

namespace PocketLisp.Value

mutual

/-- Structural equality. -/
def equal : Value → Value → Bool
  | integer m, integer n => m == n
  | float x, float y => x == y
  | string s, string t => s == t
  | char c, char d => c == d
  | boolean a, boolean b => a == b
  | nil, nil => true
  | symbol s, symbol t => s == t
  | keyword s, keyword t => s == t
  | list xs, list ys => equalItems xs ys
  | vector xs, vector ys => equalItems xs ys
  | map x, map y => x.length == y.length && entriesIn x y
  | procedure p, procedure q => p.identity == q.identity
  | primitive p, primitive q => p == q
  | specialForm f, specialForm g => f == g
  | native m, native n => m.index == n.index
  | _, _ => false

/-- Equality of two rows of elements. -/
def equalItems : List Value → List Value → Bool
  | [], [] => true
  | x :: xs, y :: ys => equal x y && equalItems xs ys
  | _, _ => false

/-- Whether the first entry of `y` with an equal key has an equal value, for every entry of
the first map. -/
def entriesIn : List (Value × Value) → List (Value × Value) → Bool
  | [], _ => true
  | (key, value) :: x, y =>
    (match y.find? fun entry => equal key entry.1 with
      | some entry => equal value entry.2
      | none => false) &&
    entriesIn x y

end

/-- Whether two values are of one kind, whatever their content. -/
def sameKind (a b : Value) : Bool :=
  a.kind == b.kind

end PocketLisp.Value
