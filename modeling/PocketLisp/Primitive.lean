import PocketLisp.Arity

/-!
# Primitives

The sixteen functions that every global scope binds.  Here stand their names and arities, in
the order of the table; what they compute is in `PocketLisp.Host.Primitive`.
-/

namespace PocketLisp

/-- A built-in function on evaluated arguments. -/
inductive Primitive where
  | add
  | subtract
  | multiply
  | divide
  | less
  | lessOrEqual
  | greater
  | greaterOrEqual
  | equal
  | list
  | not
  | first
  | rest
  | cons
  | count
  | str
deriving DecidableEq

namespace Primitive

/-- All primitives, in the order of the table. -/
def all : List Primitive :=
  [add, subtract, multiply, divide, less, lessOrEqual, greater, greaterOrEqual, equal, list, not,
    first, rest, cons, count, str]

/-- Every primitive is in the list of all. -/
theorem mem_all (p : Primitive) :
  p ∈ all
  := by
  cases p <;> simp [all]

/-- The name that a primitive is bound to. -/
def id : Primitive → String
  | add => "+"
  | subtract => "-"
  | multiply => "*"
  | divide => "/"
  | less => "<"
  | lessOrEqual => "<="
  | greater => ">"
  | greaterOrEqual => ">="
  | equal => "="
  | list => "list"
  | not => "not"
  | first => "first"
  | rest => "rest"
  | cons => "cons"
  | count => "count"
  | str => "str"

/-- No two primitives have one name. -/
theorem id_injective {p q : Primitive} (h : p.id = q.id) :
  p = q
  := by
  cases p <;> cases q <;> simp_all [id]

/-- How many arguments a primitive takes, as the table of primitives has it. -/
def arity : Primitive → Arity
  | add | multiply | list | str => .any
  | subtract | divide | less | lessOrEqual | greater | greaterOrEqual | equal => .atLeast 1
  | not | first | rest | count => .exact 1
  | cons => .exact 2

/-- The primitive of a name. -/
def ofId? (name : String) : Option Primitive :=
  all.find? (·.id == name)

/-- The primitive as a record, for inspection. -/
def inspect (p : Primitive) : String :=
  "BuiltinOp \x7b id: \"" ++ p.id ++ "\", arity: " ++ p.arity.inspect ++ ", .. \x7d"

end Primitive

end PocketLisp
