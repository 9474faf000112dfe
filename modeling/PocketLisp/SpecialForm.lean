import PocketLisp.Arity

/-!
# Special forms

The nine forms that receive their arguments unevaluated.  Here stand their names and arities,
in the order of the table; how they evaluate is in `PocketLisp.Eval.Form`.
-/

namespace PocketLisp

/-- A built-in form on unevaluated arguments. -/
inductive SpecialForm where
  | quote
  | sequence
  | define
  | lambda
  | defineProcedure
  | conditional
  | cond
  | and
  | or
deriving DecidableEq

namespace SpecialForm

/-- All special forms, in the order of the table. -/
def all : List SpecialForm :=
  [quote, sequence, define, lambda, defineProcedure, conditional, cond, and, or]

/-- Every special form is in the list of all. -/
theorem mem_all (form : SpecialForm) :
  form ∈ all
  := by
  cases form <;> simp [all]

/-- The name that a special form is bound to. -/
def id : SpecialForm → String
  | quote => "quote"
  | sequence => "do"
  | define => "def"
  | lambda => "fn"
  | defineProcedure => "defn"
  | conditional => "if"
  | cond => "cond"
  | and => "and"
  | or => "or"

/-- No two special forms have one name. -/
theorem id_injective {f g : SpecialForm} (h : f.id = g.id) :
  f = g
  := by
  cases f <;> cases g <;> simp_all [id]

/-- How many operands a special form takes, as the table of special forms has it. -/
def arity : SpecialForm → Arity
  | quote => .exact 1
  | sequence | and | or => .any
  | define => .exact 2
  | lambda => .atLeast 1
  | defineProcedure => .atLeast 2
  | conditional => .range 2 3
  | cond => .even

/-- The special form of a name. -/
def ofId? (name : String) : Option SpecialForm :=
  all.find? (·.id == name)

end SpecialForm

end PocketLisp
