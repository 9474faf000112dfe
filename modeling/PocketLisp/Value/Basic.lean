import PocketLisp.Primitive
import PocketLisp.SpecialForm

/-!
# Values

A `Value` is at once a datum and an expression: the reader produces values and the evaluator
takes them.  Lists, vectors and maps are three kinds of collection, and there are four kinds of
callable.  Procedures and native functions have an identity; everything else is plain data.
-/

namespace PocketLisp

/-- A handle of a scope in a store. -/
structure ScopeId where
  index : Nat
deriving DecidableEq

/-- A user-defined procedure over values of type `α`: parameters, body and captured scope.  Its
identity tells it from every other procedure made in the same store. -/
structure Closure (α : Type) where
  identity : Nat
  name : Option String
  params : List String
  body : List α
  scope : ScopeId

/-- A handle of a native function in a store, with the name it was registered under. -/
structure NativeId where
  index : Nat
  name : String
deriving DecidableEq

/-- A datum or an expression. -/
inductive Value where
  | integer (n : Int64)
  | float (x : Float)
  | string (s : String)
  | char (c : Char)
  | boolean (b : Bool)
  /-- The absent value, which is not the empty list. -/
  | nil
  | symbol (name : String)
  /-- A tag that evaluates to itself; the name stands without the colon. -/
  | keyword (name : String)
  | list (items : List Value)
  | vector (items : List Value)
  /-- Pairs of keys and values in insertion order. -/
  | map (entries : List (Value × Value))
  | procedure (p : Closure Value)
  | primitive (p : Primitive)
  | specialForm (form : SpecialForm)
  | native (n : NativeId)

/-- The kinds of value. -/
inductive Kind where
  | integer
  | float
  | string
  | char
  | boolean
  | nil
  | symbol
  | keyword
  | list
  | vector
  | map
  | procedure
  | primitive
  | specialForm
  | native
deriving DecidableEq

/-- The name of a kind in messages. -/
def Kind.text : Kind → String
  | integer => "integer"
  | float => "float"
  | string => "string"
  | char => "char"
  | boolean => "boolean"
  | nil => "nil"
  | symbol => "symbol"
  | keyword => "keyword"
  | list => "list"
  | vector => "vector"
  | map => "map"
  | procedure => "procedure"
  | primitive => "primitive"
  | specialForm => "special-form"
  | native => "native"

/-- A user-defined procedure. -/
abbrev Procedure := Closure Value

namespace Value

instance : Inhabited Value := ⟨nil⟩

def kind : Value → Kind
  | integer _ => .integer
  | float _ => .float
  | string _ => .string
  | char _ => .char
  | boolean _ => .boolean
  | nil => .nil
  | symbol _ => .symbol
  | keyword _ => .keyword
  | list _ => .list
  | vector _ => .vector
  | map _ => .map
  | procedure _ => .procedure
  | primitive _ => .primitive
  | specialForm _ => .specialForm
  | native _ => .native

/-- Whether a value counts as true in a condition: all but `false` and `nil` do. -/
def truthy : Value → Bool
  | boolean false => false
  | nil => false
  | _ => true

def isNil : Value → Bool
  | nil => true
  | _ => false

/-- The elements of a list or a vector. -/
def sequence? : Value → Option (List Value)
  | list items => some items
  | vector items => some items
  | _ => none

end Value

end PocketLisp
