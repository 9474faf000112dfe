import PocketLisp.Value.Basic

/-!
# Value types

A `ValueType` is what a native function may demand of an argument.  `Number` and `Sequence`
admit two kinds each, `Any` admits all.
-/

namespace PocketLisp

/-- A demand on the kind of an argument. -/
inductive ValueType where
  | any
  | integer
  | float
  /-- Integers and floats. -/
  | number
  | string
  | char
  | boolean
  | symbol
  | keyword
  /-- Lists and vectors. -/
  | sequence
  | map
deriving DecidableEq

namespace ValueType

/-- All value types, in their usual order. -/
def all : List ValueType :=
  [any, integer, float, number, string, char, boolean, symbol, keyword, sequence, map]

/-- Whether a value meets the demand. -/
def admits (type : ValueType) (v : Value) : Bool :=
  match type with
  | any => true
  | integer => v.kind == .integer
  | float => v.kind == .float
  | number => v.kind == .integer || v.kind == .float
  | string => v.kind == .string
  | char => v.kind == .char
  | boolean => v.kind == .boolean
  | symbol => v.kind == .symbol
  | keyword => v.kind == .keyword
  | sequence => v.kind == .list || v.kind == .vector
  | map => v.kind == .map

/-- The type in messages. -/
def text : ValueType → String
  | any => "any value"
  | integer => "integer"
  | float => "float"
  | number => "number"
  | string => "string"
  | char => "char"
  | boolean => "boolean"
  | symbol => "symbol"
  | keyword => "keyword"
  | sequence => "list or vector"
  | map => "map"

/-- The name of the type, for inspection. -/
def name : ValueType → String
  | any => "Any"
  | integer => "Integer"
  | float => "Float"
  | number => "Number"
  | string => "String"
  | char => "Char"
  | boolean => "Bool"
  | symbol => "Symbol"
  | keyword => "Keyword"
  | sequence => "Sequence"
  | map => "Map"

/-- The type of a name. -/
def ofName? (name : String) : Option ValueType :=
  all.find? (·.name == name)

end ValueType

end PocketLisp
