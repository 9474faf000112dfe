import PocketLisp.Host.Conversion

/-!
# Typed operations

An `Operation` is a host function with typed parameters, and possibly a rest parameter that
takes all further arguments.  `Operation.apply` is the adapter between arguments, which are
values, and the function: it checks their number, converts them from left to right, and only
then runs the function on their payloads.
-/

namespace PocketLisp

/-- The types of the elements of a sequence or of a rest. -/
inductive ElementType where
  | any
  | number
  | integer
  | boolean
  | string
deriving DecidableEq

namespace ElementType

/-- What the function sees of an element. -/
abbrev Payload : ElementType → Type
  | any => Value
  | number => Number
  | integer => Int64
  | boolean => Bool
  | string => String

/-- The demand on each element. -/
def valueType : ElementType → ValueType
  | any => .any
  | number => .number
  | integer => .integer
  | boolean => .boolean
  | string => .string

/-- The payload of an element, if it has the type. -/
def payload? : (type : ElementType) → Value → Option type.Payload
  | any, v => some v
  | number, .integer n => some (.integer n)
  | number, .float x => some (.float x)
  | integer, .integer n => some n
  | boolean, .boolean b => some b
  | string, .string s => some s
  | _, _ => none

/-- There is a payload for what the type admits, and for nothing else. -/
theorem isSome_payload? (type : ElementType) (v : Value) :
  (type.payload? v).isSome = type.valueType.admits v
  := by
  cases type <;> cases v <;> rfl

/-- The payloads of elements.  All of them are checked before the first is used. -/
def payloads (type : ElementType) (items : List Value) : Except Error (List type.Payload) :=
  match items.find? fun v => !type.valueType.admits v with
  | some v => .error (v.mismatch type.valueType)
  | none => .ok (items.filterMap type.payload?)

end ElementType

/-- The types of parameters. -/
inductive ParamType where
  | any
  | integer
  | float
  | number
  | boolean
  | char
  | string
  /-- A list or a vector with elements of one type. -/
  | sequence (elements : ElementType)
deriving DecidableEq

namespace ParamType

/-- What the function sees of an argument. -/
abbrev Payload : ParamType → Type
  | any => Value
  | integer => Int64
  | float => Float
  | number => Number
  | boolean => Bool
  | char => Char
  | string => String
  | sequence elements => List elements.Payload

/-- The demand on the argument itself, whatever it contains. -/
def valueType : ParamType → ValueType
  | any => .any
  | integer => .integer
  | float => .float
  | number => .number
  | boolean => .boolean
  | char => .char
  | string => .string
  | sequence _ => .sequence

/-- The payload of an argument. -/
def payload : (type : ParamType) → Value → Except Error type.Payload
  | any, v => .ok v
  | integer, v => v.toInteger
  | float, v => v.toFloat
  | number, v => v.toNumber
  | boolean, v => v.toBoolean
  | char, v => v.toChar
  | string, v => v.toText
  | sequence elements, v => v.toSequence.bind elements.payloads

end ParamType

/-- The payloads of all arguments, those of the rest last. -/
abbrev Payloads : List ParamType → Option ElementType → Type
  | [], none => Unit
  | [], some elements => List elements.Payload
  | param :: params, rest => param.Payload × Payloads params rest

/-- Functions that take the payloads of all arguments one after the other. -/
abbrev HostFunction : List ParamType → Option ElementType → Type → Type
  | [], none, R => R
  | [], some elements, R => List elements.Payload → R
  | param :: params, rest, R => param.Payload → HostFunction params rest R

/-- Runs a function on payloads. -/
def HostFunction.run {R : Type} :
    (params : List ParamType) → (rest : Option ElementType) →
      HostFunction params rest R → Payloads params rest → R
  | [], none, f, _ => f
  | [], some _, f, payloads => f payloads
  | _ :: params, rest, f, payloads => run params rest (f payloads.1) payloads.2

/-- Converts arguments from left to right.  Their number is taken to be right: a missing
argument is an error of no interest, and one too many is not looked at. -/
def Payloads.ofValues :
    (params : List ParamType) → (rest : Option ElementType) →
      List Value → Except Error (Payloads params rest)
  | [], none, _ => .ok ()
  | [], some elements, args => elements.payloads args
  | param :: params, rest, arg :: args => do
    let payload ← param.payload arg
    let payloads ← ofValues params rest args
    return (payload, payloads)
  | _ :: params, _, [] => .error (.ofArity (.atLeast (params.length + 1)) 0)

/-- A host function with typed parameters and a result in `R`. -/
structure Operation (R : Type) where
  params : List ParamType
  rest : Option ElementType
  function : HostFunction params rest R

namespace Operation

variable {R : Type}

/-- The accepted argument counts: exactly the parameters, or at least those before a rest. -/
def arity (op : Operation R) : Arity :=
  if op.rest.isSome then .atLeast op.params.length else .exact op.params.length

/-- Runs an operation on arguments. -/
def apply (op : Operation R) (args : List Value) : Except Error R := do
  op.arity.validate args.length
  let payloads ← Payloads.ofValues op.params op.rest args
  return HostFunction.run op.params op.rest op.function payloads

end Operation

end PocketLisp
