import PocketLisp.Host.Operation
import PocketLisp.Host.Signature

/-!
# Native functions

A `Native` is a function of the program around the interpreter, under a name and with a
signature.  It is usually made of a typed operation, whose parameters give the signature; a raw
one takes the arguments as they are.

What the function answers, and what it writes, depends on its arguments alone, and it always
answers.  It reaches no scope: a procedure among its arguments comes with the handle of the captured
scope, but the function neither looks up nor changes what is bound there.  A host function that keeps
a state of its own, fails to return, or works on the scope of a procedure is outside of this model.
-/

namespace PocketLisp

/-- What a native function hands back: its result, and what it wrote to the output. -/
structure Reply where
  result : Except Error Value
  output : String

namespace Reply

/-- A result without output. -/
def ofResult (result : Except Error Value) : Reply :=
  ⟨result, ""⟩

/-- A value without output. -/
def returns {α : Type} [ToValue α] (a : α) : Reply :=
  ofResult (.ok (toValue a))

/-- An error without output. -/
def fails (e : Error) : Reply :=
  ofResult (.error e)

/-- A failure that the function states. -/
def failsWith (message : String) : Reply :=
  fails (.host message)

end Reply

/-- The signature that the parameters of an operation give. -/
def Operation.signature {R : Type} (op : Operation R) : Signature where
  params := op.params.map ParamType.valueType
  rest := op.rest.map ElementType.valueType

/-- Runs an operation alone; an error in the arguments has no output. -/
def Operation.reply (op : Operation Reply) (args : List Value) : Reply :=
  match op.apply args with
  | .ok reply => reply
  | .error e => .fails e

/-- A function of the program around the interpreter. -/
inductive Native where
  /-- A function with typed parameters. -/
  | typed (name : String) (op : Operation Reply)
  /-- A function on the arguments as they are. -/
  | raw (name : String) (signature : Signature) (function : List Value → Reply)

namespace Native

/-- The name under which the function is registered. -/
def name : Native → String
  | typed name _ => name
  | raw name _ _ => name

/-- The signature of a function, which a typed one has from its parameters. -/
def signature : Native → Signature
  | typed _ op => op.signature
  | raw _ signature _ => signature

/-- Runs the function without checking the arguments against the signature. -/
def run : Native → List Value → Reply
  | typed _ op => op.reply
  | raw _ _ function => function

/-- The operation of a function with typed parameters. -/
def operation? : Native → Option (Operation Reply)
  | typed _ op => some op
  | raw _ _ _ => none

/-- The error of a call with the name of the function before its message, if the error is one
of the arguments' types. -/
def nameCaller (name : String) : Error → Error
  | .type fault trail => .type (.calling name fault) trail
  | e => e

/-- The error of a call with the name of the function before its message, if the function
states it. -/
def nameHost (name : String) : Error → Error
  | .host message => .host (name ++ ": " ++ message)
  | e => e

/-- Checks the arguments against the signature and runs the function. -/
def call (native : Native) (args : List Value) : Reply :=
  match native.signature.check args with
  | .error e => .fails (nameCaller native.name e)
  | .ok () =>
    let reply := native.run args
    { reply with result := reply.result.mapError (nameHost native.name) }

/-- The native function as a record, for inspection. -/
def inspect (native : Native) : String :=
  String.join
    ["NativeFn \x7b name: ", Text.showString native.name, ", signature: ",
      native.signature.inspect, ", .. \x7d"]

end Native

end PocketLisp
