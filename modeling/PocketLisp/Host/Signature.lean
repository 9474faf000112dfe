import PocketLisp.Error

/-!
# Signatures

A `Signature` declares the parameters of a native function.  It is checked on every call,
before anything of the function runs.
-/

namespace PocketLisp

/-- The types of the parameters, and that of all further arguments if there may be any. -/
structure Signature where
  params : List ValueType
  rest : Option ValueType

namespace Signature

/-- The accepted argument counts: exactly the parameters, or at least those before a rest. -/
def arity (signature : Signature) : Arity :=
  if signature.rest.isSome then .atLeast signature.params.length
  else .exact signature.params.length

/-- Checks arguments in order against parameters and then against the rest; `position` is the
place of the first of them.  Their number is taken to be right. -/
def checkFrom (rest : Option ValueType) :
    (position : Nat) → List ValueType → List Value → Except Error Unit
  | _, _, [] => .ok ()
  | position, param :: params, arg :: args =>
    if param.admits arg then checkFrom rest (position + 1) params args
    else .error (.ofType (.argument position param arg))
  | position, [], arg :: args =>
    match rest with
    | none => .ok ()
    | some type =>
      if type.admits arg then checkFrom rest (position + 1) [] args
      else .error (.ofType (.argument position type arg))

/-- Checks the number of arguments, then the type of each in order. -/
def check (signature : Signature) (args : List Value) : Except Error Unit := do
  signature.arity.validate args.length
  checkFrom signature.rest 1 signature.params args

/-- The signature as a record, for inspection. -/
def inspect (signature : Signature) : String :=
  "Signature \x7b params: [" ++ ", ".intercalate (signature.params.map ValueType.name) ++
    "], rest: " ++ signature.rest.elim "None" (fun type => "Some(" ++ type.name ++ ")") ++ " \x7d"

end Signature

end PocketLisp
