import PocketLisp.Eval.Basic

/-!
# Special forms

A special form is given an evaluator `eval` for the arguments that are not in tail position,
the scope, and the arguments as they stand.  It evaluates what it has to and stops at the tail
position.
-/

namespace PocketLisp

namespace Step

/-- The step into a body in a scope: all expressions but the last are evaluated for their
effects, and the last is in tail position.  The first one has the place `position`. -/
def ofBody (eval : Value → Eval Value) (s : ScopeId) : (position : Nat) → List Value → Eval Step
  | _, [] => return done .nil
  | position, [last] => return tail last s position
  | position, expression :: body => do
    let _ ← eval expression
    ofBody eval s (position + 1) body

/-- The step into a row of which the first value that `decides` is the value; without one the
last expression is in tail position. -/
def untilDecided (eval : Value → Eval Value) (s : ScopeId) (decides : Value → Bool)
    (empty : Value) : (position : Nat) → List Value → Eval Step
  | _, [] => return done empty
  | position, [last] => return tail last s position
  | position, expression :: rest => do
    let v ← eval expression
    if decides v then return done v else untilDecided eval s decides empty (position + 1) rest

/-- The step into the first clause whose test is true.  A clause with the test `:else` is put
off until all tests have failed, and only the first of these counts: it is `otherwise`, an
expression and its place. -/
def ofClauses (eval : Value → Eval Value) (s : ScopeId) :
    (position : Nat) → (otherwise : Option (Value × Nat)) → List Value → Eval Step
  | position, otherwise, test :: expression :: clauses =>
    match test with
    | .keyword "else" =>
      ofClauses eval s (position + 2) (otherwise.or (some (expression, position + 1))) clauses
    | test => do
      let v ← eval test
      if v.truthy then return tail expression s (position + 1)
      else ofClauses eval s (position + 2) otherwise clauses
  | _, some (expression, position), _ => return tail expression s position
  | _, none, _ => return done .nil

end Step

namespace SpecialForm

/-- The error that `form` does not accept `count` arguments. -/
def arityError (form : SpecialForm) (count : Nat) : Error :=
  .ofArity form.arity count

/-- The names in a row of parameters, in order; `seen` are the ones before them. -/
def parameterNames (form : SpecialForm) :
    (seen : List String) → List Value → Except Error (List String)
  | seen, [] => .ok seen.reverse
  | seen, .symbol name :: items =>
    if seen.contains name then .error (.ofEval (.duplicateParameter name))
    else parameterNames form (name :: seen) items
  | _, item :: _ => .error (.ofType (.parameterNotSymbol form item))

/-- The names in a parameter vector. -/
def parameters (form : SpecialForm) : Value → Except Error (List String)
  | .vector items => parameterNames form [] items
  | v => .error (.ofType (.parametersNotVector form v))

/-- Makes a procedure that captures the scope. -/
def makeProcedure (form : SpecialForm) (s : ScopeId) (name : Option String) (params : Value)
    (body : List Value) : Eval Value := do
  let params ← Eval.ofExcept (parameters form params)
  Eval.modifyGet fun σ => σ.addProcedure name params body s

/-- Binds a name in the scope; the step is to the name. -/
def bind (s : ScopeId) (name : String) (v : Value) : Eval Step := do
  Eval.modify fun σ => σ.define s name v
  return .done (.symbol name)

/-- The step that a special form takes on its arguments. -/
def step (eval : Value → Eval Value) (s : ScopeId) :
    SpecialForm → (args : List Value) → Eval Step
  | quote, args =>
    match args with
    | [v] => return .done v
    | _ => throw (arityError quote args.length)
  | sequence, args => Step.ofBody eval s 0 args
  | define, args =>
    match args with
    | [.symbol name, expression] => do bind s name (← eval expression)
    | [target, _] => throw (.ofType (.notName define target))
    | _ => throw (arityError define args.length)
  | lambda, args =>
    match args with
    | params :: body => do return .done (← makeProcedure lambda s none params body)
    | [] => throw (arityError lambda 0)
  | defineProcedure, args =>
    match args with
    | .symbol name :: params :: body => do
      bind s name (← makeProcedure defineProcedure s (some name) params body)
    | target :: _ :: _ => throw (.ofType (.notName defineProcedure target))
    | _ => throw (arityError defineProcedure args.length)
  | conditional, args =>
    match args with
    | [test, consequent] => do
      if (← eval test).truthy then return .tail consequent s 1 else return .done .nil
    | [test, consequent, alternative] => do
      if (← eval test).truthy then return .tail consequent s 1
      else return .tail alternative s 2
    | _ => throw (arityError conditional args.length)
  | cond, args =>
    if args.length % 2 = 0 then Step.ofClauses eval s 0 none args
    else throw (arityError cond args.length)
  | and, args => Step.untilDecided eval s (fun v => !v.truthy) (.boolean true) 0 args
  | or, args => Step.untilDecided eval s Value.truthy .nil 0 args

end SpecialForm

end PocketLisp
