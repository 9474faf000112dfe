import PocketLisp.Eval.Step

/-!
# Direct evaluation

`Direct.expression` is a second evaluator.  It knows no steps: an expression in tail position is
evaluated by a call of its own like any other, only at the same depth.  So the value of each
form stands in one place, at the price of calls that pile up along a chain of tail positions.

An expression is under evaluation here until the one in its tail position is done.  Therefore
more expressions are named in the trails of errors than in a run from step to step.
-/

namespace PocketLisp.Direct

/-- How the expressions inside an expression are evaluated: those in tail position at the same
depth, all others one level deeper. -/
structure Evaluators where
  deeper : ScopeId → Value → Eval Value
  tail : ScopeId → Value → Eval Value

variable (evaluators : Evaluators)

/-- The value of the last expression of a body; the others are evaluated for their effects. -/
def body (s : ScopeId) : List Value → Eval Value
  | [] => return .nil
  | [last] => evaluators.tail s last
  | expression :: expressions => do
    let _ ← evaluators.deeper s expression
    body s expressions

/-- The first value that `decides`, or else that of the last expression. -/
def firstDeciding (s : ScopeId) (decides : Value → Bool) (empty : Value) :
    List Value → Eval Value
  | [] => return empty
  | [last] => evaluators.tail s last
  | expression :: expressions => do
    let v ← evaluators.deeper s expression
    if decides v then return v else firstDeciding s decides empty expressions

/-- Whether an expression is the test of a clause that is put off. -/
def isElse : Value → Bool
  | .keyword name => name == "else"
  | _ => false

/-- The expressions of the clauses that are put off. -/
def elseExpressions : List Value → List Value
  | test :: expression :: clauses =>
    if isElse test then expression :: elseExpressions clauses else elseExpressions clauses
  | _ => []

/-- The value of the first clause whose test is true, or else `otherwise`. -/
def firstTrue (s : ScopeId) (otherwise : Eval Value) : List Value → Eval Value
  | test :: expression :: clauses =>
    if isElse test then firstTrue s otherwise clauses
    else do
      if (← evaluators.deeper s test).truthy then evaluators.tail s expression
      else firstTrue s otherwise clauses
  | _ => otherwise

/-- Binds a name in the scope; the value is the name. -/
def bind (s : ScopeId) (name : String) (v : Value) : Eval Value := do
  Eval.modify fun σ => σ.define s name v
  return .symbol name

/-- The value of a special form on operands whose number it accepts. -/
def form (s : ScopeId) : SpecialForm → (operands : List Value) → Eval Value
  | .quote, [v] => return v
  | .sequence, operands => body evaluators s operands
  | .define, [.symbol name, expression] => do
    bind s name (← evaluators.deeper s expression)
  | .define, [target, _] => throw (.ofType (.notName .define target))
  | .lambda, params :: forms => SpecialForm.makeProcedure .lambda s none params forms
  | .defineProcedure, .symbol name :: params :: forms => do
    bind s name (← SpecialForm.makeProcedure .defineProcedure s (some name) params forms)
  | .defineProcedure, target :: _ :: _ => throw (.ofType (.notName .defineProcedure target))
  | .conditional, test :: consequent :: alternatives => do
    if (← evaluators.deeper s test).truthy then evaluators.tail s consequent
    else
      match alternatives with
      | [] => return .nil
      | alternative :: _ => evaluators.tail s alternative
  | .cond, operands =>
    let otherwise :=
      match elseExpressions operands with
      | [] => return .nil
      | expression :: _ => evaluators.tail s expression
    firstTrue evaluators s otherwise operands
  | .and, operands =>
    firstDeciding evaluators s (fun v => !v.truthy) (.boolean true) operands
  | .or, operands => firstDeciding evaluators s Value.truthy .nil operands
  | form, operands => throw (form.arityError operands.length)

/-- The value of a callable on evaluated arguments. -/
def apply (callee : Value) (args : List Value) : Eval Value :=
  match callee with
  | .procedure p => do body evaluators (← Eval.bindParameters p args) p.body
  | callee => Eval.applyImmediate callee args

/-- The value of a list with an operator. -/
def call (s : ScopeId) (operator : Value) (operands : List Value) : Eval Value := do
  match ← evaluators.deeper s operator with
  | .specialForm f =>
    Eval.ofExcept (f.arity.validate operands.length)
    form evaluators s f operands
  | callee => apply evaluators callee (← operands.mapM (evaluators.deeper s))

/-- The value of an expression below the depth limit. -/
def value (s : ScopeId) (expression : Value) : Eval Value :=
  match expression with
  | .symbol name => Eval.ask fun σ => σ.find s name
  | .vector items => do return .vector (← items.mapM (evaluators.deeper s))
  | .map entries => do return .map (← Eval.entries (evaluators.deeper s) [] entries)
  | .list (operator :: operands) => Eval.within expression (call evaluators s operator operands)
  | v => return v

/-- The value of an expression in a scope, at a depth. -/
def expression : (fuel : Nat) → (depth : Nat) → ScopeId → Value → Eval Value
  | 0, _, _, _ => Eval.outOfFuel
  | fuel + 1, depth, s, e =>
    if depthLimit ≤ depth then throw (.depthExceeded depthLimit)
    else value ⟨expression fuel (depth + 1), expression fuel depth⟩ s e

end PocketLisp.Direct
