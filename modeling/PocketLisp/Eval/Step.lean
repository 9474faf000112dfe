import PocketLisp.Eval.Form
import PocketLisp.Host.Primitive

/-!
# Steps of expressions

`Step.ofExpression` evaluates an expression up to its tail position.  It is given an evaluator
for the expressions inside it that are not in tail position, so that it need not know how deep
it is.  Calling a procedure leads into its body; all other callables have their value at once.
-/

namespace PocketLisp

/-- The value at the end of a path of keys, each looked up in what the one before gave. -/
def lookupPath : Value → List Value → Except Error Value
  | v, [] => .ok v
  | .map entries, key :: keys =>
    match Entries.get? entries key with
    | some v => lookupPath v keys
    | none => .error (.ofEval (.keyNotFound key))
  | v, key :: _ => .error (.application (.notMap key v))

namespace Eval

/-- The value of a callable that is no procedure on evaluated arguments. -/
def applyImmediate (callee : Value) (args : List Value) : Eval Value :=
  match callee with
  | .primitive p => ofExcept (p.call args)
  | .native n => do
    let native ← ask fun σ =>
      match σ.native? n with
      | some native => .ok native
      | none => .error (.application (.notCallable callee))
    let reply := native.call args
    modify fun σ => σ.write reply.output
    ofExcept reply.result
  | .map _ => do
    ofExcept ((Arity.atLeast 1).validate args.length)
    ofExcept (lookupPath callee args)
  | callee => throw (.application (.notCallable callee))

/-- A new scope for the body of a procedure: it lies in the scope that the procedure captured,
and binds the parameters to evaluated arguments. -/
def bindParameters (p : Procedure) (args : List Value) : Eval ScopeId := do
  ofExcept ((Arity.exact p.params.length).validate args.length)
  let scope ← modifyGet fun σ => σ.addScope (some p.scope)
  modify fun σ => σ.defineAll scope (p.params.zip args)
  return scope

/-- The entries of a map literal: keys and values are evaluated in order, and each pair is
inserted before the next is evaluated. -/
def entries (eval : Value → Eval Value) :
    (evaluated : Entries) → List (Value × Value) → Eval Entries
  | evaluated, [] => return evaluated
  | evaluated, (key, value) :: unevaluated => do
    let key ← eval key
    let value ← eval value
    entries eval (Entries.insert evaluated key value) unevaluated

end Eval

namespace Step

/-- The step that a callable takes on evaluated arguments. -/
def apply (callee : Value) (args : List Value) : Eval Step :=
  match callee with
  | .procedure p => enter p <$> Eval.bindParameters p args
  | callee => done <$> Eval.applyImmediate callee args

/-- The step of a list with an operator: a special form takes the operands as they stand, all
else their values. -/
def ofCall (eval : Value → Eval Value) (s : ScopeId) (operator : Value) (operands : List Value) :
    Eval Step := do
  match ← eval operator with
  | .specialForm form =>
    Eval.ofExcept (form.arity.validate operands.length)
    form.step eval s operands
  | callee => apply callee (← operands.mapM eval)

/-- The step of an expression in a scope. -/
def ofExpression (eval : ScopeId → Value → Eval Value) (s : ScopeId) (expression : Value) :
    Eval Step :=
  match expression with
  | .symbol name => done <$> Eval.ask fun σ => σ.find s name
  | .vector items => do return done (.vector (← items.mapM (eval s)))
  | .map entries => do return done (.map (← Eval.entries (eval s) [] entries))
  | .list (operator :: operands) => Eval.within expression (ofCall (eval s) s operator operands)
  | v => return done v

end Step

end PocketLisp
