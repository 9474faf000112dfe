import PocketLisp.Eval.Step

/-!
# Running expressions

`Eval.expression` evaluates an expression to its value.  It goes from step to step as long as
they lead on, always at the same depth; only what is not in tail position is evaluated one
level deeper.  So the depth is bounded by the nesting of calls and not by their number.
-/

namespace PocketLisp.Eval

mutual

/-- The value of an expression in a scope, at a depth. -/
def expression : (fuel : Nat) → (depth : Nat) → ScopeId → Value → Eval Value
  | 0, _, _, _ => outOfFuel
  | fuel + 1, depth, s, e =>
    if depthLimit ≤ depth then throw (.depthExceeded depthLimit)
    else do follow fuel depth (← Step.ofExpression (expression fuel (depth + 1)) s e)

/-- The value that a step leads to, at the depth of the step. -/
def follow : (fuel : Nat) → (depth : Nat) → Step → Eval Value
  | 0, _, _ => outOfFuel
  | _ + 1, _, .done v => return v
  | fuel + 1, depth, .tail e s _ => do
    follow fuel depth (← Step.ofExpression (expression fuel (depth + 1)) s e)
  | fuel + 1, depth, .enter p s => do
    follow fuel depth (← Step.ofBody (expression fuel (depth + 1) s) s 0 p.body)

end

/-- The step that a special form takes on its arguments at a depth. -/
def form (fuel depth : Nat) (s : ScopeId) (form : SpecialForm) (args : List Value) : Eval Step :=
  form.step (expression fuel (depth + 1) s) s args

/-- More fuel than any run uses up in practice. -/
def ample : Nat := 1_000_000_000_000_000_000

end PocketLisp.Eval
