import PocketLisp.Store

/-!
# Evaluations

An `Eval α` is an evaluation that ends with a result in `α` or with an error, and leaves a
store in either case.  It has no outcome at all if its fuel runs out: not every program ends.

A `Step` is how far an expression is evaluated without going into its tail position, the place
where the value of one expression is the value of another.
-/

namespace PocketLisp

/-- Evaluations with a result in `α`: the store is left by results and by errors, and there is
no outcome if the fuel runs out. -/
abbrev Eval (α : Type) := ExceptT Error (StateT Store Option) α

namespace Eval

variable {α : Type}

/-- The evaluation whose fuel has run out. -/
def outOfFuel : Eval α :=
  ExceptT.mk fun _ => none

/-- The evaluation that changes the store as `f` says and results in what `f` gives. -/
def modifyGet (f : Store → α × Store) : Eval α :=
  ExceptT.mk fun σ =>
    let (a, σ) := f σ
    some (.ok a, σ)

/-- The evaluation that changes the store as `f` says. -/
def modify (f : Store → Store) : Eval Unit :=
  modifyGet fun σ => ((), f σ)

/-- The evaluation that asks the store. -/
def ask (f : Store → Except Error α) : Eval α :=
  ExceptT.mk fun σ => some (f σ, σ)

/-- The evaluation with a given result or error. -/
def ofExcept (result : Except Error α) : Eval α :=
  ask fun _ => result

/-- An evaluation whose errors name an expression. -/
def within (expression : Value) (evaluation : Eval α) : Eval α :=
  ExceptT.adapt (Error.within expression) evaluation

/-- The outcome of an evaluation in a store, if there is one. -/
def outcome (evaluation : Eval α) (σ : Store) : Option (Except Error α × Store) :=
  evaluation.run.run σ

/-! ### Outcomes -/

/-- A value leaves the store. -/
@[simp]
theorem outcome_pure (a : α) (σ : Store) :
  (pure a : Eval α).outcome σ = some (.ok a, σ)
  := rfl

/-- An error leaves the store. -/
@[simp]
theorem outcome_throw (e : Error) (σ : Store) :
  (throw e : Eval α).outcome σ = some (.error e, σ)
  := rfl

/-- Without fuel nothing comes out. -/
@[simp]
theorem outcome_outOfFuel (σ : Store) :
  (outOfFuel : Eval α).outcome σ = none
  := rfl

/-- What is computed of the store is the result, and the store is what is computed besides. -/
@[simp]
theorem outcome_modifyGet (f : Store → α × Store) (σ : Store) :
  (modifyGet f).outcome σ = some (.ok (f σ).1, (f σ).2)
  := rfl

/-- A change of the store has no result of its own. -/
@[simp]
theorem outcome_modify (f : Store → Store) (σ : Store) :
  (modify f).outcome σ = some (.ok (), f σ)
  := rfl

/-- What is asked of the store leaves it. -/
@[simp]
theorem outcome_ask (f : Store → Except Error α) (σ : Store) :
  (ask f).outcome σ = some (f σ, σ)
  := rfl

/-- A result that is there leaves the store. -/
@[simp]
theorem outcome_ofExcept (result : Except Error α) (σ : Store) :
  (ofExcept result).outcome σ = some (result, σ)
  := rfl

/-- Naming an expression changes errors only. -/
theorem outcome_within (expression : Value) (x : Eval α) (σ : Store) :
  (x.within expression).outcome σ
    = (x.outcome σ).map fun o => (o.1.mapError (Error.within expression), o.2)
  := by
  change (x.outcome σ).bind _ = _
  cases x.outcome σ <;> rfl

/-- The second part of an evaluation starts in the store that the first part leaves, unless the
first part fails or does not end. -/
theorem outcome_bind {β : Type} (x : Eval α) (f : α → Eval β) (σ : Store) :
  (x >>= f).outcome σ = (x.outcome σ).bind fun
    | (.ok a, τ) => (f a).outcome τ
    | (.error e, τ) => some (.error e, τ)
  := by
  simp only [outcome, ExceptT.run_bind, StateT.run_bind]
  change Option.bind _ _ = _
  congr 1
  funext ⟨r, τ⟩
  cases r <;> rfl

end Eval

/-- How far an expression is evaluated without going into its tail position. -/
inductive Step where
  /-- The expression has a value. -/
  | done (v : Value)
  /-- Its value is that of another expression in a scope; `position` is the place of that
  expression among the arguments, or in the body, that it comes from. -/
  | tail (expression : Value) (scope : ScopeId) (position : Nat)
  /-- Its value is that of the body of a procedure in a scope that binds the parameters. -/
  | enter (p : Procedure) (scope : ScopeId)

/-- The greatest depth of evaluation outside tail positions is one below this limit. -/
def depthLimit : Nat := 4096

end PocketLisp
