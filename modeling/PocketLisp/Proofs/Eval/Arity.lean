import PocketLisp.Proofs.Eval.Errors

/-!
# The table of special forms

The table says of each special form how many arguments it takes.  The form looks at its arguments itself,
and fails with the same error where their number is wrong, before anything is evaluated.  So a call may
ask the table first or leave that out.

An evaluation inside a form may have a wrong number of arguments for something else.  The two are told
apart by the expression: the evaluation of a list puts it into the error, and the form does not.
-/

namespace PocketLisp

open Eval

/-! ### Errors that name a call -/

/-- A wrong argument count names its call; other errors need not name anything. -/
def Error.NamesCall (e : Error) : Prop :=
  ∀ expected got, e ≠ .arity expected got none

/-- An error that has been given an expression's name names a call if it is one about an argument count. -/
theorem Error.namesCall_within (expression : Value) (e : Error) :
  (e.within expression).NamesCall
  := by
  intro expected got
  unfold Error.within
  split
  · nofun
  · nofun
  · nofun
  next hne => apply hne

/-- A fault of a form is no error about an argument count. -/
theorem Error.IsFault.namesCall {e : Error} (h : e.IsFault) :
  e.NamesCall
  := by
  cases h <;> nofun

/-- Whatever an expression is, and however many calls lie between, a wrong argument count leaves its
evaluation with the call that it belongs to. -/
theorem Eval.failsOnly_namesCall (fuel depth : Nat) (s : ScopeId) (e : Value) :
  FailsOnly Error.NamesCall (expression fuel depth s e)
  := (FailsOnly.run Error.namesCall_within nofun nofun fuel).1 depth s e

/-! ### The table against the forms -/

namespace SpecialForm

variable {form : SpecialForm} {args : List Value}

/-- A number of arguments that the table accepts is accepted by the form as well. -/
theorem failsOnly_form (h : form.arity.accepts args.length) (fuel depth : Nat) (s : ScopeId) :
  FailsOnly Error.NamesCall (Eval.form fuel depth s form args)
  := by
  have heval := failsOnly_namesCall fuel (depth + 1) s
  apply FailsOnly.form heval (fun _ => Error.IsFault.namesCall) s h

/-- The form refuses what the table refuses, with the same error. -/
theorem validate_step (form : SpecialForm) (eval : Value → Eval Value) (s : ScopeId)
    (args : List Value) :
  (do Eval.ofExcept (form.arity.validate args.length); form.step eval s args)
    = form.step eval s args
  := by
  by_cases haccepts : form.arity.accepts args.length
  · rw [Arity.validate, if_pos haccepts]
    rfl
  · rw [Arity.validate, if_neg haccepts, step_of_not_accepts haccepts]
    rfl

end SpecialForm

namespace Step

/-- The step of a list like `Step.ofCall`, except that a special form is not asked for its arity. -/
def ofCallUnchecked (eval : Value → Eval Value) (s : ScopeId) (operator : Value)
    (operands : List Value) : Eval Step := do
  match ← eval operator with
  | .specialForm form => form.step eval s operands
  | callee => apply callee (← operands.mapM eval)

/-- The check before a form is applied makes no difference, for the form itself refuses what the
check refuses. -/
theorem ofCall_eq_ofCallUnchecked :
  ofCall = ofCallUnchecked
  := by
  funext eval s operator operands
  rw [ofCall, ofCallUnchecked]
  congr 1
  funext callee
  cases callee with
  | specialForm form => apply form.validate_step
  | _ => rfl

end Step

/-- A special form fails with a wrong argument count that names no call exactly if the table does not
accept the number of its arguments.  The error then has the arity of the table and the number, the store
is as it was, and it makes no difference what evaluator the form is given.  So a list is evaluated in the
same way if the table is not asked. -/
theorem SpecialForm.form_arity_agrees (form : SpecialForm) (args : List Value) :
  (∀ fuel depth s σ expected got τ,
    (Eval.form fuel depth s form args).outcome σ = some (.error (.arity expected got none), τ) ↔
      ¬ form.arity.accepts args.length ∧ expected = form.arity ∧ got = args.length ∧ τ = σ) ∧
  (¬ form.arity.accepts args.length →
    ∀ eval s, form.step eval s args = throw (.arity form.arity args.length none)) ∧
  ∀ eval s operator, Step.ofCall eval s operator args = Step.ofCallUnchecked eval s operator args
  := by
  refine ⟨?_, step_of_not_accepts, ?_⟩
  · intro fuel depth s σ expected got τ
    constructor
    · intro h
      by_cases haccepts : form.arity.accepts args.length
      · cases failsOnly_form haccepts fuel depth s σ _ τ h expected got rfl
      · rw [Eval.form, step_of_not_accepts haccepts] at h
        cases h
        exact ⟨haccepts, rfl, rfl, rfl⟩
    · rintro ⟨hnot, rfl, rfl, rfl⟩
      rw [Eval.form, step_of_not_accepts hnot]
      rfl
  · intro eval s operator
    rw [Step.ofCall_eq_ofCallUnchecked]

end PocketLisp
