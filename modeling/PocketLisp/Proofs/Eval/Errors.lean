import PocketLisp.Proofs.Eval.Hereditary
import PocketLisp.Proofs.Eval.Refinement
import PocketLisp.Proofs.Value.Part

/-!
# Errors of evaluations

An evaluation may fail with certain errors only.  Which ones passes from evaluators to all that is put
together from them: a sequence fails as one of its parts does, and a form, if its number of arguments is
accepted, fails as an evaluation inside it does or finds fault with a name or with parameters.

In a run the errors of the operations come out of the list that they occur in, and are changed by it.
Only two others come about outside of lists: a name may be unbound, and the depth may be at the limit.
So a property of these two which every list gives to the errors that leave it holds of all errors of
expressions.
-/

namespace PocketLisp

/-! ### Errors of operations -/

/-- An error of the interpreter itself, in which no expression is named: a fault, a wrong number of
arguments, or something that is no callable. -/
inductive Error.IsRefusal : Error → Prop
  | fault {e : Error} (h : e.IsFault) : IsRefusal e
  | arity (expected : Arity) (got : Nat) : IsRefusal (.ofArity expected got)
  | application (fault : ApplicationFault) : IsRefusal (.application fault)

/-- The check of an argument count fails with the arity that was expected and no expression. -/
theorem Arity.isRefusal_of_validate {expected : Arity} {count : Nat} {e : Error}
    (h : expected.validate count = .error e) :
  e.IsRefusal
  := by
  rw [validate] at h
  split at h
  · cases h
  · cases h
    apply Error.IsRefusal.arity

/-- A primitive fails with faults of its operation, or for the number of its arguments. -/
theorem Primitive.isRefusal_of_call {p : Primitive} {args : List Value} {e : Error}
    (h : p.call args = .error e) :
  e.IsRefusal
  := by
  by_cases haccepts : p.arity.accepts args.length
  · rw [call_of_accepts haccepts] at h
    apply Error.IsRefusal.fault (isFault_of_adapt haccepts h)
  · rw [call, Arity.validate, if_neg haccepts] at h
    cases h
    apply Error.IsRefusal.arity

/-- To look up a path fails for want of a key, on a key that is not there, or on the way into what
is no map. -/
theorem isRefusal_of_lookupPath {v : Value} {keys : List Value} {e : Error}
    (h : lookupPath v keys = .error e) :
  e.IsRefusal
  := by
  fun_induction lookupPath v keys with
  | case1 => cases h
  | case2 _ _ _ _ _ ih => apply ih h
  | case3 =>
    cases h
    apply Error.IsRefusal.fault (.evaluation _)
  | case4 =>
    cases h
    apply Error.IsRefusal.application

/-- The check of the types fails with faults of types only. -/
theorem Signature.isRefusal_of_checkFrom {rest : Option ValueType} {position : Nat}
    {params : List ValueType} {args : List Value} {error : Error}
    (h : checkFrom rest position params args = .error error) :
  error.IsRefusal
  := by
  fun_induction checkFrom rest position params args with
  | case1 => cases h
  | case2 _ _ _ _ _ _ ih => apply ih h
  | case3 =>
    cases h
    apply Error.IsRefusal.fault (.type _)
  | case4 => cases h
  | case5 _ _ _ type hrest _ ih =>
    rw [hrest] at ih
    apply ih h
  | case6 =>
    cases h
    apply Error.IsRefusal.fault (.type _)

/-- The check of a signature fails for the number of the arguments or for their types. -/
theorem Signature.isRefusal_of_check {signature : Signature} {args : List Value} {error : Error}
    (h : signature.check args = .error error) :
  error.IsRefusal
  := by
  rw [check] at h
  cases hcount : signature.arity.validate args.length with
  | error e =>
    rw [hcount] at h
    cases h
    apply Arity.isRefusal_of_validate hcount
  | ok =>
    rw [hcount] at h
    apply isRefusal_of_checkFrom h

/-- If a call names an expression for an argument count, then the function itself does. -/
theorem Native.result_run_of_named {native : Native} {args : List Value} {expected : Arity} {got : Nat}
    {named : String} (h : (native.call args).result = .error (.arity expected got (some named))) :
  (native.run args).result = .error (.arity expected got (some named))
  := by
  rw [call] at h
  split at h
  next e hcheck =>
    change Except.error (nameCaller native.name e) = _ at h
    cases Signature.isRefusal_of_check hcheck with
    | fault hfault => cases hfault <;> cases h
    | arity => cases h
    | application => cases h
  next =>
    change (native.run args).result.mapError (nameHost native.name) = _ at h
    cases hrun : (native.run args).result with
    | ok v =>
      rw [hrun] at h
      cases h
    | error e =>
      rw [hrun] at h
      cases e with
      | host message => cases h
      | _ => apply h

/-! ### Faults of forms -/

namespace SpecialForm

variable {form : SpecialForm} {e : Error}

/-- What stands in a parameter list and is no symbol is a fault, and so is a name that comes twice. -/
theorem isFault_of_parameterNames {seen : List String} {items : List Value}
    (h : form.parameterNames seen items = .error e) :
  e.IsFault
  := by
  induction items generalizing seen with
  | nil => cases h
  | cons item items ih =>
    cases item with
    | symbol name =>
      rw [parameterNames] at h
      split at h
      · cases h
        apply Error.IsFault.evaluation
      · apply ih h
    | _ =>
      cases h
      apply Error.IsFault.type

/-- A parameter list fails with a fault, be it no vector or a vector with a wrong item. -/
theorem isFault_of_parameters {params : Value} (h : form.parameters params = .error e) :
  e.IsFault
  := by
  cases params with
  | vector items => apply isFault_of_parameterNames h
  | _ =>
    cases h
    apply Error.IsFault.type

end SpecialForm

namespace Eval

variable {α β : Type} {P Q : Error → Prop}

/-- If the evaluation fails, `P` holds of the error. -/
def FailsOnly (P : Error → Prop) (x : Eval α) : Prop :=
  ∀ σ e τ, x.outcome σ = some (.error e, τ) → P e

namespace FailsOnly

/-! ### Operations -/

/-- Of any error at all something trivial holds. -/
theorem any (x : Eval α) :
  FailsOnly (fun _ => True) x
  := fun _ _ _ _ => trivial

/-- Where the fuel runs out there is no error. -/
theorem outOfFuel :
  FailsOnly P (Eval.outOfFuel : Eval α)
  := by
  intro σ e τ h
  cases h

/-- A look at the store fails as the look at every single store does. -/
theorem ask {f : Store → Except Error α} (h : ∀ σ e, f σ = .error e → P e) :
  FailsOnly P (Eval.ask f)
  := by
  intro σ e τ houtcome
  rw [outcome_ask] at houtcome
  apply h σ e (congrArg Prod.fst (Option.some.inj houtcome))

/-- What is given fails with the error that is given, if it is one. -/
theorem ofExcept {result : Except Error α} (h : ∀ e, result = .error e → P e) :
  FailsOnly P (Eval.ofExcept result)
  := by
  apply ask
  intro σ e he
  apply h e he

/-- To give a value does not fail. -/
theorem pure (a : α) :
  FailsOnly P (Pure.pure a : Eval α)
  := by
  change FailsOnly P (Eval.ofExcept (.ok a))
  apply ofExcept
  nofun

/-- To fail gives that one error. -/
theorem throw {e : Error} (h : P e) :
  FailsOnly P (MonadExcept.throw e : Eval α)
  := by
  change FailsOnly P (Eval.ofExcept (.error e))
  apply ofExcept
  rintro _ ⟨⟩
  apply h

/-- A change of the store does not fail. -/
theorem modifyGet (f : Store → α × Store) :
  FailsOnly P (Eval.modifyGet f)
  := by
  intro σ e τ h
  cases h

/-- A sequence fails in one of its two parts. -/
theorem bind {x : Eval α} {f : α → Eval β} (h : FailsOnly P x) (hf : ∀ a, FailsOnly P (f a)) :
  FailsOnly P (x >>= f)
  := by
  intro σ e τ houtcome
  rcases outcome_bind_eq_some.mp houtcome with ⟨_, hx, ⟨⟩⟩ | ⟨a, υ, -, hfa⟩
  · apply h σ e τ hx
  · apply hf a υ e τ hfa

/-- What is done to a value does not fail. -/
theorem map (f : α → β) {x : Eval α} (h : FailsOnly P x) :
  FailsOnly P (f <$> x)
  := by
  rw [map_eq_pure_bind]
  apply bind h
  intro a
  apply pure

/-- An error to which a name is added satisfies what then holds of it. -/
theorem within {expression : Value} {x : Eval α} (h : FailsOnly P x)
    (hwithin : ∀ e, P e → Q (e.within expression)) :
  FailsOnly Q (x.within expression)
  := by
  intro σ e τ houtcome
  obtain ⟨r, hx, hr⟩ := outcome_within_eq_some.mp houtcome
  cases r with
  | ok a => cases hr
  | error e₀ =>
    cases hr
    apply hwithin e₀ (h σ e₀ τ hx)

/-! ### Parameters -/

/-- To bind parameters fails only for the number of arguments. -/
theorem bindParameters (p : Procedure) (args : List Value) :
  FailsOnly Error.IsRefusal (Eval.bindParameters p args)
  := by
  apply bind
  · apply ofExcept
    intro e
    apply Arity.isRefusal_of_validate
  · intro _
    apply bind
    · apply modifyGet
    · intro scope
      apply bind
      · apply modifyGet
      · intro _
        apply pure

/-! ### Forms -/

/-- To fail with certain errors only is hereditary, in whatever scope. -/
def hereditary (P : Error → Prop) (s : ScopeId) : Hereditary s where
  Holds := FailsOnly P
  HoldsStep := FailsOnly P
  pure := pure
  bind := bind
  done _ := pure _
  tail _ _ := pure _
  andThen := bind

/-- To make a procedure fails only with the faults of its parameters. -/
theorem makeProcedure (hfault : ∀ e : Error, e.IsFault → P e) (form : SpecialForm) (s : ScopeId)
    (name : Option String) (params : Value) (body : List Value) :
  FailsOnly P (form.makeProcedure s name params body)
  := by
  apply bind
  · apply ofExcept
    intro e he
    apply hfault e (SpecialForm.isFault_of_parameters he)
  · intro names
    apply modifyGet

/-- To bind a name does not fail. -/
theorem bindName (s : ScopeId) (name : String) (v : Value) :
  FailsOnly P (SpecialForm.bind s name v)
  := by
  apply bind
  · apply modifyGet
  · intro _
    apply pure

/-- A form that accepts the number of its arguments fails as an evaluation inside it does, or with a
fault of its own. -/
theorem form {eval : Value → Eval Value} (h : ∀ e, FailsOnly P (eval e))
    (hfault : ∀ e : Error, e.IsFault → P e) (s : ScopeId) {form : SpecialForm} {args : List Value}
    (haccepts : form.arity.accepts args.length) :
  FailsOnly P (form.step eval s args)
  := by
  apply (hereditary P s).form h
  · apply makeProcedure hfault
  · apply bindName
  · intro e he
    apply throw (hfault e he)
  · intro hnot
    cases hnot haccepts

/-! ### Runs -/

section

variable (hwithin : ∀ expression e, P (Error.within expression e)) (hunbound : ∀ name, P (.unbound name))

include hwithin hunbound

/-- What is inside a list does not matter, for its errors come out of the list. -/
theorem ofExpression {eval : ScopeId → Value → Eval Value} (h : ∀ s e, FailsOnly P (eval s e))
    (s : ScopeId) (e : Value) :
  FailsOnly P (Step.ofExpression eval s e)
  := by
  unfold Step.ofExpression
  split
  · apply map
    apply ask
    intro σ e he
    rw [Store.find] at he
    split at he
    · cases he
    · cases he
      apply hunbound
  · apply bind ((hereditary P s).mapM (h s) _)
    intro vs
    apply pure
  · apply bind ((hereditary P s).entries (h s) _ _)
    intro entries
    apply pure
  · exact within (any _) fun e _ => hwithin _ e
  · apply pure

/-- What every list gives to the errors that leave it holds of all errors of expressions, if it holds
of those that come about elsewhere. -/
theorem run (hdepth : P (.depthExceeded depthLimit)) (fuel : Nat) :
  (∀ depth s e, FailsOnly P (expression fuel depth s e)) ∧
    ∀ depth step, FailsOnly P (follow fuel depth step)
  := by
  induction fuel with
  | zero =>
    constructor
    · intro depth s e
      apply outOfFuel
    · intro depth step
      apply outOfFuel
  | succ fuel ih =>
    obtain ⟨ihExpression, ihFollow⟩ := ih
    have hstep (depth : Nat) := ofExpression hwithin hunbound (ihExpression depth)
    constructor
    · intro depth s e
      rw [expression]
      split
      · apply throw hdepth
      · apply bind (hstep (depth + 1) s e)
        intro step
        apply ihFollow
    · intro depth step
      cases step with
      | done v => apply pure
      | tail e s position =>
        apply bind (hstep (depth + 1) s e)
        intro step
        apply ihFollow
      | enter p s =>
        apply bind ((hereditary P s).ofBody (ihExpression (depth + 1) s) 0 p.body)
        intro step
        apply ihFollow

end

end FailsOnly

/-! ### Calls -/

variable {callee : Value} {args : List Value} {σ τ : Store} {e : Error}

/-- A call of anything but a procedure fails with an error of the interpreter, or with the one that a
native function gives back. -/
theorem error_of_applyImmediate
    (h : (applyImmediate callee args).outcome σ = some (.error e, τ)) :
  e.IsRefusal ∨ ∃ id native, callee = .native id ∧ σ.native? id = some native ∧
    (native.call args).result = .error e
  := by
  unfold applyImmediate at h
  split at h
  next p =>
    rw [outcome_ofExcept] at h
    obtain ⟨hcall, -⟩ := Prod.mk.inj (Option.some.inj h)
    apply Or.inl (Primitive.isRefusal_of_call hcall)
  next id =>
    rw [outcome_bind, outcome_ask] at h
    cases hnative : σ.native? id with
    | none =>
      rw [hnative] at h
      cases h
      apply Or.inl (.application _)
    | some native =>
      rw [hnative] at h
      obtain ⟨hresult, -⟩ := Prod.mk.inj (Option.some.inj h)
      exact .inr ⟨id, native, rfl, hnative, hresult⟩
  next entries =>
    left
    revert h
    apply FailsOnly.bind
    · apply FailsOnly.ofExcept
      intro e
      apply Arity.isRefusal_of_validate
    · intro _
      apply FailsOnly.ofExcept
      intro e
      apply isRefusal_of_lookupPath
  next =>
    cases h
    apply Or.inl (.application _)

/-- So does any call. -/
theorem error_of_apply (h : (Step.apply callee args).outcome σ = some (.error e, τ)) :
  e.IsRefusal ∨ ∃ id native, callee = .native id ∧ σ.native? id = some native ∧
    (native.call args).result = .error e
  := by
  unfold Step.apply at h
  split at h
  next p =>
    left
    exact FailsOnly.map _ (FailsOnly.bindParameters p args) σ e τ h
  next =>
    rw [map_eq_pure_bind] at h
    rcases outcome_bind_eq_some.mp h with ⟨_, h, ⟨⟩⟩ | ⟨_, _, -, ⟨⟩⟩
    apply error_of_applyImmediate h

end Eval

end PocketLisp
