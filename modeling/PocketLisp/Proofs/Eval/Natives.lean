import PocketLisp.Proofs.Eval.Hereditary
import PocketLisp.Proofs.Eval.Refinement

/-!
# Native functions during evaluations

No evaluation adds a native function or takes one away, whatever it does to the scopes and however it ends.
-/

namespace PocketLisp

/-- To bind names in a scope leaves the native functions as they are. -/
theorem Store.natives_defineAll (σ : Store) (s : ScopeId) (bindings : List (String × Value)) :
  (σ.defineAll s bindings).natives = σ.natives
  := by
  induction bindings generalizing σ with
  | nil => rfl
  | cons binding bindings ih =>
    rw [defineAll, ih]
    rfl

namespace Eval

variable {α β : Type} {x : Eval α}

/-- The evaluation leaves the native functions as they are. -/
def KeepsNatives (x : Eval α) : Prop :=
  ∀ σ r τ, x.outcome σ = some (r, τ) → τ.natives = σ.natives

namespace KeepsNatives

/-- Where the fuel runs out, there is no store at the end that could differ. -/
theorem outOfFuel :
  KeepsNatives (Eval.outOfFuel : Eval α)
  := by
  rintro σ r τ ⟨⟩

/-- To look at the store changes nothing in it. -/
theorem ask (f : Store → Except Error α) :
  KeepsNatives (Eval.ask f)
  := by
  rintro σ r τ ⟨⟩
  rfl

/-- To give a value changes nothing in the store. -/
theorem pure (a : α) :
  KeepsNatives (Pure.pure a : Eval α)
  := ask fun _ => .ok a

/-- To fail changes nothing in the store. -/
theorem throw (e : Error) :
  KeepsNatives (MonadExcept.throw e : Eval α)
  := ask fun _ => .error e

/-- A change of the store leaves the native functions if it leaves them in every store. -/
theorem modifyGet {f : Store → α × Store} (h : ∀ σ, (f σ).2.natives = σ.natives) :
  KeepsNatives (Eval.modifyGet f)
  := by
  rintro σ r τ ⟨⟩
  apply h

/-- Two evaluations one after the other leave the native functions if each of them does. -/
theorem bind {f : α → Eval β} (h : KeepsNatives x) (hf : ∀ a, KeepsNatives (f a)) :
  KeepsNatives (x >>= f)
  := by
  intro σ r τ houtcome
  rcases outcome_bind_eq_some.mp houtcome with ⟨e, he, -⟩ | ⟨a, υ, ha, hr⟩
  · apply h σ _ τ he
  · rw [hf a υ r τ hr, h σ _ υ ha]

/-- What is done to the result has no part in the store. -/
theorem map (f : α → β) (h : KeepsNatives x) :
  KeepsNatives (f <$> x)
  := by
  rw [map_eq_pure_bind]
  apply bind h
  intro a
  apply pure

/-- To name an expression in the errors has no part in the store. -/
theorem within (expression : Value) (h : KeepsNatives x) :
  KeepsNatives (x.within expression)
  := by
  intro σ r τ houtcome
  obtain ⟨r₀, hx, -⟩ := outcome_within_eq_some.mp houtcome
  apply h σ r₀ τ hx

/-- To leave the native functions is hereditary, in whatever scope. -/
def hereditary (s : ScopeId) : Hereditary s where
  Holds := KeepsNatives
  HoldsStep := KeepsNatives
  pure := pure
  bind := bind
  done _ := pure _
  tail _ _ := pure _
  andThen := bind

/-- To make a procedure counts it and does nothing else to the store. -/
theorem makeProcedure (form : SpecialForm) (s : ScopeId) (name : Option String) (params : Value)
    (body : List Value) :
  KeepsNatives (form.makeProcedure s name params body)
  := by
  apply bind (ask _)
  intro names
  apply modifyGet
  intro σ
  rfl

/-- To bind a name changes a scope only. -/
theorem bindName (s : ScopeId) (name : String) (v : Value) :
  KeepsNatives (SpecialForm.bind s name v)
  := by
  apply bind
  · apply modifyGet
    intro σ
    rfl
  · intro _
    apply pure

/-- A call adds a scope and binds the parameters in it. -/
theorem bindParameters (p : Procedure) (args : List Value) :
  KeepsNatives (Eval.bindParameters p args)
  := by
  apply bind (ask _)
  intro _
  apply bind
  · apply modifyGet
    intro σ
    rfl
  · intro scope
    apply bind
    · apply modifyGet
      intro σ
      apply Store.natives_defineAll
    · intro _
      apply pure

/-- A callable that has its value at once writes at most: a native function adds to the output. -/
theorem applyImmediate (callee : Value) (args : List Value) :
  KeepsNatives (Eval.applyImmediate callee args)
  := by
  unfold Eval.applyImmediate
  split
  · apply ask
  · apply bind (ask _)
    intro native
    apply bind
    · apply modifyGet
      intro σ
      rfl
    · intro _
      apply ask
  · apply bind (ask _)
    intro _
    apply ask
  · apply throw

/-- To apply a callable is to get its value at once or to enter a procedure. -/
theorem apply (callee : Value) (args : List Value) :
  KeepsNatives (Step.apply callee args)
  := by
  unfold Step.apply
  split
  · apply map _ (bindParameters _ args)
  · apply map _ (applyImmediate callee args)

/-- A step leaves the native functions if the evaluator does that it uses for the expressions inside. -/
theorem ofExpression {eval : ScopeId → Value → Eval Value} (h : ∀ s e, KeepsNatives (eval s e))
    (s : ScopeId) (e : Value) :
  KeepsNatives (Step.ofExpression eval s e)
  := by
  unfold Step.ofExpression
  split
  · apply map _ (ask _)
  · apply bind ((hereditary s).mapM (h s) _)
    intro vs
    apply pure
  · apply bind ((hereditary s).entries (h s) _ _)
    intro entries
    apply pure
  · apply within
    apply bind (h s _)
    intro callee
    split
    · apply bind (ask _)
      intro _
      apply (hereditary s).form (h s)
      · apply makeProcedure
      · apply bindName
      · intro e _
        apply throw
      · intro _
        apply throw
    · apply bind ((hereditary s).mapM (h s) _)
      intro args
      apply apply
  · apply pure

/-- By induction on the fuel, expressions and steps together: a run is made of steps. -/
theorem run (fuel : Nat) :
  (∀ depth s e, KeepsNatives (expression fuel depth s e)) ∧
    ∀ depth step, KeepsNatives (follow fuel depth step)
  := by
  induction fuel with
  | zero =>
    constructor
    · intro depth s e
      apply outOfFuel
    · intro depth step
      apply outOfFuel
  | succ fuel ih =>
    obtain ⟨ihExpression, ihFollow⟩ := ih
    constructor
    · intro depth s e
      rw [expression]
      split
      · apply throw
      · apply bind (ofExpression (ihExpression (depth + 1)) s e)
        apply ihFollow
    · intro depth step
      cases step with
      | done v => apply pure
      | tail e s position =>
        apply bind (ofExpression (ihExpression (depth + 1)) s e)
        apply ihFollow
      | enter p s =>
        apply bind ((hereditary s).ofBody (ihExpression (depth + 1) s) 0 p.body)
        apply ihFollow

end KeepsNatives

end Eval

end PocketLisp
