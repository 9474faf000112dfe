import PocketLisp.Proofs.Eval.Hereditary
import PocketLisp.Proofs.Eval.Refinement

/-!
# What an evaluation leaves as it was

An evaluation in a scope `s` binds names in `s` and in scopes that it adds itself; a scope that
was there before and is not `s` comes out unchanged, whether the evaluation has a value or
fails.

A run goes from one scope to another, at calls and in tail positions.  The invariant is that
each scope it gets to is `s` or was not there when the run began, so that what is done there is
no change of an older scope.
-/

namespace PocketLisp

/-- From the store `σ` to the store `τ`, only the scope `s` has changed among those of `σ`, and
it has gained or changed bindings but lost none. -/
structure Frame (s : ScopeId) (σ τ : Store) : Prop where
  hasScope : ∀ t, σ.HasScope t → τ.HasScope t
  scope?_eq : ∀ t, σ.HasScope t → t ≠ s → τ.scope? t = σ.scope? t
  parent?_eq : ∀ t, σ.HasScope t → τ.parent? t = σ.parent? t
  definesLocally : ∀ t name, σ.definesLocally t name → τ.definesLocally t name

namespace Frame

variable {s s' : ScopeId} {σ τ υ : Store}

/-- A change that is none to the scopes changes no scope. -/
theorem of_scopes_eq (h : τ.scopes = σ.scopes) :
  Frame s σ τ
  := by
  constructor
  · intro t ht
    rwa [Store.HasScope, h]
  · intro t _ _
    rw [Store.scope?, Store.scope?, h]
  · intro t _
    rw [Store.parent?, Store.parent?, Store.scope?, Store.scope?, h]
  · intro t name
    rw [Store.definesLocally, Store.definesLocally, Store.getLocal?, Store.getLocal?,
      Store.scope?, Store.scope?, h]
    apply id

/-- Nothing has changed from a store to itself. -/
theorem refl (s : ScopeId) (σ : Store) :
  Frame s σ σ
  := of_scopes_eq rfl

/-- What happens next in a scope that was not there at first does not count. -/
theorem trans (h : Frame s σ τ) (hs : s' = s ∨ ¬ σ.HasScope s') (h' : Frame s' τ υ) :
  Frame s σ υ
  := by
  constructor
  · intro t ht
    apply h'.hasScope t (h.hasScope t ht)
  · intro t ht hne
    have hne' : t ≠ s' := by
      rintro rfl
      rcases hs with rfl | hs
      · apply hne rfl
      · apply hs ht
    rw [h'.scope?_eq t (h.hasScope t ht) hne', h.scope?_eq t ht hne]
  · intro t ht
    rw [h'.parent?_eq t (h.hasScope t ht), h.parent?_eq t ht]
  · intro t name ht
    apply h'.definesLocally t name (h.definesLocally t name ht)

/-- A definition in `s` changes `s` only. -/
theorem define (s : ScopeId) (σ : Store) (name : String) (v : Value) :
  Frame s σ (σ.define s name v)
  := by
  constructor
  · intro t ht
    rwa [Store.hasScope_define]
  · intro t _ hne
    rw [Store.scope?_define, if_neg hne]
  · intro t _
    rw [Store.parent?_define]
  · intro t name'
    rw [Store.definesLocally, Store.definesLocally, Store.getLocal?_define]
    split
    · rw [Store.getLocal?]
      cases σ.scope? t <;> simp
    · apply id

/-- So do definitions one after the other. -/
theorem defineAll (s : ScopeId) (σ : Store) (bindings : List (String × Value)) :
  Frame s σ (σ.defineAll s bindings)
  := by
  induction bindings generalizing σ with
  | nil => apply refl
  | cons binding bindings ih =>
    obtain ⟨name, v⟩ := binding
    apply (define s σ name v).trans (.inl rfl)
    apply ih

/-- A scope that is added was not there before. -/
theorem addScope (s : ScopeId) (σ : Store) (parent : Option ScopeId) :
  Frame s σ (σ.addScope parent).2
  := by
  constructor
  · intro t ht
    simp only [Store.HasScope, Store.addScope, Array.size_push] at ht ⊢
    omega
  · intro t ht _
    rw [Store.scope?_addScope ht]
  · intro t ht
    rw [Store.parent?, Store.parent?, Store.scope?_addScope ht]
  · intro t name
    by_cases ht : σ.HasScope t
    · rw [Store.definesLocally, Store.definesLocally, Store.getLocal?, Store.getLocal?,
        Store.scope?_addScope ht]
      apply id
    · rw [Store.definesLocally, Store.getLocal?, Store.scope?,
        Array.getElem?_eq_none (Nat.le_of_not_lt ht)]
      simp

end Frame

/-- The handle of a scope that is added was none of the handles before. -/
theorem Store.not_hasScope_addScope (σ : Store) (parent : Option ScopeId) :
  ¬ σ.HasScope (σ.addScope parent).1
  := Nat.lt_irrefl _

/-! ### Evaluations in one scope -/

namespace Eval

variable {α β : Type} {s : ScopeId}

/-- An evaluation changes no scope that was there before but `s`. -/
def Keeps (s : ScopeId) (x : Eval α) : Prop :=
  ∀ σ r τ, x.outcome σ = some (r, τ) → Frame s σ τ

namespace Keeps

/-- Whatever leaves all scopes as they are keeps to any of them. -/
theorem of_scopes_eq {x : Eval α} (h : ∀ σ r τ, x.outcome σ = some (r, τ) → τ.scopes = σ.scopes) :
  Keeps s x
  := by
  intro σ r τ hx
  apply Frame.of_scopes_eq (h σ r τ hx)

/-- To give a value changes nothing. -/
theorem pure (a : α) :
  Keeps s (Pure.pure a : Eval α)
  := by
  apply of_scopes_eq
  rintro σ r τ ⟨⟩
  rfl

/-- To fail changes nothing. -/
theorem throw (e : Error) :
  Keeps s (MonadExcept.throw e : Eval α)
  := by
  apply of_scopes_eq
  rintro σ r τ ⟨⟩
  rfl

/-- To look at the store changes nothing. -/
theorem ask (f : Store → Except Error α) :
  Keeps s (Eval.ask f)
  := by
  apply of_scopes_eq
  rintro σ r τ ⟨⟩
  rfl

/-- A change of the store keeps to `s` if it changes no other scope that was there. -/
theorem modifyGet {f : Store → α × Store} (h : ∀ σ, Frame s σ (f σ).2) :
  Keeps s (Eval.modifyGet f)
  := by
  rintro σ r τ ⟨⟩
  apply h

/-- Two evaluations one after the other keep to `s` if each of them does. -/
theorem bind {x : Eval α} {f : α → Eval β} (h : Keeps s x) (hf : ∀ a, Keeps s (f a)) :
  Keeps s (x >>= f)
  := by
  intro σ r τ hx
  rcases outcome_bind_eq_some.mp hx with ⟨e, he, rfl⟩ | ⟨a, υ, ha, hr⟩
  · apply h σ _ τ he
  · apply (h σ _ υ ha).trans (.inl rfl) (hf a υ r τ hr)

/-- To make a procedure changes no scope. -/
theorem makeProcedure (form : SpecialForm) (scope : ScopeId) (name : Option String)
    (params : Value) (body : List Value) :
  Keeps s (form.makeProcedure scope name params body)
  := by
  apply bind (ask _)
  intro names
  apply modifyGet
  intro σ
  apply Frame.of_scopes_eq
  rfl

/-- A callable that has its value at once changes no scope. -/
theorem applyImmediate (callee : Value) (args : List Value) :
  Keeps s (Eval.applyImmediate callee args)
  := by
  unfold Eval.applyImmediate
  split
  · apply ask
  · apply bind (ask _)
    intro native
    apply bind
    · apply modifyGet
      intro σ
      apply Frame.of_scopes_eq
      rfl
    · intro _
      apply ask
  · apply bind (ask _)
    intro _
    apply ask
  · apply throw

end Keeps

end Eval

/-! ### Steps -/

/-- Where a step goes on, if it does: in the scope `s`, or in one that is not in the store `σ`. -/
def Step.StaysIn (s : ScopeId) (σ : Store) : Step → Prop
  | .done _ => True
  | .tail _ s' _ | .enter _ s' => s' = s ∨ ¬ σ.HasScope s'

/-- What stays in a scope that was not there at first need not be there at all at first. -/
theorem Step.StaysIn.of_frame {s s' : ScopeId} {σ τ : Store} (h : Frame s σ τ)
    (hs : s' = s ∨ ¬ σ.HasScope s') {step : Step} (hstep : step.StaysIn s' τ) :
  step.StaysIn s σ
  := by
  have hscope {s'' : ScopeId} (hs' : s'' = s' ∨ ¬ τ.HasScope s'') : s'' = s ∨ ¬ σ.HasScope s'' := by
    rcases hs' with rfl | hs'
    · apply hs
    · right
      intro hσ
      apply hs' (h.hasScope _ hσ)
  cases step with
  | done v => trivial
  | tail e s'' position => apply hscope hstep
  | enter p s'' => apply hscope hstep

namespace Eval

variable {α : Type} {s : ScopeId} {eval : Value → Eval Value}

/-- An evaluation up to a tail position changes no scope that was there before but `s`, and the
step that it results in goes on in `s` or in a scope that was not there. -/
def KeepsStep (s : ScopeId) (x : Eval Step) : Prop :=
  ∀ σ r τ, x.outcome σ = some (r, τ) → Frame s σ τ ∧ ∀ step, r = .ok step → step.StaysIn s σ

namespace KeepsStep

/-- A step that is given has to go on in `s` or in a new scope, whatever the store. -/
theorem pure {step : Step} (h : ∀ σ, step.StaysIn s σ) :
  KeepsStep s (Pure.pure step)
  := by
  rintro σ r τ ⟨⟩
  constructor
  · apply Frame.refl
  · rintro step ⟨⟩
    apply h

/-- A failure goes on nowhere. -/
theorem throw (e : Error) :
  KeepsStep s (MonadExcept.throw e)
  := by
  rintro σ r τ ⟨⟩
  constructor
  · apply Frame.refl
  · rintro step ⟨⟩

/-- After an evaluation that keeps to `s`, a step that keeps to it as well. -/
theorem bind {x : Eval α} {f : α → Eval Step} (h : Keeps s x) (hf : ∀ a, KeepsStep s (f a)) :
  KeepsStep s (x >>= f)
  := by
  intro σ r τ hx
  rcases outcome_bind_eq_some.mp hx with ⟨e, he, rfl⟩ | ⟨a, υ, ha, hr⟩
  · constructor
    · apply h σ _ τ he
    · rintro step ⟨⟩
  · have hframe := h σ _ υ ha
    obtain ⟨hframe', hstep⟩ := hf a υ r τ hr
    constructor
    · apply hframe.trans (.inl rfl) hframe'
    · intro step hr
      apply (hstep step hr).of_frame hframe (.inl rfl)

/-- An evaluation with a value does not go on. -/
theorem done {x : Eval Value} (h : Keeps s x) :
  KeepsStep s (Step.done <$> x)
  := by
  rw [map_eq_pure_bind]
  apply bind h
  intro v
  apply pure
  intro σ
  trivial

/-- The names in the errors have no part in where a step goes on. -/
theorem within (expression : Value) {x : Eval Step} (h : KeepsStep s x) :
  KeepsStep s (x.within expression)
  := by
  intro σ r τ hwithin
  obtain ⟨r₀, hx, rfl⟩ := outcome_within_eq_some.mp hwithin
  obtain ⟨hframe, hstep⟩ := h σ r₀ τ hx
  constructor
  · apply hframe
  · intro step hr
    cases r₀ with
    | error e => cases hr
    | ok a => apply hstep step hr

/-- A tail position in `s` goes on in `s`. -/
theorem tail (e : Value) (position : Nat) :
  KeepsStep s (Pure.pure (.tail e s position))
  := by
  apply pure
  intro σ
  apply Or.inl rfl

/-- A value goes on nowhere. -/
theorem value (v : Value) :
  KeepsStep s (Pure.pure (.done v))
  := by
  apply pure
  intro σ
  trivial

/-- To keep to the scope is hereditary. -/
def hereditary (s : ScopeId) : Hereditary s where
  Holds := Keeps s
  HoldsStep := KeepsStep s
  pure := Keeps.pure
  bind := Keeps.bind
  done := value
  tail := tail
  andThen := bind

/-- To bind a name in `s` keeps to `s`. -/
theorem bindName (name : String) (v : Value) :
  KeepsStep s (SpecialForm.bind s name v)
  := by
  apply bind
  · apply Keeps.modifyGet
    intro σ
    apply Frame.define
  · intro _
    apply value

/-- A form keeps to the scope in which it is evaluated, if its evaluator does. -/
theorem form (h : ∀ e, Keeps s (eval e)) (form : SpecialForm) (args : List Value) :
  KeepsStep s (form.step eval s args)
  := by
  apply (hereditary s).form h
  · apply Keeps.makeProcedure
  · apply bindName
  · intro e _
    apply throw
  · intro _
    apply throw

/-- A call enters a scope that was not there before, and binds the parameters nowhere else. -/
theorem enter (p : Procedure) (args : List Value) :
  KeepsStep s (Step.enter p <$> bindParameters p args)
  := by
  rw [map_eq_pure_bind, bindParameters, bind_assoc]
  apply bind (Keeps.ask _)
  intro _ σ r τ h
  have hnew := σ.not_hasScope_addScope (some p.scope)
  simp only [outcome_bind, outcome_modifyGet, outcome_modify, outcome_pure, bind_assoc,
    Option.bind_some, Option.some.injEq, Prod.mk.injEq] at h
  obtain ⟨rfl, rfl⟩ := h
  constructor
  · apply (Frame.addScope s σ _).trans (.inr hnew)
    apply Frame.defineAll
  · rintro step ⟨⟩
    apply Or.inr hnew

/-- A call goes on in the new scope of a procedure, or nowhere. -/
theorem apply (callee : Value) (args : List Value) :
  KeepsStep s (Step.apply callee args)
  := by
  unfold Step.apply
  split
  · apply enter
  · apply done
    apply Keeps.applyImmediate

/-- The application of an operator to operands, evaluated where it stands. -/
theorem ofCall (h : ∀ e, Keeps s (eval e)) (operator : Value) (operands : List Value) :
  KeepsStep s (Step.ofCall eval s operator operands)
  := by
  apply bind (h operator)
  intro callee
  split
  · apply bind (Keeps.ask _)
    intro _
    apply form h
  · apply bind ((hereditary s).mapM h operands)
    apply KeepsStep.apply

/-- The step of an expression keeps to its scope, if the evaluations inside it keep to theirs. -/
theorem ofExpression {eval : ScopeId → Value → Eval Value} (h : ∀ s e, Keeps s (eval s e))
    (s : ScopeId) (e : Value) :
  KeepsStep s (Step.ofExpression eval s e)
  := by
  unfold Step.ofExpression
  split
  · apply done
    apply Keeps.ask
  · apply bind ((hereditary s).mapM (h s) _)
    intro items
    apply value
  · apply bind ((hereditary s).entries (h s) _ _)
    intro entries
    apply value
  · apply within
    apply ofCall (h s)
  · apply value

end KeepsStep

/-! ### Runs -/

/-- A run that began in the scope `s` changes no scope that was there then but `s`.  The store `υ`
is the one at which a step is followed; a run from `σ` has got to it. -/
theorem keeps_run (fuel : Nat) :
  (∀ depth s e, Keeps s (expression fuel depth s e)) ∧
    ∀ depth step s σ υ r τ, Frame s σ υ → step.StaysIn s σ →
      (follow fuel depth step).outcome υ = some (r, τ) → Frame s σ τ
  := by
  induction fuel with
  | zero =>
    constructor
    · rintro depth s e σ r τ ⟨⟩
    · rintro depth step s σ υ r τ _ _ ⟨⟩
  | succ fuel ih =>
    obtain ⟨ihExpression, ihFollow⟩ := ih
    -- a step that keeps the scope it is taken in, and what is followed from there on
    have hbind {depth : Nat} {s s' : ScopeId} {σ υ τ : Store} {r : Except Error Value}
        {x : Eval Step} (hframe : Frame s σ υ) (hs : s' = s ∨ ¬ σ.HasScope s')
        (hx : KeepsStep s' x) (h : (x >>= follow fuel depth).outcome υ = some (r, τ)) :
        Frame s σ τ := by
      rcases outcome_bind_eq_some.mp h with ⟨e, he, rfl⟩ | ⟨step, υ', hstep, hfollow⟩
      · apply hframe.trans hs (hx υ _ τ he).1
      · obtain ⟨hframe', hstays⟩ := hx υ _ υ' hstep
        apply ihFollow depth step s σ υ' r τ
        · apply hframe.trans hs hframe'
        · apply (hstays step rfl).of_frame hframe hs
        · apply hfollow
    constructor
    · intro depth s e
      rw [expression]
      split
      · apply Keeps.throw
      · intro σ r τ h
        apply hbind (Frame.refl s σ) (.inl rfl) _ h
        apply KeepsStep.ofExpression (ihExpression _)
    · intro depth step s σ υ r τ hframe hstays h
      cases step with
      | done v =>
        rw [follow] at h
        cases h
        apply hframe
      | tail e s' position =>
        apply hbind hframe hstays _ h
        apply KeepsStep.ofExpression (ihExpression _)
      | enter p s' =>
        apply hbind hframe hstays _ h
        apply (KeepsStep.hereditary s').ofBody (ihExpression _ s')

/-- Evaluation in the scope `s` leaves every scope that was there before and is not `s` with the
bindings it had; no such scope changes its parent, and no name that is bound in one becomes
unbound there.  It does not matter whether the evaluation has a value or fails. -/
theorem ends_frame {depth : Nat} {s : ScopeId} {e : Value} {σ τ : Store} {r : Except Error Value}
    (h : Ends depth s e σ r τ) :
  (∀ t, σ.HasScope t → t ≠ s → τ.scope? t = σ.scope? t) ∧
    (∀ t, σ.HasScope t → τ.HasScope t ∧ τ.parent? t = σ.parent? t) ∧
    ∀ t name, σ.definesLocally t name → τ.definesLocally t name
  := by
  obtain ⟨fuel, h⟩ := h
  have hframe := (keeps_run fuel).1 depth s e σ r τ h
  refine ⟨hframe.scope?_eq, ?_, hframe.definesLocally⟩
  intro t ht
  exact ⟨hframe.hasScope t ht, hframe.parent?_eq t ht⟩

/-- A procedure of the outer scope is called from the inner one; it defines `x` in the scope of the
call, and what it gives is then bound to `x` in the inner scope. -/
theorem ends_frame_call :
  ∃ σ r τ, σ = ((Store.empty.addScope none).2.addScope (some ⟨0⟩)).2 ∧
    Ends 0 ⟨1⟩
      (.list [.specialForm .define, .symbol "x",
        .list [.procedure ⟨0, none, ["y"],
          [.list [.specialForm .define, .symbol "x", .symbol "y"], .symbol "x"], ⟨0⟩⟩,
          .integer 2]]) σ r τ ∧
    σ.HasScope ⟨0⟩ ∧ τ.definesLocally ⟨1⟩ "x" ∧ τ.scope? ⟨0⟩ = σ.scope? ⟨0⟩
  := by
  have hends : Option.any (fun o => o.2.definesLocally ⟨1⟩ "x")
      ((expression 20 0 ⟨1⟩
        (.list [.specialForm .define, .symbol "x",
          .list [.procedure ⟨0, none, ["y"],
            [.list [.specialForm .define, .symbol "x", .symbol "y"], .symbol "x"], ⟨0⟩⟩,
            .integer 2]])).outcome ((Store.empty.addScope none).2.addScope (some ⟨0⟩)).2) := by
    decide +kernel
  obtain ⟨⟨r, τ⟩, h, hx⟩ := (Option.any_eq_true _ _).mp hends
  have hscope : ((Store.empty.addScope none).2.addScope (some ⟨0⟩)).2.HasScope ⟨0⟩ := by
    simp [Store.HasScope, Store.addScope, Store.empty]
  exact ⟨_, r, τ, rfl, ⟨20, h⟩, hscope, hx, (ends_frame ⟨20, h⟩).1 ⟨0⟩ hscope (by decide)⟩

end Eval

end PocketLisp
