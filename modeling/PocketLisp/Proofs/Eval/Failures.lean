import PocketLisp.Proofs.Eval.Constants
import PocketLisp.Proofs.Eval.Errors
import PocketLisp.Proofs.Eval.TailCalls

/-!
# Where steps fail

Forms and literals evaluate expressions one after the other, each in the store that is left by the one
before, and a form may stop at a value that decides.  If one of these expressions fails, so does the whole,
with the same error.

A step fails in no other ways but these: a name is unbound, a form refuses the arguments that it is
given, whatever they would evaluate to, or a callable fails on its evaluated arguments.  In the latter two
the list itself is at fault, and not an expression inside it.
-/

namespace PocketLisp

namespace SpecialForm

variable {form : SpecialForm} {args : List Value} {e : Error}

/-! ### The expressions inside a form -/

/-- The tests of the clauses that are not put off. -/
def tests : List Value → List Value
  | test :: _ :: clauses => if Direct.isElse test then tests clauses else test :: tests clauses
  | _ => []

/-- The arguments that a form evaluates before it gets to its tail position, in order.  It may get there
before all of them are evaluated. -/
def inner : SpecialForm → (args : List Value) → List Value
  | define, [.symbol _, e] => [e]
  | conditional, test :: _ => [test]
  | cond, clauses => tests clauses
  | sequence, args | and, args | or, args => args.dropLast
  | _, _ => []

/-- Whether a form goes on to the next of these arguments after a value. -/
def goesOn : SpecialForm → Value → Bool
  | and, v => v.truthy
  | or, v | cond, v => !v.truthy
  | _, _ => true

/-- The form fails on the arguments as they stand, whatever they would evaluate to. -/
def Refuses (form : SpecialForm) (s : ScopeId) (args : List Value) (e : Error) : Prop :=
  ∀ (eval : Value → Eval Value) (σ : Store), (form.step eval s args).outcome σ = some (.error e, σ)

end SpecialForm

namespace Eval

variable {α β : Type} {eval eval' : Value → Eval Value} {goesOn : Value → Bool} {σ υ τ : Store}
  {e u v : Value} {es : List Value} {error : Error}

/-! ### Failures -/

/-- In the store `σ` the evaluation fails with an error, and leaves the store `τ`. -/
def Fails (x : Eval α) (σ : Store) (error : Error) (τ : Store) : Prop :=
  x.outcome σ = some (.error error, τ)

/-- To give a value does not fail. -/
@[simp]
theorem not_fails_pure (a : α) :
  ¬ (pure a : Eval α).Fails σ error τ
  := by
  rintro ⟨⟩

/-- A look at the store fails as it does at this store, and leaves the store. -/
theorem fails_ask_iff {f : Store → Except Error α} :
  (ask f).Fails σ error τ ↔ f σ = .error error ∧ σ = τ
  := by
  rw [Fails, outcome_ask, Option.some.injEq, Prod.mk.injEq]

/-- A sequence fails if its first part does, or its second part from where the first one left off. -/
theorem fails_bind_iff {x : Eval α} {f : α → Eval β} :
  (x >>= f).Fails σ error τ ↔
    x.Fails σ error τ ∨ ∃ a υ, x.outcome σ = some (.ok a, υ) ∧ (f a).Fails υ error τ
  := by
  unfold Fails
  rw [outcome_bind_eq_some]
  simp

/-- What never fails does not count. -/
theorem fails_bind_iff_of_never {x : Eval α} {f : α → Eval β}
    (hf : ∀ a, FailsOnly (fun _ => False) (f a)) :
  (x >>= f).Fails σ error τ ↔ x.Fails σ error τ
  := by
  rw [fails_bind_iff]
  constructor
  · rintro (hx | ⟨a, υ, -, ha⟩)
    · apply hx
    · cases hf a υ error τ ha
  · apply Or.inl

/-- What is done to a value does not fail. -/
theorem fails_map_iff {x : Eval α} {f : α → β} :
  (f <$> x).Fails σ error τ ↔ x.Fails σ error τ
  := by
  rw [map_eq_pure_bind]
  apply fails_bind_iff_of_never
  intro a
  apply FailsOnly.pure

/-- A value that decides does not fail. -/
theorem fails_ite_iff {decided : Bool} {a : α} {x : Eval α} :
  (if decided then pure a else x).Fails σ error τ ↔ !decided ∧ x.Fails σ error τ
  := by
  cases decided <;> simp

/-- To name an expression in the errors fails with the error so named. -/
theorem fails_within_iff {expression : Value} {x : Eval α} :
  (x.within expression).Fails σ error τ ↔
    ∃ raised, x.Fails σ raised τ ∧ error = raised.within expression
  := by
  unfold Fails
  rw [outcome_within_eq_some]
  constructor
  · rintro ⟨r, hx, heq⟩
    cases r with
    | ok a => cases heq
    | error raised => exact ⟨raised, hx, Except.error.inj heq⟩
  · rintro ⟨raised, hx, rfl⟩
    exact ⟨.error raised, hx, rfl⟩

/-! ### Expressions in a row -/

/-- If the expressions are evaluated in order from the store `σ` on, as long as the values let them go on,
then `u` is one of those that are evaluated, and it is evaluated in the store `σ'`. -/
inductive Reaches (eval : Value → Eval Value) (goesOn : Value → Bool) :
    List Value → Store → (u : Value) → (σ' : Store) → Prop
  | here {e : Value} {es : List Value} {σ : Store} : Reaches eval goesOn (e :: es) σ e σ
  | next {e v u : Value} {es : List Value} {σ υ σ' : Store}
      (h : (eval e).outcome σ = some (.ok v, υ)) (hv : goesOn v)
      (hes : Reaches eval goesOn es υ u σ') : Reaches eval goesOn (e :: es) σ u σ'

/-- One of the expressions that are evaluated fails. -/
def FailsIn (eval : Value → Eval Value) (goesOn : Value → Bool) (es : List Value) (σ : Store)
    (error : Error) (τ : Store) : Prop :=
  ∃ u σ', Reaches eval goesOn es σ u σ' ∧ (eval u).Fails σ' error τ

/-- Where there is no expression, none fails. -/
@[simp]
theorem not_failsIn_nil :
  ¬ FailsIn eval goesOn [] σ error τ
  := by
  rintro ⟨u, σ', ⟨⟩, -⟩

/-- An evaluation that cannot fail fails as a row without expressions does. -/
theorem fails_iff_failsIn_nil {x : Eval α} (h : FailsOnly (fun _ => False) x) :
  x.Fails σ error τ ↔ FailsIn eval goesOn [] σ error τ
  := by
  rw [iff_false_intro not_failsIn_nil, iff_false]
  apply h

/-- The first of a row fails, or it has a value with which the row goes on and a later one fails. -/
theorem failsIn_cons_iff :
  FailsIn eval goesOn (e :: es) σ error τ ↔
    (eval e).Fails σ error τ ∨
      ∃ v υ, (eval e).outcome σ = some (.ok v, υ) ∧ goesOn v ∧ FailsIn eval goesOn es υ error τ
  := by
  constructor
  · rintro ⟨u, σ', hreaches, hu⟩
    cases hreaches with
    | here => apply Or.inl hu
    | next h hv hes => exact .inr ⟨_, _, h, hv, u, σ', hes, hu⟩
  · rintro (he | ⟨v, υ, h, hv, u, σ', hes, hu⟩)
    · exact ⟨e, σ, .here, he⟩
    · exact ⟨u, σ', .next h hv hes, hu⟩

/-- In a row of one expression that one fails. -/
theorem failsIn_singleton_iff :
  FailsIn eval goesOn [e] σ error τ ↔ (eval e).Fails σ error τ
  := by
  simp [failsIn_cons_iff]

/-- What is reached with one evaluator is reached with any that gives all that this one gives. -/
theorem Reaches.mono {σ' : Store} (heval : ∀ e, Refines id (eval e) (eval' e))
    (h : Reaches eval goesOn es σ u σ') :
  Reaches eval' goesOn es σ u σ'
  := by
  induction h with
  | here => apply here
  | next h hv _ ih => apply next ((heval _).outcome_eq h) hv ih

/-- Expressions that are all evaluated fail with the first of them that does. -/
theorem fails_mapM_iff :
  (es.mapM eval).Fails σ error τ ↔ FailsIn eval (fun _ => true) es σ error τ
  := by
  induction es generalizing σ with
  | nil => simp
  | cons e es ih =>
    rw [List.mapM_cons, fails_bind_iff, failsIn_cons_iff]
    simp only [← map_eq_pure_bind, fails_map_iff, ih, true_and]

/-- Entries fail with the first key or value that does, in the order of evaluation. -/
theorem fails_entries_iff {evaluated : Entries} {unevaluated : List (Value × Value)} :
  (entries eval evaluated unevaluated).Fails σ error τ ↔
    FailsIn eval (fun _ => true) (Value.map unevaluated).elements σ error τ
  := by
  induction unevaluated generalizing evaluated σ with
  | nil => simp [entries, Value.elements]
  | cons entry unevaluated ih =>
    obtain ⟨key, value⟩ := entry
    change _ ↔ FailsIn eval _ (key :: value :: (Value.map unevaluated).elements) σ error τ
    simp only [entries, fails_bind_iff, failsIn_cons_iff, ih, true_and]

/-! ### Forms -/

section

variable {s : ScopeId} {position : Nat}

/-- A body fails before its end with the first expression there that does. -/
theorem fails_ofBody_iff {body : List Value} :
  (Step.ofBody eval s position body).Fails σ error τ ↔
    FailsIn eval (fun _ => true) body.dropLast σ error τ
  := by
  fun_induction Step.ofBody eval s position body generalizing σ with
  | case1 => simp
  | case2 => simp
  | case3 position e body hne ih =>
    obtain ⟨e', body, rfl⟩ := List.exists_cons_of_ne_nil hne
    simp only [fails_bind_iff, List.dropLast_cons_cons, failsIn_cons_iff, ih, true_and]

/-- So does a row, as long as no value decides. -/
theorem fails_untilDecided_iff {decides : Value → Bool} {empty : Value} :
  (Step.untilDecided eval s decides empty position es).Fails σ error τ ↔
    FailsIn eval (fun v => !decides v) es.dropLast σ error τ
  := by
  fun_induction Step.untilDecided eval s decides empty position es generalizing σ with
  | case1 => simp
  | case2 => simp
  | case3 position e es hne ih =>
    obtain ⟨e', es, rfl⟩ := List.exists_cons_of_ne_nil hne
    simp only [fails_bind_iff, List.dropLast_cons_cons, failsIn_cons_iff, fails_ite_iff, ih]

/-- Clauses fail with the first test that does, as long as the tests before it are false. -/
theorem fails_ofClauses_iff {otherwise : Option (Value × Nat)} {clauses : List Value} :
  (Step.ofClauses eval s position otherwise clauses).Fails σ error τ ↔
    FailsIn eval (fun v => !v.truthy) (SpecialForm.tests clauses) σ error τ
  := by
  fun_induction Step.ofClauses eval s position otherwise clauses generalizing σ with
  | case1 position otherwise e clauses ih =>
    rw [ih]
    rfl
  | case2 position otherwise e clauses test hne ih =>
    have htests : SpecialForm.tests (test :: e :: clauses) = test :: SpecialForm.tests clauses := by
      rw [SpecialForm.tests, Direct.isElse_eq_false hne]
      rfl
    simp only [fails_bind_iff, htests, failsIn_cons_iff, fails_ite_iff, ih]
  | case3 clauses _ e _ h =>
    rw [SpecialForm.tests]
    · simp
    · assumption
  | case4 clauses _ h =>
    rw [SpecialForm.tests]
    · simp
    · assumption

end

/-- Parameters are either refused, or a procedure is made and there is no failure. -/
theorem refuses_or_never_fails_makeProcedure (form : SpecialForm) (s : ScopeId) (name : Option String)
    (params : Value) (body : List Value) {f : Value → Eval Step}
    (hf : ∀ v, FailsOnly (fun _ => False) (f v)) :
  (∃ error, ∀ σ, (form.makeProcedure s name params body >>= f).outcome σ = some (.error error, σ)) ∨
    FailsOnly (fun _ => False) (form.makeProcedure s name params body >>= f)
  := by
  rw [SpecialForm.makeProcedure]
  cases form.parameters params with
  | error e =>
    left
    use e
    intro σ
    rfl
  | ok names =>
    right
    apply FailsOnly.bind _ hf
    apply FailsOnly.bind
    · apply FailsOnly.ofExcept
      nofun
    · intro _
      apply FailsOnly.modifyGet

/-- Either the form refuses its arguments, or else it fails exactly if an expression inside it does. -/
theorem refuses_or_fails_step_iff {form : SpecialForm} (s : ScopeId) {args : List Value}
    (haccepts : form.arity.accepts args.length) :
  (∃ error, form.Refuses s args error ∧ form.inner args = []) ∨
    ∀ eval σ error τ, (form.step eval s args).Fails σ error τ ↔
      FailsIn eval form.goesOn (form.inner args) σ error τ
  := by
  cases form with
  | quote =>
    rw [SpecialForm.arity, Arity.accepts_exact_iff, List.length_eq_one_iff] at haccepts
    obtain ⟨v, rfl⟩ := haccepts
    right
    intro eval σ error τ
    simp [SpecialForm.step, SpecialForm.inner]
  | sequence =>
    right
    intro eval σ error τ
    apply fails_ofBody_iff
  | define =>
    rw [SpecialForm.arity, Arity.accepts_exact_iff, List.length_eq_two] at haccepts
    obtain ⟨target, e, rfl⟩ := haccepts
    cases target with
    | symbol name =>
      right
      intro eval σ error τ
      rw [SpecialForm.inner, failsIn_singleton_iff]
      apply fails_bind_iff_of_never
      apply FailsOnly.bindName
    | _ => exact .inl ⟨_, fun _ _ => rfl, rfl⟩
  | lambda =>
    rw [SpecialForm.arity, Arity.accepts_atLeast_iff] at haccepts
    obtain ⟨params, body, rfl⟩ := List.exists_cons_of_length_pos haccepts
    rcases refuses_or_never_fails_makeProcedure .lambda s none params body
      (f := fun p => pure (.done p)) (fun _ => FailsOnly.pure _) with ⟨e, he⟩ | hnever
    · exact .inl ⟨e, fun _ => he, rfl⟩
    · right
      intro eval σ error τ
      apply fails_iff_failsIn_nil hnever
  | defineProcedure =>
    rw [SpecialForm.arity, Arity.accepts_atLeast_iff] at haccepts
    obtain ⟨target, rest, rfl⟩ :=
      List.exists_cons_of_length_pos (Nat.lt_of_lt_of_le Nat.two_pos haccepts)
    obtain ⟨params, body, rfl⟩ := List.exists_cons_of_length_pos (Nat.le_of_succ_le_succ haccepts)
    cases target with
    | symbol name =>
      rcases refuses_or_never_fails_makeProcedure .defineProcedure s (some name) params body
        (FailsOnly.bindName s name) with ⟨e, he⟩ | hnever
      · exact .inl ⟨e, fun _ => he, rfl⟩
      · right
        intro eval σ error τ
        apply fails_iff_failsIn_nil hnever
    | _ => exact .inl ⟨_, fun _ _ => rfl, rfl⟩
  | conditional =>
    right
    intro eval σ error τ
    rw [SpecialForm.arity, Arity.accepts_range_iff, Nat.le_and_le_add_one_iff] at haccepts
    rcases haccepts with hlength | hlength
    · obtain ⟨test, consequent, rfl⟩ := List.length_eq_two.mp hlength
      rw [SpecialForm.inner, failsIn_singleton_iff]
      apply fails_bind_iff_of_never
      intro v
      split
      · apply FailsOnly.pure
      · apply FailsOnly.pure
    · obtain ⟨test, consequent, alternative, rfl⟩ := List.length_eq_three.mp hlength
      rw [SpecialForm.inner, failsIn_singleton_iff]
      apply fails_bind_iff_of_never
      intro v
      split
      · apply FailsOnly.pure
      · apply FailsOnly.pure
  | cond =>
    right
    intro eval σ error τ
    rw [SpecialForm.step, if_pos (Arity.accepts_even_iff.mp haccepts)]
    apply fails_ofClauses_iff
  | and =>
    right
    intro eval σ error τ
    rw [SpecialForm.step, fails_untilDecided_iff]
    simp only [Bool.not_not]
    rfl
  | or =>
    right
    intro eval σ error τ
    apply fails_untilDecided_iff

/-- A form that accepts the number of its arguments fails by refusing them, or as an expression inside it
does. -/
theorem fails_step_iff {form : SpecialForm} {s : ScopeId} {args : List Value}
    (haccepts : form.arity.accepts args.length) :
  (form.step eval s args).Fails σ error τ ↔
    (form.Refuses s args error ∧ σ = τ) ∨ FailsIn eval form.goesOn (form.inner args) σ error τ
  := by
  rcases refuses_or_fails_step_iff s haccepts with ⟨e, he, hinner⟩ | hiff
  · rw [hinner, iff_false_intro not_failsIn_nil, or_false, Fails, he]
    constructor
    · rintro ⟨⟩
      exact ⟨he, rfl⟩
    · rintro ⟨herror, rfl⟩
      rw [← he eval σ, herror]
  · rw [hiff]
    constructor
    · apply Or.inr
    · rintro (⟨herror, rfl⟩ | hfails)
      · exact (hiff eval σ error σ).mp (herror eval σ)
      · apply hfails

/-- The check of the number of arguments adds nothing, for the form itself refuses a wrong one. -/
theorem fails_validate_iff {form : SpecialForm} {s : ScopeId} {args : List Value} :
  (ofExcept (form.arity.validate args.length) >>= fun _ => form.step eval s args).Fails σ error τ ↔
    (form.Refuses s args error ∧ σ = τ) ∨
      form.arity.accepts args.length ∧ FailsIn eval form.goesOn (form.inner args) σ error τ
  := by
  by_cases haccepts : form.arity.accepts args.length
  · rw [Arity.validate, if_pos haccepts, and_iff_right haccepts, ← fails_step_iff haccepts]
    rfl
  · rw [Arity.validate, if_neg haccepts, iff_false_intro (not_and_of_not_left _ haccepts), or_false]
    simp only [SpecialForm.Refuses, SpecialForm.step_of_not_accepts haccepts]
    constructor
    · rintro ⟨⟩
      exact ⟨fun _ _ => rfl, rfl⟩
    · rintro ⟨herror, rfl⟩
      apply herror eval

/-! ### Steps -/

/-- On the way to its tail position, the step of an expression in the store `σ` evaluates `u` in the store
`σ'`. -/
inductive Evaluates (eval : Value → Eval Value) :
    (e : Value) → (σ : Store) → (u : Value) → (σ' : Store) → Prop
  /-- In a vector or a map. -/
  | element {e u : Value} {σ σ' : Store} (h : Reaches eval (fun _ => true) e.elements σ u σ') :
    Evaluates eval e σ u σ'
  | operator {operator : Value} {operands : List Value} {σ : Store} :
    Evaluates eval (.list (operator :: operands)) σ operator σ
  | formOperand {operator u : Value} {operands : List Value} {σ υ σ' : Store} {form : SpecialForm}
    (hoperator : (eval operator).outcome σ = some (.ok (.specialForm form), υ))
    (haccepts : form.arity.accepts operands.length)
    (h : Reaches eval form.goesOn (form.inner operands) υ u σ') :
    Evaluates eval (.list (operator :: operands)) σ u σ'
  | operand {operator callee u : Value} {operands : List Value} {σ υ σ' : Store}
    (hoperator : (eval operator).outcome σ = some (.ok callee, υ))
    (hcallee : ∀ form, callee ≠ .specialForm form)
    (h : Reaches eval (fun _ => true) operands υ u σ') :
    Evaluates eval (.list (operator :: operands)) σ u σ'

/-- The application step of a list fails, after all evaluations inside it have succeeded: the operator is a
form that refuses the operands, or a callable that fails on their values. -/
inductive FailsToApply (eval : Value → Eval Value) (s : ScopeId) :
    (e : Value) → Store → Error → Store → Prop
  | form {operator : Value} {operands : List Value} {σ τ : Store} {form : SpecialForm} {error : Error}
    (hoperator : (eval operator).outcome σ = some (.ok (.specialForm form), τ))
    (h : form.Refuses s operands error) :
    FailsToApply eval s (.list (operator :: operands)) σ error τ
  | call {operator callee : Value} {operands args : List Value} {σ υ σ' τ : Store} {error : Error}
    (hoperator : (eval operator).outcome σ = some (.ok callee, υ))
    (hcallee : ∀ form, callee ≠ .specialForm form)
    (hoperands : (operands.mapM eval).outcome υ = some (.ok args, σ'))
    (h : (Step.apply callee args).Fails σ' error τ) :
    FailsToApply eval s (.list (operator :: operands)) σ error τ

/-- One of the expressions that the step evaluates fails. -/
def FailsInside (eval : Value → Eval Value) (e : Value) (σ : Store) (error : Error) (τ : Store) : Prop :=
  ∃ u σ', Evaluates eval e σ u σ' ∧ (eval u).Fails σ' error τ

/-- A step evaluates the same with an evaluator that gives all that another one gives. -/
theorem Evaluates.mono {σ' : Store} (heval : ∀ e, Refines id (eval e) (eval' e))
    (h : Evaluates eval e σ u σ') :
  Evaluates eval' e σ u σ'
  := by
  cases h with
  | element h => apply element (h.mono heval)
  | operator => apply operator
  | formOperand hoperator haccepts h =>
    apply formOperand ((heval _).outcome_eq hoperator) haccepts (h.mono heval)
  | operand hoperator hcallee h =>
    apply operand ((heval _).outcome_eq hoperator) hcallee (h.mono heval)

variable {s : ScopeId}

section

variable {operator callee : Value} {operands : List Value} {form : SpecialForm}

/-- What is left of the step when the operator has turned out to be a form. -/
theorem fails_ofCall_iff_of_form (hoperator : (eval operator).outcome σ = some (.ok (.specialForm form), υ)) :
  (Step.ofCall eval s operator operands).Fails σ error τ ↔
    (form.Refuses s operands error ∧ υ = τ) ∨
      form.arity.accepts operands.length ∧ FailsIn eval form.goesOn (form.inner operands) υ error τ
  := by
  rw [Fails, Step.ofCall, outcome_bind, hoperator]
  apply fails_validate_iff

/-- What is left of the step when the operator has turned out to be anything else. -/
theorem fails_ofCall_iff_of_callee (hoperator : (eval operator).outcome σ = some (.ok callee, υ))
    (hcallee : ∀ form, callee ≠ .specialForm form) :
  (Step.ofCall eval s operator operands).Fails σ error τ ↔
    FailsIn eval (fun _ => true) operands υ error τ ∨
      ∃ args σ', (operands.mapM eval).outcome υ = some (.ok args, σ') ∧
        (Step.apply callee args).Fails σ' error τ
  := by
  rw [← fails_mapM_iff, ← fails_bind_iff, Fails, Step.ofCall, outcome_bind, hoperator]
  dsimp only [Option.bind_some]
  split
  next form => cases hcallee form rfl
  next => rfl

/-- A call fails because the list fails to apply, or because an expression inside it fails. -/
theorem fails_ofCall_iff :
  (Step.ofCall eval s operator operands).Fails σ error τ ↔
    FailsToApply eval s (.list (operator :: operands)) σ error τ ∨
      FailsInside eval (.list (operator :: operands)) σ error τ
  := by
  constructor
  · intro h
    rcases fails_bind_iff.mp h with hoperator | ⟨callee, υ, hoperator, -⟩
    · exact .inr ⟨operator, σ, .operator, hoperator⟩
    by_cases hform : ∃ form, callee = .specialForm form
    · obtain ⟨form, rfl⟩ := hform
      rcases (fails_ofCall_iff_of_form hoperator).mp h with
        ⟨hrefuses, rfl⟩ | ⟨haccepts, u, σ', hreaches, hu⟩
      · exact .inl (.form hoperator hrefuses)
      · exact .inr ⟨u, σ', .formOperand hoperator haccepts hreaches, hu⟩
    · have hcallee := not_exists.mp hform
      rcases (fails_ofCall_iff_of_callee hoperator hcallee).mp h with
        ⟨u, σ', hreaches, hu⟩ | ⟨args, σ', hoperands, happly⟩
      · exact .inr ⟨u, σ', .operand hoperator hcallee hreaches, hu⟩
      · exact .inl (.call hoperator hcallee hoperands happly)
  · rintro (happly | ⟨u, σ', hevaluates, hu⟩)
    · cases happly with
      | form hoperator hrefuses =>
        apply (fails_ofCall_iff_of_form hoperator).mpr
        exact .inl ⟨hrefuses, rfl⟩
      | call hoperator hcallee hoperands happly =>
        apply (fails_ofCall_iff_of_callee hoperator hcallee).mpr
        exact .inr ⟨_, _, hoperands, happly⟩
    · cases hevaluates with
      | element hreaches => cases hreaches
      | operator => exact fails_bind_iff.mpr (.inl hu)
      | formOperand hoperator haccepts hreaches =>
        apply (fails_ofCall_iff_of_form hoperator).mpr
        exact .inr ⟨haccepts, u, σ', hreaches, hu⟩
      | operand hoperator hcallee hreaches =>
        apply (fails_ofCall_iff_of_callee hoperator hcallee).mpr
        exact .inl ⟨u, σ', hreaches, hu⟩

end

/-- The expression itself if it is a call or a form: it is named in the errors that leave its step. -/
def frame : Value → List Value
  | .list (operator :: operands) => [.list (operator :: operands)]
  | _ => []

/-- In what is no call and no form, only the elements of a vector or a map are evaluated. -/
theorem fails_iff_of_frame_eq_nil (h : frame e = []) :
  (∃ raised, error = (frame e).foldr Error.within raised ∧
      (FailsToApply eval s e σ raised τ ∨ FailsInside eval e σ raised τ)) ↔
    FailsIn eval (fun _ => true) e.elements σ error τ
  := by
  rw [h]
  constructor
  · rintro ⟨_, rfl, happly | ⟨u, σ', hevaluates, hu⟩⟩
    · cases happly <;> cases h
    · cases hevaluates with
      | element hreaches => exact ⟨u, σ', hreaches, hu⟩
      | operator | formOperand | operand => cases h
  · rintro ⟨u, σ', hreaches, hu⟩
    exact ⟨error, rfl, .inr ⟨u, σ', .element hreaches, hu⟩⟩

/-- A step fails if a name is unbound, if a list fails to apply, or if an expression inside it fails.  In
the latter cases a list names itself in the error. -/
theorem fails_ofExpression_iff {eval : ScopeId → Value → Eval Value} :
  (Step.ofExpression eval s e).Fails σ error τ ↔
    (∃ name, e = .symbol name ∧ σ.get? s name = none ∧ error = .unbound name ∧ σ = τ) ∨
      ∃ raised, error = (frame e).foldr Error.within raised ∧
        (FailsToApply (eval s) s e σ raised τ ∨ FailsInside (eval s) e σ raised τ)
  := by
  unfold Step.ofExpression
  split
  next name =>
    rw [fails_map_iff, fails_ask_iff, fails_iff_of_frame_eq_nil rfl, Store.find]
    cases hget : σ.get? s name <;> simp [Value.elements, hget, eq_comm]
  next items =>
    rw [← map_eq_pure_bind, fails_map_iff, fails_mapM_iff, fails_iff_of_frame_eq_nil rfl]
    simp [Value.elements]
  next entries =>
    rw [← map_eq_pure_bind, fails_map_iff, fails_entries_iff, fails_iff_of_frame_eq_nil rfl]
    simp
  next operator operands =>
    rw [fails_within_iff]
    simp [frame, fails_ofCall_iff, and_comm]
  next hsymbol hvector hmap hlist =>
    have helements : e.elements = [] := by
      rw [Value.elements]
      · assumption
      · assumption
    have hframe : frame e = [] := by
      rw [frame]
      assumption
    rw [fails_iff_of_frame_eq_nil hframe, helements]
    simp only [not_fails_pure, not_failsIn_nil, or_false, false_iff]
    rintro ⟨name, hname, -⟩
    apply hsymbol name hname

end Eval

end PocketLisp
