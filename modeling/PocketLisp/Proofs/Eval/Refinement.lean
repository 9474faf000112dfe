import PocketLisp.Proofs.Eval.Congruence
import Mathlib.Tactic.Core
import Mathlib.Tactic.Use

/-!
# Refinement of evaluations

An evaluation refines another if the second ends whenever the first does, with the same store
and the same result, errors being compared only as far as a function `forget` lets them differ.

Refinement is a congruence.  Therefore an evaluation with more fuel ends as the one with less fuel
does, and how an expression ends does not depend on the fuel.
-/

namespace PocketLisp

namespace Eval

variable {α β : Type} {forget : Error → Error}

/-- A value is not changed by a function of errors. -/
@[simp]
theorem mapError_ok (f : Error → β) (a : α) :
  (Except.ok a).mapError f = .ok a
  := rfl

/-- An error is changed by a function of errors. -/
@[simp]
theorem mapError_error (f : Error → β) (e : Error) :
  (Except.error e : Except Error α).mapError f = .error (f e)
  := rfl

/-- The parts of a sequence of two evaluations that ends. -/
theorem outcome_bind_eq_some {x : Eval α} {f : α → Eval β} {σ τ : Store} {r : Except Error β} :
  (x >>= f).outcome σ = some (r, τ) ↔
    (∃ e, x.outcome σ = some (.error e, τ) ∧ r = .error e) ∨
      ∃ a υ, x.outcome σ = some (.ok a, υ) ∧ (f a).outcome υ = some (r, τ)
  := by
  rw [outcome_bind]
  cases h : x.outcome σ with
  | none => simp
  | some o =>
    obtain ⟨r' | a, υ⟩ := o
    · simp only [Option.bind_some, Option.some.injEq, Prod.mk.injEq, Except.error.injEq,
        reduceCtorEq, false_and, exists_false, or_false]
      constructor
      · rintro ⟨rfl, rfl⟩
        use r'
      · rintro ⟨e, ⟨rfl, rfl⟩, rfl⟩
        exact ⟨rfl, rfl⟩
    · simp [and_assoc]

/-- What was named in the errors of an evaluation that ends. -/
theorem outcome_within_eq_some {expression : Value} {x : Eval α} {σ τ : Store}
    {r : Except Error α} :
  (x.within expression).outcome σ = some (r, τ) ↔
    ∃ r₀, x.outcome σ = some (r₀, τ) ∧ r = r₀.mapError (Error.within expression)
  := by
  rw [outcome_within, Option.map_eq_some_iff]
  constructor
  · rintro ⟨⟨r₀, τ₀⟩, hx, heq⟩
    obtain ⟨rfl, rfl⟩ := Prod.mk.inj heq
    use r₀
  · rintro ⟨r₀, hx, rfl⟩
    use (r₀, τ)

/-- The evaluation `y` ends whenever `x` does, with the same store and the same result, up to
what is forgotten of errors. -/
def Refines (forget : Error → Error) (x y : Eval α) : Prop :=
  ∀ σ r τ, x.outcome σ = some (r, τ) →
    ∃ r', y.outcome σ = some (r', τ) ∧ r.mapError forget = r'.mapError forget

/-- What naming an expression adds to an error is not told apart where the errors are not. -/
def Tolerates (forget : Error → Error) : Prop :=
  ∀ expression e e', forget e = forget e' →
    forget (e.within expression) = forget (e'.within expression)

/-- Where nothing is forgotten, errors that are not told apart are equal before and after. -/
theorem tolerates_id :
  Tolerates id
  := by
  rintro expression e _ rfl
  rfl

namespace Refines

/-- An evaluation refines itself. -/
theorem refl (x : Eval α) :
  Refines forget x x
  := by
  intro σ r τ h
  use r

/-- What a refinement gives is given by a refinement of that, too. -/
theorem trans {x y z : Eval α} (hxy : Refines forget x y) (hyz : Refines forget y z) :
  Refines forget x z
  := by
  intro σ r τ h
  obtain ⟨r', h', hr⟩ := hxy σ r τ h
  obtain ⟨r'', h'', hr'⟩ := hyz σ r' τ h'
  use r'', h''
  rw [hr, hr']

/-- An evaluation without an outcome refines any other. -/
theorem outOfFuel (x : Eval α) :
  Refines forget Eval.outOfFuel x
  := by
  intro σ r τ h
  cases h

/-- Sequences refine if both parts do, the second after every value of the first. -/
theorem bind {x y : Eval α} {f g : α → Eval β} (h : Refines forget x y)
    (hf : ∀ a, Refines forget (f a) (g a)) :
  Refines forget (x >>= f) (y >>= g)
  := by
  intro σ r τ hx
  rcases outcome_bind_eq_some.mp hx with ⟨e, he, rfl⟩ | ⟨a, υ, ha, hr⟩
  · obtain ⟨r', hy, hr⟩ := h σ _ τ he
    cases r' with
    | ok b => simp at hr
    | error e' =>
      use .error e', outcome_bind_eq_some.mpr (.inl ⟨e', hy, rfl⟩)
      simpa using hr
  · obtain ⟨r', hy, hab⟩ := h σ _ υ ha
    cases r' with
    | error e => simp at hab
    | ok b =>
      obtain rfl : a = b := by simpa using hab
      obtain ⟨r'', hg, hr'⟩ := hf a υ r τ hr
      use r'', outcome_bind_eq_some.mpr (.inr ⟨a, υ, hy, hg⟩)

/-- To name an expression in the errors keeps a refinement, if what is forgotten tolerates names. -/
theorem within (hforget : Tolerates forget) (expression : Value) {x y : Eval α}
    (h : Refines forget x y) :
  Refines forget (x.within expression) (y.within expression)
  := by
  intro σ r τ hwithin
  obtain ⟨r₀, hx, rfl⟩ := outcome_within_eq_some.mp hwithin
  obtain ⟨r', hy, hr⟩ := h σ r₀ τ hx
  use r'.mapError (Error.within expression), outcome_within_eq_some.mpr ⟨r', hy, rfl⟩
  cases r₀ <;> cases r' <;>
    simp only [mapError_ok, mapError_error, Except.error.injEq, reduceCtorEq] at hr ⊢
  · apply hforget _ _ _ hr
  · apply hr

/-- An evaluation that refines without anything forgotten ends alike. -/
theorem outcome_eq {x y : Eval α} (h : Refines id x y) {σ τ : Store} {r : Except Error α}
    (hx : x.outcome σ = some (r, τ)) :
  y.outcome σ = some (r, τ)
  := by
  obtain ⟨r', hy, hr⟩ := h σ r τ hx
  cases r <;> cases r' <;> simp_all

/-- If nothing has to be forgotten, anything may be. -/
theorem forgetting {x y : Eval α} (h : Refines id x y) :
  Refines forget x y
  := by
  intro σ r τ hx
  use r, h.outcome_eq hx

end Refines

/-- The evaluator `eval'` gives all that `eval` gives. -/
def RefinesAll (forget : Error → Error) (eval eval' : Value → Eval Value) : Prop :=
  ∀ e, Refines forget (eval e) (eval' e)

/-- Refinement passes on to all that is put together from refined evaluators. -/
def refinement (hforget : Tolerates forget) : Congruence where
  Rel := Refines forget
  refl := Refines.refl
  bind := Refines.bind
  within := Refines.within hforget

/-! ### More fuel -/

/-- Expressions and steps that end with some fuel end alike with more. -/
theorem mono (fuel : Nat) :
  (∀ fuel' ≥ fuel, ∀ depth s e,
      Refines id (expression fuel depth s e) (expression fuel' depth s e)) ∧
    ∀ fuel' ≥ fuel, ∀ depth step, Refines id (follow fuel depth step) (follow fuel' depth step)
  := by
  induction fuel with
  | zero =>
    constructor
    · intro fuel' _ depth s e
      apply Refines.outOfFuel
    · intro fuel' _ depth step
      apply Refines.outOfFuel
  | succ fuel ih =>
    obtain ⟨ihExpression, ihFollow⟩ := ih
    constructor
    · rintro (_ | fuel') hle depth
      · cases hle
      · have hle := Nat.le_of_succ_le_succ hle
        apply (refinement tolerates_id).expression (ihExpression fuel' hle _)
          (ihFollow fuel' hle _) Iff.rfl
    · rintro (_ | fuel') hle depth
      · cases hle
      · have hle := Nat.le_of_succ_le_succ hle
        apply (refinement tolerates_id).follow (ihExpression fuel' hle _) (ihFollow fuel' hle _)

/-- More fuel gives all that less fuel gives, whatever is forgotten of errors. -/
theorem expression_refines_of_le {fuel fuel' : Nat} (hle : fuel ≤ fuel') (depth : Nat) (s : ScopeId)
    (e : Value) :
  Refines forget (expression fuel depth s e) (expression fuel' depth s e)
  := Refines.forgetting ((mono fuel).1 fuel' hle depth s e)

/-- An expression that ends with some fuel ends with the same outcome if there is more. -/
theorem outcome_expression_of_le {fuel fuel' depth : Nat} {s : ScopeId} {e : Value} {σ τ : Store}
    {r : Except Error Value} (hle : fuel ≤ fuel')
    (h : (expression fuel depth s e).outcome σ = some (r, τ)) :
  (expression fuel' depth s e).outcome σ = some (r, τ)
  := Refines.outcome_eq ((mono fuel).1 fuel' hle depth s e) h

/-- So does a step that is followed. -/
theorem outcome_follow_of_le {fuel fuel' depth : Nat} {step : Step} {σ τ : Store}
    {r : Except Error Value} (hle : fuel ≤ fuel')
    (h : (follow fuel depth step).outcome σ = some (r, τ)) :
  (follow fuel' depth step).outcome σ = some (r, τ)
  := Refines.outcome_eq ((mono fuel).2 fuel' hle depth step) h

/-- Evaluating `e` in the scope `s` at `depth`, from the store `σ` on, ends with the result `r`
and leaves the store `τ`. -/
def Ends (depth : Nat) (s : ScopeId) (e : Value) (σ : Store) (r : Except Error Value)
    (τ : Store) : Prop :=
  ∃ fuel, (expression fuel depth s e).outcome σ = some (r, τ)

/-- An evaluation ends in one way only. -/
theorem Ends.unique {depth : Nat} {s : ScopeId} {e : Value} {σ τ τ' : Store}
    {r r' : Except Error Value} (h : Ends depth s e σ r τ) (h' : Ends depth s e σ r' τ') :
  r = r' ∧ τ = τ'
  := by
  obtain ⟨fuel, h⟩ := h
  obtain ⟨fuel', h'⟩ := h'
  have h := outcome_expression_of_le (Nat.le_max_left fuel fuel') h
  rw [outcome_expression_of_le (Nat.le_max_right fuel fuel') h'] at h
  obtain ⟨rfl, rfl⟩ := Prod.mk.inj (Option.some.inj h)
  exact ⟨rfl, rfl⟩

end Eval

end PocketLisp
