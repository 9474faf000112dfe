import PocketLisp.Eval.Run

/-!
# Congruences of evaluations

Forms, steps and literals are put together from evaluations of the expressions inside them: one
evaluation comes after another, or its errors name an expression.  A `Congruence` is a relation of
evaluations that this respects.  Whatever is put together in one way from related evaluators is
related, up to a whole turn of a run.
-/

namespace PocketLisp

/-- A relation of evaluations with results of one type, each related to itself.  It passes on to
sequences, and to evaluations whose errors name one expression. -/
structure Congruence where
  Rel : {α : Type} → (x y : Eval α) → Prop
  refl {α : Type} (x : Eval α) : Rel x x
  bind {α β : Type} {x y : Eval α} {f g : α → Eval β} (h : Rel x y) (hf : ∀ a, Rel (f a) (g a)) :
    Rel (x >>= f) (y >>= g)
  within {α : Type} (expression : Value) {x y : Eval α} (h : Rel x y) :
    Rel (x.within expression) (y.within expression)

namespace Congruence

variable (c : Congruence)

/-! ### Forms and literals -/

section

variable {eval eval' : Value → Eval Value} (h : ∀ e, c.Rel (eval e) (eval' e))

include h

/-- Expressions in a row are evaluated alike by related evaluators. -/
theorem mapM (es : List Value) :
  c.Rel (es.mapM eval) (es.mapM eval')
  := by
  induction es with
  | nil => apply c.refl
  | cons e es ih =>
    rw [List.mapM_cons, List.mapM_cons]
    apply c.bind (h e)
    intro v
    apply c.bind ih
    intro vs
    apply c.refl

/-- The entries of a map, keys before their values, are evaluated alike. -/
theorem entries (evaluated : Entries) (unevaluated : List (Value × Value)) :
  c.Rel (Eval.entries eval evaluated unevaluated) (Eval.entries eval' evaluated unevaluated)
  := by
  induction unevaluated generalizing evaluated with
  | nil => apply c.refl
  | cons entry unevaluated ih =>
    obtain ⟨key, value⟩ := entry
    apply c.bind (h key)
    intro k
    apply c.bind (h value)
    intro v
    apply ih

/-- The expressions of a body before its end are evaluated alike, and the end is left to both. -/
theorem ofBody (s : ScopeId) (position : Nat) (body : List Value) :
  c.Rel (Step.ofBody eval s position body) (Step.ofBody eval' s position body)
  := by
  fun_induction Step.ofBody eval s position body with
  | case1 => apply c.refl
  | case2 => apply c.refl
  | case3 position expression body _ ih =>
    rw [Step.ofBody]
    · apply c.bind (h expression)
      intro _
      apply ih
    · assumption

/-- So are those of a row in which a value may decide before the end is reached. -/
theorem untilDecided (s : ScopeId) (decides : Value → Bool) (empty : Value) (position : Nat)
    (es : List Value) :
  c.Rel (Step.untilDecided eval s decides empty position es)
    (Step.untilDecided eval' s decides empty position es)
  := by
  fun_induction Step.untilDecided eval s decides empty position es with
  | case1 => apply c.refl
  | case2 => apply c.refl
  | case3 position expression es _ ih =>
    rw [Step.untilDecided]
    · apply c.bind (h expression)
      intro v
      split
      · apply c.refl
      · apply ih
    · assumption

/-- So are the tests of the clauses, up to the one whose expression is the end. -/
theorem ofClauses (s : ScopeId) (position : Nat) (otherwise : Option (Value × Nat))
    (clauses : List Value) :
  c.Rel (Step.ofClauses eval s position otherwise clauses)
    (Step.ofClauses eval' s position otherwise clauses)
  := by
  fun_induction Step.ofClauses eval s position otherwise clauses with
  | case1 position otherwise expression clauses ih =>
    rw [Step.ofClauses]
    apply ih
  | case2 position otherwise expression clauses test _ ih =>
    rw [Step.ofClauses]
    · apply c.bind (h test)
      intro v
      split
      · apply c.refl
      · apply ih
    · assumption
  | case3 =>
    rw [Step.ofClauses]
    · apply c.refl
    · assumption
  | case4 =>
    rw [Step.ofClauses]
    · apply c.refl
    · assumption

/-- Forms do the same with both evaluators on the expressions inside them; what else they do does not depend
on an evaluator. -/
theorem form (s : ScopeId) (form : SpecialForm) (args : List Value) :
  c.Rel (form.step eval s args) (form.step eval' s args)
  := by
  cases form with
  | quote => apply c.refl
  | sequence => apply c.ofBody h
  | define =>
    simp only [SpecialForm.step]
    split
    · apply c.bind (h _)
      intro v
      apply c.refl
    · apply c.refl
    · apply c.refl
  | lambda => apply c.refl
  | defineProcedure => apply c.refl
  | conditional =>
    simp only [SpecialForm.step]
    split
    · apply c.bind (h _)
      intro v
      apply c.refl
    · apply c.bind (h _)
      intro v
      apply c.refl
    · apply c.refl
  | cond =>
    simp only [SpecialForm.step]
    split
    · apply c.ofClauses h
    · apply c.refl
  | and => apply c.untilDecided h
  | or => apply c.untilDecided h

/-- The operator is evaluated alike, and with a callable that is no form so are the operands. -/
theorem ofCall (s : ScopeId) (operator : Value) (operands : List Value) :
  c.Rel (Step.ofCall eval s operator operands) (Step.ofCall eval' s operator operands)
  := by
  apply c.bind (h operator)
  intro callee
  split
  · apply c.bind (c.refl _)
    intro _
    apply c.form h
  · apply c.bind (c.mapM h operands)
    intro args
    apply c.refl

end

/-- The step of an expression, if the evaluators are related in every scope. -/
theorem ofExpression {eval eval' : ScopeId → Value → Eval Value}
    (h : ∀ s e, c.Rel (eval s e) (eval' s e)) (s : ScopeId) (e : Value) :
  c.Rel (Step.ofExpression eval s e) (Step.ofExpression eval' s e)
  := by
  unfold Step.ofExpression
  split
  · apply c.refl
  · apply c.bind (c.mapM (h s) _)
    intro vs
    apply c.refl
  · apply c.bind (c.entries (h s) _ _)
    intro entries
    apply c.refl
  · apply c.within
    apply c.ofCall (h s)
  · apply c.refl

/-! ### Turns of a run -/

section

variable {fuel fuel' depth depth' : Nat}
  (hexpression : ∀ s e,
    c.Rel (Eval.expression fuel (depth + 1) s e) (Eval.expression fuel' (depth' + 1) s e))
  (hfollow : ∀ step, c.Rel (Eval.follow fuel depth step) (Eval.follow fuel' depth' step))

include hexpression hfollow

/-- With one more fuel expressions are related, if what is evaluated inside them and followed after them is,
and if the limit is reached on both sides or on neither. -/
theorem expression (hlimit : depthLimit ≤ depth ↔ depthLimit ≤ depth') (s : ScopeId) (e : Value) :
  c.Rel (Eval.expression (fuel + 1) depth s e) (Eval.expression (fuel' + 1) depth' s e)
  := by
  rw [Eval.expression, Eval.expression]
  simp only [hlimit]
  split
  · apply c.refl
  · apply c.bind _ hfollow
    apply c.ofExpression hexpression

/-- So are steps that are followed. -/
theorem follow (step : Step) :
  c.Rel (Eval.follow (fuel + 1) depth step) (Eval.follow (fuel' + 1) depth' step)
  := by
  cases step with
  | done v => apply c.refl
  | tail e s position =>
    apply c.bind _ hfollow
    apply c.ofExpression hexpression
  | enter p s =>
    apply c.bind _ hfollow
    apply c.ofBody (hexpression s)

end

end Congruence

end PocketLisp
