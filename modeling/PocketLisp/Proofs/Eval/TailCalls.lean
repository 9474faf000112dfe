import PocketLisp.Eval.Direct
import PocketLisp.Proofs.Eval.Refinement
import Mathlib.Data.List.Basic
import Mathlib.Logic.Relation

/-!
# Tail positions at constant depth

A run from step to step agrees with direct evaluation, in which expressions in tail position
are evaluated by calls at the same depth.  The two end for the same expressions, with the same
store, and with the same value or errors of the same kind.

Direct evaluation of an expression is its step followed by direct evaluation of what the step
leads to, except that a call names itself in all errors that come out of its tail position.
Where errors are compared without the expressions that they name, each of the two evaluators
refines the other; a run takes two units of fuel for each one that direct evaluation takes,
because it enters a procedure in a step of its own.

However many tail positions a run goes through, it is at the depth at which it began, and what
is left of it is the evaluation of the expression that it has got to.
-/

namespace PocketLisp

/-! ### Errors without the expressions that they name -/

namespace Error

/-- The error before any expression was named in it. -/
def unnamed : Error → Error
  | evaluation fault _ => evaluation fault []
  | type fault _ => type fault []
  | arity expected got _ => arity expected got none
  | e => e

/-- Naming an expression in an error does not change the error behind the names. -/
@[simp]
theorem unnamed_within (expression : Value) (e : Error) :
  (e.within expression).unnamed = e.unnamed
  := by
  unfold within
  split <;> rfl

/-- An error without the expressions named in it is of the same kind. -/
@[simp]
theorem kind_unnamed (e : Error) :
  e.unnamed.kind = e.kind
  := by
  cases e <;> rfl

end Error

namespace Eval

/-- Errors that differ in the expressions named in them still differ in nothing else when one
more is named. -/
theorem tolerates_unnamed :
  Tolerates Error.unnamed
  := by
  intro expression e e' h
  rw [Error.unnamed_within, Error.unnamed_within, h]

/-- Naming an expression makes no difference to what is behind the names. -/
theorem within_refines {α : Type} (expression : Value) (x : Eval α) :
  Refines Error.unnamed (x.within expression) x
  := by
  intro σ r τ hwithin
  obtain ⟨r₀, h, rfl⟩ := outcome_within_eq_some.mp hwithin
  use r₀, h
  cases r₀ <;> simp

/-- What is behind the names is the same whether or not an expression is named. -/
theorem refines_within {α : Type} (expression : Value) (x : Eval α) :
  Refines Error.unnamed x (x.within expression)
  := by
  intro σ r τ h
  use r.mapError (Error.within expression), outcome_within_eq_some.mpr ⟨r, h, rfl⟩
  cases r <;> simp

end Eval

/-! ### Direct evaluation by steps -/

namespace Direct

open Eval

variable (evaluators : Evaluators)

/-- Direct evaluation of what a step leads to. -/
def finish : Step → Eval Value
  | .done v => return v
  | .tail e s _ => evaluators.tail s e
  | .enter p s => body evaluators s p.body

/-- Direct evaluation of a body is the step of the body, followed by direct evaluation of what
it leads to. -/
theorem body_eq (s : ScopeId) (position : Nat) (es : List Value) :
  body evaluators s es
    = Step.ofBody (evaluators.deeper s) s position es >>= finish evaluators
  := by
  fun_induction Step.ofBody (evaluators.deeper s) s position es with
  | case1 => rw [body, pure_bind, finish]
  | case2 => rw [body, pure_bind, finish]
  | case3 position e es hne ih =>
    rw [body]
    · simp only [bind_assoc, ih]
    · assumption

/-- The same for a row that is evaluated until a value decides. -/
theorem firstDeciding_eq (s : ScopeId) (decides : Value → Bool) (empty : Value) (position : Nat)
    (es : List Value) :
  firstDeciding evaluators s decides empty es
    = Step.untilDecided (evaluators.deeper s) s decides empty position es >>= finish evaluators
  := by
  fun_induction Step.untilDecided (evaluators.deeper s) s decides empty position es with
  | case1 => rw [firstDeciding, pure_bind, finish]
  | case2 => rw [firstDeciding, pure_bind, finish]
  | case3 position e es hne ih =>
    rw [firstDeciding, bind_assoc]
    · congr 1
      funext v
      by_cases h : decides v
      · simp [h, finish]
      · simp [h, ih]
    · assumption

/-- The value of an expression that may be missing. -/
def optional (s : ScopeId) : Option Value → Eval Value
  | none => return .nil
  | some e => evaluators.tail s e

/-- A test that is not `:else` is not taken for it. -/
theorem isElse_eq_false {test : Value} (h : test ≠ .keyword "else") :
  isElse test = false
  := by
  cases test <;> simp_all [isElse]

/-- The same for clauses. A run keeps the first `:else` clause that it has come to, which direct evaluation
finds before it begins. -/
theorem firstTrue_eq (s : ScopeId) (position : Nat) (otherwise : Option (Value × Nat))
    (clauses : List Value) :
  firstTrue evaluators s
      (optional evaluators s ((otherwise.map Prod.fst).or (elseExpressions clauses).head?)) clauses
    = Step.ofClauses (evaluators.deeper s) s position otherwise clauses >>= finish evaluators
  := by
  fun_induction Step.ofClauses (evaluators.deeper s) s position otherwise clauses with
  | case1 position otherwise e clauses ih =>
    rw [← ih, firstTrue, elseExpressions]
    cases otherwise <;> rfl
  | case2 position otherwise e clauses test h ih =>
    rw [firstTrue, elseExpressions, isElse_eq_false h, bind_assoc]
    simp only [Bool.false_eq_true, if_false]
    congr 1
    funext v
    by_cases hv : v.truthy
    · simp [hv, finish]
    · simp [hv, ih]
  | case3 clauses _ e _ h =>
    rw [firstTrue]
    · rfl
    · assumption
  | case4 clauses _ h =>
    rw [firstTrue, elseExpressions]
    · rfl
    · assumption
    · assumption

/-- The same for the binding of a name. -/
theorem bind_eq (s : ScopeId) (name : String) (v : Value) :
  bind s name v = SpecialForm.bind s name v >>= finish evaluators
  := by
  simp [bind, SpecialForm.bind, finish]

/-- A special form on operands whose number it accepts. -/
theorem form_eq (s : ScopeId) (f : SpecialForm) {operands : List Value}
    (h : f.arity.accepts operands.length) :
  form evaluators s f operands
    = f.step (evaluators.deeper s) s operands >>= finish evaluators
  := by
  cases f with
  | quote =>
    rw [SpecialForm.arity, Arity.accepts_exact_iff, List.length_eq_one_iff] at h
    obtain ⟨v, rfl⟩ := h
    simp [form, SpecialForm.step, finish]
  | sequence => apply body_eq
  | define =>
    rw [SpecialForm.arity, Arity.accepts_exact_iff, List.length_eq_two] at h
    obtain ⟨target, e, rfl⟩ := h
    cases target with
    | symbol name => simp [form, SpecialForm.step, bind_eq evaluators]
    | _ => rfl
  | lambda =>
    rw [SpecialForm.arity, Arity.accepts_atLeast_iff] at h
    obtain ⟨params, forms, rfl⟩ := List.exists_cons_of_length_pos h
    simp [form, SpecialForm.step, finish]
  | defineProcedure =>
    rw [SpecialForm.arity, Arity.accepts_atLeast_iff] at h
    obtain ⟨target, rest, rfl⟩ := List.exists_cons_of_length_pos (Nat.lt_of_lt_of_le Nat.two_pos h)
    obtain ⟨params, forms, rfl⟩ := List.exists_cons_of_length_pos (Nat.le_of_succ_le_succ h)
    cases target with
    | symbol name => simp [form, SpecialForm.step, bind_eq evaluators]
    | _ => rfl
  | conditional =>
    rw [SpecialForm.arity, Arity.accepts_range_iff] at h
    rcases operands with _ | ⟨test, _ | ⟨consequent, _ | ⟨alternative, _ | ⟨e, es⟩⟩⟩⟩
    · simp at h
    · simp at h
    · rw [form, SpecialForm.step, bind_assoc]
      congr 1
      funext v
      by_cases hv : v.truthy <;> simp [hv, finish]
    · rw [form, SpecialForm.step, bind_assoc]
      congr 1
      funext v
      by_cases hv : v.truthy <;> simp [hv, finish]
    · simp only [List.length_cons] at h
      omega
  | cond =>
    rw [SpecialForm.arity, Arity.accepts_even_iff] at h
    rw [SpecialForm.step, if_pos h, ← firstTrue_eq evaluators s 0 none]
    rw [form]
    congr 1
    cases elseExpressions operands <;> rfl
  | and => apply firstDeciding_eq
  | or => apply firstDeciding_eq

/-- The same for the application of a value to arguments. -/
theorem apply_eq (callee : Value) (args : List Value) :
  apply evaluators callee args = Step.apply callee args >>= finish evaluators
  := by
  cases callee with
  | procedure p =>
    rw [apply, Step.apply, bind_map_left]
    rfl
  | _ =>
    rw [apply, Step.apply, bind_map_left]
    · simp [finish]
    all_goals simp

/-- The same for a list that is a call or a form. -/
theorem call_eq (s : ScopeId) (operator : Value) (operands : List Value) :
  call evaluators s operator operands
    = Step.ofCall (evaluators.deeper s) s operator operands >>= finish evaluators
  := by
  rw [call, Step.ofCall, bind_assoc]
  congr 1
  funext callee
  split
  next f =>
    by_cases h : f.arity.accepts operands.length
    · rw [bind_assoc, form_eq evaluators s f h]
    · have hvalidate : f.arity.validate operands.length = .error (f.arityError operands.length) :=
        if_neg h
      simp only [hvalidate]
      rfl
  next => simp only [bind_assoc, apply_eq]

/-- The direct value of an expression and direct evaluation of what its step leads to are the
same but for the expressions named in errors. -/
theorem value_refines_iff_step (s : ScopeId) (e : Value) :
  Refines Error.unnamed
      (value evaluators s e) (Step.ofExpression evaluators.deeper s e >>= finish evaluators) ∧
    Refines Error.unnamed
      (Step.ofExpression evaluators.deeper s e >>= finish evaluators) (value evaluators s e)
  := by
  have refl {x y : Eval Value} (h : x = y) :
      Refines Error.unnamed x y ∧ Refines Error.unnamed y x := by
    subst h
    exact ⟨Refines.refl x, Refines.refl x⟩
  fun_cases value evaluators s e with
  | case1 name =>
    apply refl
    rw [Step.ofExpression, bind_map_left]
    simp only [finish, bind_pure]
  | case2 items =>
    apply refl
    simp only [Step.ofExpression, bind_assoc, pure_bind, finish]
  | case3 entries =>
    apply refl
    simp only [Step.ofExpression, bind_assoc, pure_bind, finish]
  | case4 operator operands =>
    rw [call_eq, Step.ofExpression]
    constructor
    · apply (within_refines _ _).trans
      apply (refines_within _ _).bind
      apply fun step => Refines.refl _
    · apply Refines.trans _ (refines_within _ _)
      apply (within_refines _ _).bind
      apply fun step => Refines.refl _
  | case5 =>
    apply refl
    rw [Step.ofExpression, pure_bind, finish]
    all_goals assumption

end Direct

/-! ### The two evaluators -/

/-- The evaluators that direct evaluation uses at `depth` with `fuel` left. -/
abbrev Direct.Evaluators.ofFuel (fuel depth : Nat) : Evaluators :=
  ⟨Direct.expression fuel (depth + 1), Direct.expression fuel depth⟩

namespace Eval

open Direct (finish)

variable {fuel depth : Nat} {s : ScopeId} {e : Value} {eval : ScopeId → Value → Eval Value}
  {f : Step → Eval Value}

/-- If the expressions inside refine their direct evaluation, and so does what follows, the step of an
expression and what follows refine the direct evaluation of the expression. -/
theorem step_refines_direct (hdepth : depth < depthLimit)
    (heval : ∀ s, RefinesAll Error.unnamed (eval s) (Direct.expression fuel (depth + 1) s))
    (hf : ∀ step, Refines Error.unnamed (f step) (finish (.ofFuel fuel depth) step)) :
  Refines Error.unnamed (Step.ofExpression eval s e >>= f)
    (Direct.expression (fuel + 1) depth s e)
  := by
  rw [Direct.expression, if_neg (Nat.not_le_of_lt hdepth)]
  apply Refines.trans _ (Direct.value_refines_iff_step _ s e).2
  apply Refines.bind _ hf
  apply (refinement tolerates_unnamed).ofExpression heval

/-- Conversely, direct evaluation refines the step and what follows if it does so inside and behind. -/
theorem direct_refines_step (hdepth : depth < depthLimit)
    (heval : ∀ s, RefinesAll Error.unnamed (Direct.expression fuel (depth + 1) s) (eval s))
    (hf : ∀ step, Refines Error.unnamed (finish (.ofFuel fuel depth) step) (f step)) :
  Refines Error.unnamed (Direct.expression (fuel + 1) depth s e)
    (Step.ofExpression eval s e >>= f)
  := by
  rw [Direct.expression, if_neg (Nat.not_le_of_lt hdepth)]
  apply Refines.trans (Direct.value_refines_iff_step _ s e).1
  apply Refines.bind _ hf
  apply (refinement tolerates_unnamed).ofExpression heval

/-- A run gives nothing that direct evaluation does not give with as much fuel. -/
theorem refines_direct (fuel : Nat) :
  (∀ fuel' ≥ fuel, ∀ depth s e,
      Refines Error.unnamed (expression fuel depth s e) (Direct.expression fuel' depth s e)) ∧
    ∀ fuel' ≥ fuel, ∀ depth < depthLimit, ∀ step,
      Refines Error.unnamed (follow fuel depth step) (finish (.ofFuel fuel' depth) step)
  := by
  induction fuel with
  | zero =>
    constructor
    · intro fuel' _ depth s e
      apply Refines.outOfFuel
    · intro fuel' _ depth _ step
      apply Refines.outOfFuel
  | succ fuel ih =>
    obtain ⟨ihExpression, ihFollow⟩ := ih
    constructor
    · rintro (_ | fuel') hle depth s e
      · cases hle
      · have hle := Nat.le_of_succ_le_succ hle
        rw [expression]
        by_cases hdepth : depthLimit ≤ depth
        · rw [Direct.expression, if_pos hdepth, if_pos hdepth]
          apply Refines.refl
        · rw [if_neg hdepth]
          have hdepth := Nat.lt_of_not_le hdepth
          apply step_refines_direct hdepth
          · intro s e
            apply ihExpression fuel' hle
          · apply ihFollow fuel' hle depth hdepth
    · intro fuel' hle depth hdepth step
      cases step with
      | done v => apply Refines.refl
      | tail e s position =>
        obtain ⟨fuel', rfl⟩ := Nat.exists_eq_succ_of_ne_zero (Nat.ne_zero_of_lt hle)
        have hle := Nat.le_of_succ_le_succ hle
        rw [follow, finish]
        apply step_refines_direct hdepth
        · intro s e
          apply ihExpression fuel' hle
        · apply ihFollow fuel' hle depth hdepth
      | enter p s =>
        have hle := Nat.le_of_succ_le hle
        rw [follow, finish, Direct.body_eq _ s 0]
        apply Refines.bind
        · apply (refinement tolerates_unnamed).ofBody
          intro e
          apply ihExpression fuel' hle
        · apply ihFollow fuel' hle depth hdepth

/-- What is left of a run at a tail position is the evaluation of the expression in it. -/
theorem follow_tail (hdepth : depth < depthLimit) (fuel : Nat) (s : ScopeId) (e : Value)
    (position : Nat) :
  follow fuel depth (.tail e s position) = expression fuel depth s e
  := by
  cases fuel with
  | zero => rfl
  | succ fuel => rw [follow, expression, if_neg (Nat.not_le_of_lt hdepth)]

/-- A body is followed to its end if its expressions outside tail position are evaluated and the
one in tail position is followed. -/
theorem body_refines_follow (eval : ScopeId → Value → Eval Value)
    {evaluators : Direct.Evaluators}
    (hdeeper : RefinesAll Error.unnamed (evaluators.deeper s) (eval s))
    (htail : ∀ e position, Refines Error.unnamed (evaluators.tail s e) (f (.tail e s position)))
    (hdone : ∀ v, f (.done v) = pure v) (position : Nat) (es : List Value) :
  Refines Error.unnamed (Direct.body evaluators s es) (Step.ofBody (eval s) s position es >>= f)
  := by
  fun_induction Step.ofBody (eval s) s position es with
  | case1 =>
    rw [Direct.body, pure_bind, hdone]
    apply Refines.refl
  | case2 =>
    rw [Direct.body, pure_bind]
    apply htail
  | case3 position e es hne ih =>
    rw [Direct.body, bind_assoc]
    · apply Refines.bind (hdeeper e)
      intro _
      apply ih
    · assumption

/-- If a run is at no loss for expressions that direct evaluation evaluates with `fuel`, it is at
no loss for steps.  It enters a procedure and then follows its body, hence one more unit. -/
theorem finish_refines_follow
    (h : ∀ fuel' ≥ 2 * fuel + 1, ∀ depth s e,
      Refines Error.unnamed (Direct.expression fuel depth s e) (expression fuel' depth s e))
    {fuel' : Nat} (hle : fuel' ≥ 2 * fuel + 2) (hdepth : depth < depthLimit) (step : Step) :
  Refines Error.unnamed (finish (.ofFuel fuel depth) step) (follow fuel' depth step)
  := by
  have htail {fuel' : Nat} (hle : fuel' ≥ 2 * fuel + 1) (s : ScopeId) (e : Value)
      (position : Nat) :
      Refines Error.unnamed (Direct.expression fuel depth s e)
        (follow fuel' depth (.tail e s position)) := by
    rw [follow_tail hdepth]
    apply h fuel' hle
  obtain ⟨fuel', rfl⟩ := Nat.exists_eq_add_of_le' (Nat.le_of_add_left_le hle)
  cases step with
  | done v => apply Refines.refl
  | tail e s position =>
    apply htail
    omega
  | enter p s =>
    rw [finish, follow]
    apply body_refines_follow (expression (fuel' + 1) (depth + 1))
    · intro e
      apply h
      omega
    · intro e position
      apply htail
      omega
    · intro v
      rfl

/-- Direct evaluation gives nothing that a run does not give with twice as much fuel. -/
theorem direct_refines (fuel : Nat) :
  ∀ fuel' ≥ 2 * fuel + 1, ∀ depth s e,
    Refines Error.unnamed (Direct.expression fuel depth s e) (expression fuel' depth s e)
  := by
  induction fuel with
  | zero =>
    intro fuel' _ depth s e
    apply Refines.outOfFuel
  | succ fuel ih =>
    rintro (_ | fuel') hle depth s e
    · cases hle
    · rw [expression]
      by_cases hdepth : depthLimit ≤ depth
      · rw [Direct.expression, if_pos hdepth, if_pos hdepth]
        apply Refines.refl
      · rw [if_neg hdepth]
        have hdepth := Nat.lt_of_not_le hdepth
        apply direct_refines_step hdepth
        · intro s e
          apply ih
          omega
        · intro step
          apply finish_refines_follow ih _ hdepth
          omega

/-! ### Runs through tail positions -/

/-- Following the step `step` at `depth`, from the store `σ` on, ends with the result `r` and
leaves the store `τ`. -/
def Follows (depth : Nat) (step : Step) (σ : Store) (r : Except Error Value) (τ : Store) : Prop :=
  ∃ fuel, (follow fuel depth step).outcome σ = some (r, τ)

section

variable {position : Nat} {p : Procedure} {step : Step} {σ υ τ : Store} {r : Except Error Value}

/-- Below the depth limit an expression is evaluated by following its step. -/
theorem ends_iff_exists (hdepth : depth < depthLimit) :
  Ends depth s e σ r τ ↔ ∃ fuel,
    (Step.ofExpression (expression fuel (depth + 1)) s e >>= follow fuel depth).outcome σ
      = some (r, τ)
  := by
  constructor
  · rintro ⟨_ | fuel, h⟩
    · cases h
    · rw [expression, if_neg (Nat.not_le_of_lt hdepth)] at h
      use fuel, h
  · rintro ⟨fuel, h⟩
    use fuel + 1
    rw [expression, if_neg (Nat.not_le_of_lt hdepth)]
    apply h

/-- To follow a tail position is to evaluate the expression in it at the same depth. -/
theorem follows_tail_iff (hdepth : depth < depthLimit) :
  Follows depth (.tail e s position) σ r τ ↔ Ends depth s e σ r τ
  := by
  simp only [Follows, follow_tail hdepth, Ends]

/-- After a first part that is known to end with a step, following that step is what is left. -/
theorem exists_bind_follow_iff {x : Nat → Eval Step}
    (hmono : ∀ fuel fuel', fuel ≤ fuel' → Refines id (x fuel) (x fuel'))
    (h : (x fuel).outcome σ = some (.ok step, υ)) :
  (∃ fuel, (x fuel >>= follow fuel depth).outcome σ = some (r, τ)) ↔ Follows depth step υ r τ
  := by
  constructor
  · rintro ⟨fuel', h'⟩
    use max fuel fuel'
    have hbind : Refines id (x fuel' >>= follow fuel' depth)
        (x (max fuel fuel') >>= follow (max fuel fuel') depth) := by
      apply Refines.bind (hmono _ _ (Nat.le_max_right _ _))
      apply (mono fuel').2 _ (Nat.le_max_right _ _)
    have h' := Refines.outcome_eq hbind h'
    have h := Refines.outcome_eq (hmono _ _ (Nat.le_max_left fuel fuel')) h
    rw [outcome_bind, h] at h'
    apply h'
  · rintro ⟨fuel', h'⟩
    use max fuel fuel'
    have h := Refines.outcome_eq (hmono _ _ (Nat.le_max_left fuel fuel')) h
    rw [outcome_bind, h]
    apply outcome_follow_of_le (Nat.le_max_right _ _) h'

/-- Where the step of an expression is known, a run of the expression is a run from that step. -/
theorem ends_iff_follows (hdepth : depth < depthLimit)
    (h : (Step.ofExpression (expression fuel (depth + 1)) s e).outcome σ = some (.ok step, υ)) :
  Ends depth s e σ r τ ↔ Follows depth step υ r τ
  := by
  rw [ends_iff_exists hdepth]
  apply exists_bind_follow_iff _ h
  intro fuel fuel' hle
  apply (refinement tolerates_id).ofExpression
  apply (mono fuel).1 fuel' hle

/-- Where the step of a body is known, a run from the entry of the procedure is a run from that step. -/
theorem follows_enter_iff
    (h : (Step.ofBody (expression fuel (depth + 1) s) s 0 p.body).outcome σ
      = some (.ok step, υ)) :
  Follows depth (.enter p s) σ r τ ↔ Follows depth step υ r τ
  := by
  rw [← exists_bind_follow_iff
    (x := fun fuel => Step.ofBody (expression fuel (depth + 1) s) s 0 p.body) _ h]
  · constructor
    · rintro ⟨_ | fuel, h⟩
      · cases h
      · use fuel, h
    · rintro ⟨fuel, h⟩
      use fuel + 1, h
  · intro fuel fuel' hle
    apply (refinement tolerates_id).ofBody
    apply (mono fuel).1 fuel' hle depth.succ s

end

/-- An expression that is about to be evaluated: its scope, and the store from which on. -/
structure Task where
  expression : Value
  scope : ScopeId
  store : Store

/-- One turn of a run at `depth`: the evaluation of a task gets to an expression in tail position,
perhaps through the body of a procedure. -/
inductive TailStep (depth : Nat) : Task → Task → Prop
  /-- The tail position is inside the expression. -/
  | inside {fuel : Nat} {t u : Task} {position : Nat} (hdepth : depth < depthLimit)
      (h : (Step.ofExpression (expression fuel (depth + 1)) t.scope t.expression).outcome t.store
        = some (.ok (.tail u.expression u.scope position), u.store)) :
      TailStep depth t u
  /-- The expression calls `p`, and the tail position is at the end of its body. -/
  | call {fuel : Nat} {t u : Task} {p : Procedure} {s : ScopeId} {υ : Store} {position : Nat}
      (hdepth : depth < depthLimit)
      (h : (Step.ofExpression (expression fuel (depth + 1)) t.scope t.expression).outcome t.store
        = some (.ok (.enter p s), υ))
      (hbody : (Step.ofBody (expression fuel (depth + 1) s) s 0 p.body).outcome υ
        = some (.ok (.tail u.expression u.scope position), u.store)) :
      TailStep depth t u

/-- The evaluation of a task at `depth` ends with the result `r` and leaves the store `τ`. -/
def Task.Ends (depth : Nat) (t : Task) (r : Except Error Value) (τ : Store) : Prop :=
  Eval.Ends depth t.scope t.expression t.store r τ

/-- One turn of a run leaves it at the same depth, with the evaluation of the expression that it
has got to. -/
theorem TailStep.ends_iff {t u : Task} (h : TailStep depth t u) (r : Except Error Value)
    (τ : Store) :
  t.Ends depth r τ ↔ u.Ends depth r τ
  := by
  unfold Task.Ends
  cases h with
  | inside hdepth h => rw [ends_iff_follows hdepth h, follows_tail_iff hdepth]
  | call hdepth h hbody =>
    rw [ends_iff_follows hdepth h, follows_enter_iff hbody, follows_tail_iff hdepth]

/-- So do any number of turns. -/
theorem ends_iff_of_tailSteps {t u : Task} (h : Relation.ReflTransGen (TailStep depth) t u)
    (r : Except Error Value) (τ : Store) :
  t.Ends depth r τ ↔ u.Ends depth r τ
  := by
  induction h with
  | refl => exact Iff.rfl
  | tail _ hlast ih => rw [ih, hlast.ends_iff]

end Eval

/-! ### Agreement -/

/-- Direct evaluation of `e` in the scope `s` at `depth`, from the store `σ` on, ends with the
result `r` and leaves the store `τ`. -/
def Direct.Ends (depth : Nat) (s : ScopeId) (e : Value) (σ : Store) (r : Except Error Value)
    (τ : Store) : Prop :=
  ∃ fuel, (Direct.expression fuel depth s e).outcome σ = some (r, τ)

namespace Eval

/-- Whatever ends by direct evaluation ends by a run, with the same store and the same result up
to the expressions named in errors. -/
theorem exists_ends_of_direct {depth : Nat} {s : ScopeId} {e : Value} {σ τ : Store}
    {r : Except Error Value} (h : Direct.Ends depth s e σ r τ) :
  ∃ r', Ends depth s e σ r' τ ∧ r.mapError Error.unnamed = r'.mapError Error.unnamed
  := by
  obtain ⟨fuel, h⟩ := h
  obtain ⟨r', h', hr⟩ := direct_refines fuel _ (Nat.le_refl _) depth s e σ r τ h
  use r', ⟨_, h'⟩

/-- Whatever a run ends with, direct evaluation ends with as well, up to the expressions named
in an error. -/
theorem exists_direct_of_ends {depth : Nat} {s : ScopeId} {e : Value} {σ τ : Store}
    {r : Except Error Value} (h : Ends depth s e σ r τ) :
  ∃ r', Direct.Ends depth s e σ r' τ ∧ r.mapError Error.unnamed = r'.mapError Error.unnamed
  := by
  obtain ⟨fuel, h⟩ := h
  obtain ⟨r', h', hr⟩ := (refines_direct fuel).1 _ (Nat.le_refl _) depth s e σ r τ h
  use r', ⟨_, h'⟩

/-- Errors that agree without the expressions named in them are of the same kind. -/
theorem mapError_kind_eq {r r' : Except Error Value}
    (h : r.mapError Error.unnamed = r'.mapError Error.unnamed) :
  r.mapError Error.kind = r'.mapError Error.kind
  := by
  cases r <;> cases r' <;> simp only [mapError_ok, mapError_error, reduceCtorEq] at h ⊢
  · rw [← Error.kind_unnamed, Except.error.inj h, Error.kind_unnamed]
  · rw [Except.ok.inj h]

/-- A run from step to step ends exactly if direct evaluation does, and then with the same value
or an error of the same kind, and with the same store.  After any number of turns through tail
positions, in forms and across calls, it ends just as the evaluation of the expression reached
does, begun at the same depth; so the turns by themselves bring about no depth error. -/
theorem expression_agrees_direct (depth : Nat) (s : ScopeId) (e : Value) (σ : Store) :
  ((∃ r τ, Ends depth s e σ r τ) ↔ ∃ r τ, Direct.Ends depth s e σ r τ) ∧
    (∀ r τ r' τ', Ends depth s e σ r τ → Direct.Ends depth s e σ r' τ' →
      r.mapError Error.kind = r'.mapError Error.kind ∧ τ = τ') ∧
    ∀ u, Relation.ReflTransGen (TailStep depth) ⟨e, s, σ⟩ u →
      ∀ r τ, Ends depth s e σ r τ ↔ u.Ends depth r τ
  := by
  refine ⟨⟨?_, ?_⟩, ?_, ?_⟩
  · rintro ⟨r, τ, h⟩
    obtain ⟨r', h', -⟩ := exists_direct_of_ends h
    use r', τ
  · rintro ⟨r, τ, h⟩
    obtain ⟨r', h', -⟩ := exists_ends_of_direct h
    use r', τ
  · intro r τ r' τ' h h'
    obtain ⟨r'', h'', hr⟩ := exists_ends_of_direct h'
    obtain ⟨rfl, rfl⟩ := h.unique h''
    exact ⟨mapError_kind_eq hr.symm, rfl⟩
  · intro u h
    apply ends_iff_of_tailSteps h

end Eval

end PocketLisp
