import PocketLisp.Proofs.Eval.Forms

/-!
# Conjunctions and disjunctions

A conjunction evaluates a row of expressions in their order until a value is false, and a disjunction
until one is true.  The value that decides is that of the whole; if the row comes to its last expression,
that one is in tail position and is not looked at.

So the last expression of a row may be a row of the same kind itself, and then it makes no difference
whether the two are written as one.  The inner row is evaluated at the depth of the outer one, hence both
are too deep for the same expressions.
-/

namespace PocketLisp

/-- The two forms that evaluate a row of expressions until a value decides. -/
inductive Connective where
  | and
  | or

namespace Connective

/-- The special form that puts the connective into effect. -/
def form : Connective → SpecialForm
  | and => .and
  | or => .or

/-- Whether a value decides: for a conjunction what is false does, for a disjunction what is true. -/
def decides : Connective → Value → Bool
  | and, v => !v.truthy
  | or, v => v.truthy

/-- The value of a row without expressions. -/
def empty : Connective → Value
  | and => .boolean true
  | or => .nil

/-- A row of expressions behind the form itself. -/
def of (c : Connective) (es : List Value) : Value :=
  .list (.specialForm c.form :: es)

/-- Both forms take the step of a row in which a value may decide. -/
theorem step_form (c : Connective) (eval : Value → Eval Value) (s : ScopeId) (es : List Value) :
  c.form.step eval s es = Step.untilDecided eval s c.decides c.empty 0 es
  := by
  cases c <;> rfl

/-- Both forms take any number of expressions. -/
theorem accepts_arity_form (c : Connective) (count : Nat) :
  c.form.arity.accepts count
  := by
  cases c <;> rfl

end Connective

namespace Eval

open Direct (Evaluators firstDeciding)

variable {fuel fuel' depth : Nat} {s : ScopeId} {c : Connective}

/-! ### Rows in two parts -/

/-- Evaluates a row until a value decides, and goes on with `otherwise` if none does. -/
def unlessDecided (eval : Value → Eval Value) (decides : Value → Bool) (otherwise : Eval Value) :
    List Value → Eval Value
  | [] => otherwise
  | e :: es => do
    let v ← eval e
    if decides v then return v else unlessDecided eval decides otherwise es

/-- A row goes on alike if its expressions are evaluated alike and what comes after it goes on alike. -/
theorem unlessDecided_refines {forget : Error → Error} {eval eval' : Value → Eval Value}
    {decides : Value → Bool} {otherwise otherwise' : Eval Value} (heval : RefinesAll forget eval eval')
    (h : Refines forget otherwise otherwise') (es : List Value) :
  Refines forget (unlessDecided eval decides otherwise es) (unlessDecided eval' decides otherwise' es)
  := by
  induction es with
  | nil => apply h
  | cons e es ih =>
    apply (heval e).bind
    intro v
    split
    · apply Refines.refl
    · apply ih

/-- A row in two parts goes on with the second part if the first does not decide. -/
theorem firstDeciding_append (evaluators : Evaluators) (s : ScopeId) (decides : Value → Bool)
    (empty : Value) (xs : List Value) {ys : List Value} (hys : ys ≠ []) :
  firstDeciding evaluators s decides empty (xs ++ ys)
    = unlessDecided (evaluators.deeper s) decides (firstDeciding evaluators s decides empty ys) xs
  := by
  induction xs with
  | nil => rfl
  | cons x xs ih =>
    rw [List.cons_append, firstDeciding, ih]
    · rfl
    · simp [hys]

/-! ### Rows behind their form -/

/-- Evaluates a row at a depth, all but its last expression one level deeper. -/
def row (c : Connective) (fuel depth : Nat) (s : ScopeId) (es : List Value) : Eval Value :=
  firstDeciding ⟨expression fuel (depth + 1), expression fuel depth⟩ s c.decides c.empty es

/-- A row in two parts is the first part, and the second if no value in the first decides. -/
theorem row_append (xs : List Value) {ys : List Value} (hys : ys ≠ []) :
  row c fuel depth s (xs ++ ys)
    = unlessDecided (expression fuel (depth + 1) s) c.decides (row c fuel depth s ys) xs
  := firstDeciding_append _ s c.decides c.empty xs hys

/-- With more fuel a row gives all that it gives with less. -/
theorem row_refines_of_le {forget : Error → Error} (hle : fuel ≤ fuel') (es : List Value) :
  Refines forget (row c fuel depth s es) (row c fuel' depth s es)
  := by
  rcases es.eq_nil_or_concat' with rfl | ⟨es, last, rfl⟩
  · apply Refines.refl
  · rw [row_append es (List.cons_ne_nil last []), row_append es (List.cons_ne_nil last [])]
    apply unlessDecided_refines
    · apply expression_refines_of_le hle
    · apply expression_refines_of_le hle

/-- To take the step of a row and to follow it is to evaluate the row. -/
theorem bind_untilDecided (hdepth : depth < depthLimit) (position : Nat) (es : List Value) :
  Step.untilDecided (expression (fuel + 1) (depth + 1) s) s c.decides c.empty position es
      >>= follow (fuel + 1) depth
    = row c (fuel + 1) depth s es
  := by
  unfold row
  fun_induction Step.untilDecided (expression (fuel + 1) (depth + 1) s) s c.decides c.empty position
    es with
  | case1 => rw [firstDeciding, pure_bind, follow]
  | case2 => rw [firstDeciding, pure_bind, follow_tail hdepth]
  | case3 position e es hne ih =>
    rw [firstDeciding, bind_assoc]
    · congr 1
      funext v
      by_cases h : c.decides v
      · simp [h, follow]
      · simp [h, ih]
    · assumption

/-- Evaluating a row behind its form is evaluating the row. -/
theorem of_refines_iff_row (hdepth : depth + 1 < depthLimit) (fuel : Nat) (s : ScopeId)
    (es : List Value) :
  Refines Error.unnamed (expression (fuel + 3) depth s (c.of es)) (row c (fuel + 2) depth s es) ∧
    Refines Error.unnamed (row c (fuel + 2) depth s es) (expression (fuel + 3) depth s (c.of es))
  := by
  rw [← bind_untilDecided (Nat.lt_of_succ_lt hdepth) 0, ← c.step_form]
  apply list_specialForm_refines_iff (c.accepts_arity_form _) hdepth (Nat.le_add_left 2 fuel)

/-- What a row gives behind its form is given by the row alone. -/
theorem of_refines_row (hdepth : depth + 1 < depthLimit) (fuel : Nat) (s : ScopeId)
    (es : List Value) :
  Refines Error.unnamed (expression fuel depth s (c.of es)) (row c (fuel + 2) depth s es)
  := (expression_refines_of_le (Nat.le_add_right fuel 3) _ _ _).trans
    (of_refines_iff_row hdepth fuel s es).1

/-- What a row gives alone is given behind its form. -/
theorem row_refines_of (hdepth : depth + 1 < depthLimit) (fuel : Nat) (s : ScopeId)
    (es : List Value) :
  Refines Error.unnamed (row c fuel depth s es) (expression (fuel + 3) depth s (c.of es))
  := (row_refines_of_le (Nat.le_add_right fuel 2) es).trans (of_refines_iff_row hdepth fuel s es).2

/-- A row may stand behind its form in the place of the last expression of another.  Each of the two
ways takes some more fuel than the other. -/
theorem row_refines_iff_nested (hdepth : depth + 1 < depthLimit) (fuel : Nat) (s : ScopeId)
    (xs : List Value) {ys : List Value} (hys : ys ≠ []) :
  Refines Error.unnamed (row c fuel depth s (xs ++ [c.of ys])) (row c (fuel + 2) depth s (xs ++ ys)) ∧
    Refines Error.unnamed (row c fuel depth s (xs ++ ys)) (row c (fuel + 3) depth s (xs ++ [c.of ys]))
  := by
  rw [row_append xs hys, row_append xs hys, row_append xs (List.cons_ne_nil _ []),
    row_append xs (List.cons_ne_nil _ [])]
  constructor
  · apply unlessDecided_refines
    · apply expression_refines_of_le (Nat.le_add_right fuel 2)
    · apply of_refines_row hdepth
  · apply unlessDecided_refines
    · apply expression_refines_of_le (Nat.le_add_right fuel 3)
    · apply row_refines_of hdepth

/-! ### The order of evaluation -/

/-- The evaluation of a row at a depth, from the store `σ` on, ends with the result `r` and leaves the
store `τ`.  The expressions are evaluated from left to right, each once, all but the last one level
deeper, and no more of them behind one that fails or has a value that decides. -/
inductive EndsRow (c : Connective) (depth : Nat) (s : ScopeId) :
    (es : List Value) → (σ : Store) → (r : Except Error Value) → (τ : Store) → Prop
  | last {e : Value} {σ τ : Store} {r : Except Error Value} (h : Ends depth s e σ r τ) :
    EndsRow c depth s [e] σ r τ
  | fails {e : Value} {es : List Value} {σ τ : Store} {error : Error} (hes : es ≠ [])
      (h : Ends (depth + 1) s e σ (.error error) τ) : EndsRow c depth s (e :: es) σ (.error error) τ
  | decides {e v : Value} {es : List Value} {σ τ : Store} (hes : es ≠ [])
      (h : Ends (depth + 1) s e σ (.ok v) τ) (hv : c.decides v) : EndsRow c depth s (e :: es) σ (.ok v) τ
  | goesOn {e v : Value} {es : List Value} {σ τ υ : Store} {r : Except Error Value}
      (h : Ends (depth + 1) s e σ (.ok v) υ) (hv : c.decides v = false)
      (hlater : EndsRow c depth s es υ r τ) : EndsRow c depth s (e :: es) σ r τ

section

variable {es : List Value} {σ τ : Store} {r : Except Error Value}

/-- The first expression of a row decides, or the rest of the row is what is left. -/
theorem row_cons (e : Value) (hes : es ≠ []) :
  row c fuel depth s (e :: es)
    = (do
        let v ← expression fuel (depth + 1) s e
        if c.decides v then return v else row c fuel depth s es)
  := row_append [e] hes

/-- A row whose evaluation ends has an expression in it. -/
theorem EndsRow.ne_nil (h : EndsRow c depth s es σ r τ) :
  es ≠ []
  := by
  cases h <;> apply List.cons_ne_nil

/-- A row ends according to the rules exactly if evaluating it ends so with some fuel. -/
theorem endsRow_iff (hes : es ≠ []) :
  EndsRow c depth s es σ r τ ↔ ∃ fuel, (row c fuel depth s es).outcome σ = some (r, τ)
  := by
  constructor
  · intro h
    clear hes
    induction h with
    | last h => apply h
    | fails hes h =>
      obtain ⟨fuel, h⟩ := h
      use fuel
      rw [row_cons _ hes, outcome_bind, h]
      rfl
    | decides hes h hv =>
      obtain ⟨fuel, h⟩ := h
      use fuel
      rw [row_cons _ hes, outcome_bind, h, Option.bind_some]
      simp [hv]
    | goesOn h hv hlater ih =>
      obtain ⟨fuel, h⟩ := h
      obtain ⟨fuel', h'⟩ := ih
      use max fuel fuel'
      rw [row_cons _ hlater.ne_nil, outcome_bind,
        outcome_expression_of_le (Nat.le_max_left fuel fuel') h, Option.bind_some]
      simp only [hv, Bool.false_eq_true, if_false]
      apply (row_refines_of_le (Nat.le_max_right fuel fuel') _).outcome_eq h'
  · rintro ⟨fuel, h⟩
    induction es generalizing σ with
    | nil => cases hes rfl
    | cons e es ih =>
      by_cases hnil : es = []
      · subst hnil
        exact .last ⟨fuel, h⟩
      · rw [row_cons e hnil] at h
        rcases outcome_bind_eq_some.mp h with ⟨error, he, rfl⟩ | ⟨v, υ, hv, hrest⟩
        · exact .fails hnil ⟨fuel, he⟩
        · cases hdecides : c.decides v with
          | true =>
            rw [hdecides] at hrest
            cases hrest
            exact .decides hnil ⟨fuel, hv⟩ hdecides
          | false =>
            rw [hdecides] at hrest
            exact .goesOn ⟨fuel, hv⟩ hdecides (ih hnil hrest)

end

/-! ### Flattening -/

/-- A row whose last expression is another one behind its form, against both in one row. Each of the two
gives what the other gives, with some more fuel. -/
theorem nested_refines_iff_row (hdepth : depth + 1 < depthLimit) (fuel : Nat) (s : ScopeId)
    (xs : List Value) {ys : List Value} (hys : ys ≠ []) :
  Refines Error.unnamed (expression fuel depth s (c.of (xs ++ [c.of ys])))
      (row c (fuel + 4) depth s (xs ++ ys)) ∧
    Refines Error.unnamed (row c fuel depth s (xs ++ ys))
      (expression (fuel + 6) depth s (c.of (xs ++ [c.of ys])))
  := by
  constructor
  · apply (of_refines_row hdepth fuel s _).trans
    apply (row_refines_iff_nested hdepth _ s xs hys).1
  · apply (row_refines_iff_nested hdepth fuel s xs hys).2.trans
    apply row_refines_of hdepth

/-- A list is too deep if its head is. -/
theorem expression_list_of_limit (h : depthLimit ≤ depth + 1) (fuel : Nat) (s : ScopeId)
    (operator : Value) (operands : List Value) :
  expression (fuel + 2) depth s (.list (operator :: operands)) = throw (.depthExceeded depthLimit)
  := by
  rw [expression]
  split
  · rfl
  · rw [Step.ofExpression, Step.ofCall, expression, if_pos h]
    rfl

/-- Where the heads of two lists are too deep, the lists are evaluated alike, whatever is in them. -/
theorem alike_of_limit (h : depthLimit ≤ depth + 1) (s : ScopeId) (operator operator' : Value)
    (operands operands' : List Value) :
  Alike depth s (.list (operator :: operands)) (.list (operator' :: operands'))
  := by
  apply Alike.of_refines
  all_goals
    intro fuel
    use fuel + 2
    apply (expression_refines_of_le (Nat.le_add_right fuel 2) _ _ _).trans
    rw [expression_list_of_limit h, expression_list_of_limit h]
    apply Refines.refl

/-- A row at the end of another may be taken apart at any depth. -/
theorem alike_nested (xs : List Value) {ys : List Value} (hys : ys ≠ []) :
  Alike depth s (c.of (xs ++ [c.of ys])) (c.of (xs ++ ys))
  := by
  rcases Nat.lt_or_ge (depth + 1) depthLimit with hdepth | hlimit
  · apply Alike.of_refines
    · intro fuel
      use fuel + 4 + 3
      apply (nested_refines_iff_row hdepth fuel s xs hys).1.trans
      apply row_refines_of hdepth
    · intro fuel
      use fuel + 2 + 6
      apply (of_refines_row hdepth fuel s _).trans
      apply (nested_refines_iff_row hdepth _ s xs hys).2
  · apply alike_of_limit hlimit

/-- A row at the end of a row of the same kind might as well be a part of it, at whatever depth the two
are evaluated.  Below the limit they are evaluated like the expressions of both rows from left to right,
each once at most, until one decides; only the very last is evaluated at the depth itself, and all others
one level deeper, those of the inner row no deeper than those of the outer one. -/
theorem alike_of_append (c : Connective) (depth : Nat) (s : ScopeId) (xs : List Value)
    {ys : List Value} (hys : ys ≠ []) :
  Alike depth s (c.of (xs ++ [c.of ys])) (c.of (xs ++ ys)) ∧
    (depth + 1 < depthLimit → ∀ σ τ outcome,
      (∃ r, Ends depth s (c.of (xs ++ [c.of ys])) σ r τ ∧ r.mapError Error.kind = outcome) ↔
        ∃ r, EndsRow c depth s (xs ++ ys) σ r τ ∧ r.mapError Error.kind = outcome)
  := by
  use alike_nested xs hys
  intro hdepth σ τ outcome
  have hne : xs ++ ys ≠ [] := List.append_ne_nil_of_right_ne_nil xs hys
  constructor
  · rintro ⟨r, ⟨fuel, h⟩, houtcome⟩
    obtain ⟨r', h', hr⟩ := (nested_refines_iff_row hdepth fuel s xs hys).1 σ r τ h
    use r', (endsRow_iff hne).mpr ⟨_, h'⟩
    rw [← houtcome, mapError_kind_eq hr]
  · rintro ⟨r, h, houtcome⟩
    obtain ⟨fuel, h⟩ := (endsRow_iff hne).mp h
    obtain ⟨r', h', hr⟩ := (nested_refines_iff_row hdepth fuel s xs hys).2 σ r τ h
    use r', ⟨_, h'⟩
    rw [← houtcome, mapError_kind_eq hr]

/-- The first expression binds a name and does not decide; the name decides, so that the last one, which
means nothing, is not evaluated. -/
theorem alike_of_append_binding :
  ∃ first τ, first = Connective.and.of
      [.list [.specialForm .define, .symbol "z", .integer 1], .nil] ∧
    Ends 0 ⟨0⟩ (Connective.or.of ([first] ++ [Connective.or.of [.symbol "z", .symbol "y"]]))
      (Store.empty.addScope none).2 (.ok (.integer 1)) τ ∧
    Ends 0 ⟨0⟩ (Connective.or.of ([first] ++ [.symbol "z", .symbol "y"]))
      (Store.empty.addScope none).2 (.ok (.integer 1)) τ ∧
    ∃ r, EndsRow .or 0 ⟨0⟩ ([first] ++ [.symbol "z", .symbol "y"]) (Store.empty.addScope none).2 r τ ∧
      r.mapError Error.kind = .ok (.integer 1)
  := by
  obtain ⟨first, hfirst⟩ : ∃ first, first = Connective.and.of
      [.list [.specialForm .define, .symbol "z", .integer 1], .nil] := ⟨_, rfl⟩
  obtain ⟨τ, hends⟩ : ∃ τ, Ends 0 ⟨0⟩
      (Connective.or.of ([first] ++ [Connective.or.of [.symbol "z", .symbol "y"]]))
      (Store.empty.addScope none).2 (.ok (.integer 1)) τ := by
    rw [hfirst]
    exact ⟨_, 6, rfl⟩
  obtain ⟨halike, hrow⟩ :=
    alike_of_append .or 0 ⟨0⟩ [first] (List.cons_ne_nil (.symbol "z") [.symbol "y"])
  use first, τ, hfirst, hends, halike.ends_ok hends
  apply (hrow (by decide) _ _ _).mp ⟨_, hends, rfl⟩

end Eval

end PocketLisp
