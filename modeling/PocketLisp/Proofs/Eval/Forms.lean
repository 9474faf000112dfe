import PocketLisp.Proofs.Eval.Constants
import PocketLisp.Proofs.Eval.TailCalls

/-!
# Forms inside forms

A special form that stands at the head of a list itself is not looked up.  Where errors are compared
without the expressions that they name, evaluating the list is then no more than taking the step of the
form on the operands and following it.  If what it leads to is such a list again, that one is evaluated
at the same depth, so that several forms may do the work of one.

Clauses are conditionals in this way, each in the place of the alternative of the one before.  The
clauses that are put off are left out of the row, and the first of them has its expression at the end.
-/

namespace PocketLisp

namespace Eval

open Direct (isElse elseExpressions)

variable {fuel fuel' depth : Nat} {s : ScopeId}

/-! ### Expressions that are evaluated alike -/

/-- At a depth and in a scope two expressions are evaluated alike: from every store on one ends if the
other does, with the same value or an error of the same kind, and with the same store. -/
def Alike (depth : Nat) (s : ScopeId) (e e' : Value) : Prop :=
  ∀ σ, ((∃ r τ, Ends depth s e σ r τ) ↔ ∃ r τ, Ends depth s e' σ r τ) ∧
    ∀ r τ r' τ', Ends depth s e σ r τ → Ends depth s e' σ r' τ' →
      r.mapError Error.kind = r'.mapError Error.kind ∧ τ = τ'

namespace Alike

variable {e e' : Value}

/-- Two expressions are evaluated alike if each does what the other does, with some other fuel. -/
theorem of_refines
    (h : ∀ fuel, ∃ fuel', Refines Error.unnamed (expression fuel depth s e)
      (expression fuel' depth s e'))
    (h' : ∀ fuel, ∃ fuel', Refines Error.unnamed (expression fuel depth s e')
      (expression fuel' depth s e)) :
  Alike depth s e e'
  := by
  intro σ
  refine ⟨⟨?_, ?_⟩, ?_⟩
  · rintro ⟨r, τ, fuel, hends⟩
    obtain ⟨fuel', hrefines⟩ := h fuel
    obtain ⟨r', hends', -⟩ := hrefines σ r τ hends
    use r', τ, fuel'
  · rintro ⟨r, τ, fuel, hends⟩
    obtain ⟨fuel', hrefines⟩ := h' fuel
    obtain ⟨r', hends', -⟩ := hrefines σ r τ hends
    use r', τ, fuel'
  · rintro r τ r' τ' ⟨fuel, hends⟩ hends'
    obtain ⟨fuel', hrefines⟩ := h fuel
    obtain ⟨r'', hends'', hr⟩ := hrefines σ r τ hends
    obtain ⟨rfl, rfl⟩ := hends'.unique ⟨fuel', hends''⟩
    exact ⟨mapError_kind_eq hr, rfl⟩

/-- What one of two expressions that are evaluated alike has for its value, the other has, too. -/
theorem ends_ok (h : Alike depth s e e') {v : Value} {σ τ : Store}
    (hends : Ends depth s e σ (.ok v) τ) :
  Ends depth s e' σ (.ok v) τ
  := by
  obtain ⟨r', τ', hends'⟩ := (h σ).1.mp ⟨_, _, hends⟩
  obtain ⟨hr, rfl⟩ := (h σ).2 _ _ _ _ hends hends'
  cases r' with
  | error e' => cases hr
  | ok v' =>
    cases hr
    apply hends'

end Alike

/-! ### Special forms at the head of a list -/

/-- A step to an atomic value leads on as the evaluation of the value does one turn earlier. -/
theorem follow_done {v : Value} (h : v.isAtomic) (hdepth : depth < depthLimit) (fuel : Nat)
    (s : ScopeId) :
  follow fuel depth (.done v) = expression (fuel + 1) depth s v
  := by
  rw [expression, if_neg (Nat.not_le_of_lt hdepth), Step.ofExpression_of_isAtomic h, pure_bind]

/-- A value that stands for itself needs fuel for one turn and one step. -/
theorem expression_of_isAtomic {v : Value} (h : v.isAtomic) (hdepth : depth < depthLimit)
    (hfuel : 2 ≤ fuel) (s : ScopeId) :
  expression fuel depth s v = pure v
  := by
  obtain ⟨fuel, rfl⟩ := Nat.exists_eq_add_of_le' hfuel
  rw [← follow_done h hdepth, follow]

/-- If the operator has a form as its value, the call takes the step of the form. -/
theorem ofCall_specialForm {eval : Value → Eval Value} {operator : Value} {form : SpecialForm}
    {operands : List Value} (hoperator : eval operator = pure (.specialForm form))
    (h : form.arity.accepts operands.length) (s : ScopeId) :
  Step.ofCall eval s operator operands = form.step eval s operands
  := by
  have hvalidate : form.arity.validate operands.length = .ok () := if_pos h
  rw [Step.ofCall, hoperator, pure_bind]
  simp only [hvalidate]
  rfl

/-- Evaluating a list with a form at its head is following the step of the form. -/
theorem list_specialForm_refines_iff {form : SpecialForm} {operands : List Value}
    (h : form.arity.accepts operands.length) (hdepth : depth + 1 < depthLimit) (hfuel : 2 ≤ fuel)
    (s : ScopeId) :
  Refines Error.unnamed (expression (fuel + 1) depth s (.list (.specialForm form :: operands)))
      (form.step (expression fuel (depth + 1) s) s operands >>= follow fuel depth) ∧
    Refines Error.unnamed (form.step (expression fuel (depth + 1) s) s operands >>= follow fuel depth)
      (expression (fuel + 1) depth s (.list (.specialForm form :: operands)))
  := by
  have hoperator : expression fuel (depth + 1) s (.specialForm form) = pure (.specialForm form) :=
    expression_of_isAtomic rfl hdepth hfuel s
  rw [expression, if_neg (Nat.not_le_of_lt (Nat.lt_of_succ_lt hdepth)), Step.ofExpression,
    ofCall_specialForm hoperator h]
  constructor
  · apply (within_refines _ _).bind
    apply fun step => Refines.refl _
  · apply (refines_within _ _).bind
    apply fun step => Refines.refl _

/-! ### Conditionals and clauses -/

/-- Evaluates the test one level deeper, and if it is true the consequent at the depth itself. -/
def branch (fuel depth : Nat) (s : ScopeId) (test consequent : Value) (otherwise : Eval Value) :
    Eval Value := do
  let v ← expression fuel (depth + 1) s test
  if v.truthy then expression fuel depth s consequent else otherwise

/-- A branch gives what it gave with less fuel, and goes on alike if what is behind it does. -/
theorem branch_refines (hle : fuel ≤ fuel') (s : ScopeId) (test consequent : Value)
    {otherwise otherwise' : Eval Value} (h : Refines Error.unnamed otherwise otherwise') :
  Refines Error.unnamed (branch fuel depth s test consequent otherwise)
    (branch fuel' depth s test consequent otherwise')
  := by
  apply (expression_refines_of_le hle _ _ _).bind
  intro v
  split
  · apply expression_refines_of_le hle
  · apply h

/-- A conditional evaluates its alternative, too, at its own depth. -/
theorem conditional_refines_iff (hdepth : depth + 1 < depthLimit) (hfuel : 2 ≤ fuel) (s : ScopeId)
    (test consequent alternative : Value) :
  Refines Error.unnamed
      (expression (fuel + 1) depth s
        (.list [.specialForm .conditional, test, consequent, alternative]))
      (branch fuel depth s test consequent (expression fuel depth s alternative)) ∧
    Refines Error.unnamed
      (branch fuel depth s test consequent (expression fuel depth s alternative))
      (expression (fuel + 1) depth s
        (.list [.specialForm .conditional, test, consequent, alternative]))
  := by
  have hstep : SpecialForm.conditional.step (expression fuel (depth + 1) s) s
      [test, consequent, alternative] >>= follow fuel depth
        = branch fuel depth s test consequent (expression fuel depth s alternative) := by
    rw [SpecialForm.step, bind_assoc, branch]
    congr 1
    funext v
    by_cases hv : v.truthy <;> simp [hv, follow_tail (Nat.lt_of_succ_lt hdepth)]
  rw [← hstep]
  apply list_specialForm_refines_iff rfl hdepth hfuel

/-- The clauses that are not put off as conditionals, each the alternative of the one before;
`otherwise` is that of the last. -/
def nestedConditionals (otherwise : Value) : List Value → Value
  | test :: expression :: clauses =>
    if isElse test then nestedConditionals otherwise clauses
    else .list [.specialForm .conditional, test, expression, nestedConditionals otherwise clauses]
  | _ => otherwise

/-- A clause whose test is not the keyword is a conditional, with the clauses behind it in its
alternative. -/
theorem nestedConditionals_of_ne {test : Value} (h : test ≠ .keyword "else")
    (otherwise e : Value) (clauses : List Value) :
  nestedConditionals otherwise (test :: e :: clauses)
    = .list [.specialForm .conditional, test, e, nestedConditionals otherwise clauses]
  := by
  rw [nestedConditionals, Direct.isElse_eq_false h]
  rfl

/-- The expression to be evaluated when all tests have failed: the one that was put off earlier, or
else the first that is put off in the clauses. -/
def fallback (earlier : Option (Value × Nat)) (clauses : List Value) : Value :=
  ((earlier.map Prod.fst).or (elseExpressions clauses).head?).getD .nil

/-- A clause that is put off is kept unless one was kept before. -/
theorem fallback_else (earlier : Option (Value × Nat)) (position : Nat) (e : Value)
    (clauses : List Value) :
  fallback earlier (.keyword "else" :: e :: clauses)
    = fallback (earlier.or (some (e, position))) clauses
  := by
  cases earlier <;> rfl

/-- A clause that is not put off leaves what was kept. -/
theorem fallback_of_ne {test : Value} (h : test ≠ .keyword "else")
    (earlier : Option (Value × Nat)) (e : Value) (clauses : List Value) :
  fallback earlier (test :: e :: clauses) = fallback earlier clauses
  := by
  rw [fallback, elseExpressions, Direct.isElse_eq_false h]
  rfl

/-- The clauses from one on that is not put off are a branch, with the clauses behind it to go on with. -/
theorem bind_ofClauses_of_ne {test : Value} (h : test ≠ .keyword "else")
    (hdepth : depth < depthLimit) (s : ScopeId) (position : Nat) (earlier : Option (Value × Nat))
    (e : Value) (clauses : List Value) :
  Step.ofClauses (expression fuel (depth + 1) s) s position earlier (test :: e :: clauses)
      >>= follow fuel depth
    = branch fuel depth s test e
        (Step.ofClauses (expression fuel (depth + 1) s) s (position + 2) earlier clauses
          >>= follow fuel depth)
  := by
  rw [Step.ofClauses, bind_assoc, branch]
  · congr 1
    funext v
    by_cases hv : v.truthy <;> simp [hv, follow_tail hdepth]
  · apply h

/-- Clauses and nested conditionals are evaluated in the same way.  The alternative of a conditional
comes a turn later than the next clause, and more fuel is needed for that. -/
theorem clauses_refines_iff_nestedConditionals (hdepth : depth + 1 < depthLimit) (position : Nat)
    (earlier : Option (Value × Nat)) (clauses : List Value)
    (hle : fuel + clauses.length + 2 ≤ fuel') :
  Refines Error.unnamed
      (Step.ofClauses (expression fuel (depth + 1) s) s position earlier clauses
        >>= follow fuel depth)
      (expression fuel' depth s (nestedConditionals (fallback earlier clauses) clauses)) ∧
    Refines Error.unnamed
      (expression fuel depth s (nestedConditionals (fallback earlier clauses) clauses))
      (Step.ofClauses (expression fuel' (depth + 1) s) s position earlier clauses
        >>= follow fuel' depth)
  := by
  have hlt := Nat.lt_of_succ_lt hdepth
  induction position, earlier, clauses using Step.ofClauses.induct generalizing fuel fuel' with
  | case1 position earlier e clauses ih =>
    rw [List.length_cons, List.length_cons] at hle
    rw [Step.ofClauses, Step.ofClauses, fallback_else earlier (position + 1)]
    apply ih
    omega
  | case2 position earlier e clauses test h ih =>
    rw [List.length_cons, List.length_cons] at hle
    rw [bind_ofClauses_of_ne h hlt, bind_ofClauses_of_ne h hlt, fallback_of_ne h,
      nestedConditionals_of_ne h]
    constructor
    · obtain ⟨fuel', rfl⟩ := Nat.exists_eq_add_of_le' (Nat.le_of_add_left_le hle)
      apply Refines.trans _ (conditional_refines_iff hdepth (by omega) s _ _ _).2
      apply branch_refines (by omega)
      apply (ih (by omega)).1
    · apply (expression_refines_of_le (Nat.le_add_right fuel 3) _ _ _).trans
      apply (conditional_refines_iff hdepth (by omega) s _ _ _).1.trans
      apply branch_refines (by omega)
      apply (ih (by omega)).2
  | case3 clauses position e _ h =>
    rw [Step.ofClauses, Step.ofClauses, nestedConditionals, pure_bind, pure_bind, follow_tail hlt,
      follow_tail hlt]
    · constructor <;> apply expression_refines_of_le (by omega)
    all_goals apply h
  | case4 clauses position h =>
    rw [Step.ofClauses, Step.ofClauses, nestedConditionals, fallback, elseExpressions, pure_bind,
      pure_bind, follow_done rfl hlt _ s, follow_done rfl hlt _ s]
    · constructor <;> apply expression_refines_of_le (by omega)
    all_goals apply h

/-- A row of clauses is evaluated like the clauses that are not put off, each a conditional in the
place of the alternative of the one before; at the end stands the expression of the first clause that
is put off, if there is one. -/
theorem alike_cond_nestedConditionals (hdepth : depth + 1 < depthLimit) {clauses : List Value}
    (heven : clauses.length % 2 = 0) (s : ScopeId) :
  Alike depth s (.list (.specialForm .cond :: clauses))
    (nestedConditionals ((elseExpressions clauses).head?.getD .nil) clauses)
  := by
  have hstep (fuel : Nat) : SpecialForm.cond.step (expression fuel (depth + 1) s) s clauses
      = Step.ofClauses (expression fuel (depth + 1) s) s 0 none clauses := if_pos heven
  have haccepts : SpecialForm.cond.arity.accepts clauses.length :=
    Arity.accepts_even_iff.mpr heven
  have hform {fuel : Nat} (hfuel : 2 ≤ fuel) :=
    list_specialForm_refines_iff haccepts hdepth hfuel s
  apply Alike.of_refines
  · intro fuel
    use fuel + 2 + clauses.length + 2
    apply (expression_refines_of_le (Nat.le_add_right fuel 3) _ _ _).trans
    apply (hform (Nat.le_add_left 2 fuel)).1.trans
    rw [hstep]
    apply (clauses_refines_iff_nestedConditionals hdepth 0 none clauses (Nat.le_refl _)).1
  · intro fuel
    use fuel + clauses.length + 2 + 1
    apply Refines.trans _ (hform (Nat.le_add_left 2 _)).2
    rw [hstep]
    apply (clauses_refines_iff_nestedConditionals hdepth 0 none clauses (Nat.le_refl _)).2

/-- The first clause and the third are put off, and only the first of them counts; the test of the
second binds a name and is false. -/
theorem alike_cond_nestedConditionals_else :
  ∃ τ, Ends 0 ⟨0⟩
      (.list [.specialForm .cond, .keyword "else", .symbol "z",
        .list [.specialForm .and, .list [.specialForm .define, .symbol "z", .integer 1], .nil],
        .integer 2, .keyword "else", .integer 3]) (Store.empty.addScope none).2
      (.ok (.integer 1)) τ ∧
    Ends 0 ⟨0⟩
      (.list [.specialForm .conditional,
        .list [.specialForm .and, .list [.specialForm .define, .symbol "z", .integer 1], .nil],
        .integer 2, .symbol "z"]) (Store.empty.addScope none).2 (.ok (.integer 1)) τ
  := by
  obtain ⟨τ, hends⟩ : ∃ τ, Ends 0 ⟨0⟩
      (.list [.specialForm .cond, .keyword "else", .symbol "z",
        .list [.specialForm .and, .list [.specialForm .define, .symbol "z", .integer 1], .nil],
        .integer 2, .keyword "else", .integer 3]) (Store.empty.addScope none).2
      (.ok (.integer 1)) τ := ⟨_, 6, rfl⟩
  use τ, hends
  apply (alike_cond_nestedConditionals (by decide) (by decide) ⟨0⟩).ends_ok hends

end Eval

end PocketLisp
