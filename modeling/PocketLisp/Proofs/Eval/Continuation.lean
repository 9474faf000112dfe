import PocketLisp.Proofs.Eval.Refinement

/-!
# Where forms lead

A form has a value, or else one of its own arguments is left to be evaluated in the scope of the form.
The place that it gives for this argument is the right one.  No form enters a procedure; only calls do.
-/

namespace PocketLisp

/-- What a form with these arguments may lead to in the scope `s`: a value, or the argument at a place,
in the same scope. -/
def Step.ContinuesIn (s : ScopeId) (args : List Value) : Step → Prop
  | .done _ => True
  | .tail e s' position => s' = s ∧ args[position]? = some e
  | .enter _ _ => False

namespace Eval

variable {α β : Type} {Q : β → Prop}

/-- Every result of the evaluation satisfies `Q`. -/
def Yields (Q : β → Prop) (x : Eval β) : Prop :=
  ∀ σ b τ, x.outcome σ = some (.ok b, τ) → Q b

namespace Yields

/-- To give a result yields what holds of it. -/
theorem pure {b : β} (h : Q b) :
  Yields Q (Pure.pure b)
  := by
  rintro σ _ τ ⟨⟩
  apply h

/-- A failure yields nothing. -/
theorem throw (e : Error) :
  Yields Q (MonadExcept.throw e)
  := by
  rintro σ b τ ⟨⟩

/-- What comes first does not matter. -/
theorem bind {x : Eval α} {f : α → Eval β} (hf : ∀ a, Yields Q (f a)) :
  Yields Q (x >>= f)
  := by
  intro σ b τ h
  rcases outcome_bind_eq_some.mp h with ⟨_, -, ⟨⟩⟩ | ⟨a, υ, -, hb⟩
  apply hf a υ b τ hb

/-! ### Forms -/

variable {eval : Value → Eval Value} {s : ScopeId} {args : List Value} {position : Nat}

/-- The arguments from a position on stand at that position and those after it. -/
theorem getElem?_of_drop {rest : List Value} (h : args.drop position = rest) (i : Nat) :
  args[position + i]? = rest[i]?
  := by
  rw [← h, List.getElem?_drop]

/-- Behind the first of the arguments that are left is the rest of them. -/
theorem drop_of_drop {first : Value} {rest : List Value}
    (h : args.drop position = first :: rest) :
  args.drop (position + 1) = rest
  := by
  rw [← List.tail_drop, h, List.tail_cons]

/-- A body goes on at its end, which is the last of the arguments. -/
theorem ofBody {body : List Value} (h : args.drop position = body) :
  Yields (Step.ContinuesIn s args) (Step.ofBody eval s position body)
  := by
  fun_induction Step.ofBody eval s position body with
  | case1 => exact pure trivial
  | case2 position last => exact pure ⟨rfl, getElem?_of_drop h 0⟩
  | case3 position e body _ ih =>
    apply bind
    intro _
    apply ih (drop_of_drop h)

/-- So does a row in which no value decides before the end is reached. -/
theorem untilDecided {decides : Value → Bool} {empty : Value} {es : List Value}
    (h : args.drop position = es) :
  Yields (Step.ContinuesIn s args) (Step.untilDecided eval s decides empty position es)
  := by
  fun_induction Step.untilDecided eval s decides empty position es with
  | case1 => exact pure trivial
  | case2 position last => exact pure ⟨rfl, getElem?_of_drop h 0⟩
  | case3 position e es _ ih =>
    apply bind
    intro v
    split
    · exact pure trivial
    · apply ih (drop_of_drop h)

/-- The clause that is put off has its expression at its place, too. -/
theorem ofClauses {otherwise : Option (Value × Nat)}
    (hotherwise : ∀ o ∈ otherwise, args[o.2]? = some o.1) {clauses : List Value}
    (h : args.drop position = clauses) :
  Yields (Step.ContinuesIn s args) (Step.ofClauses eval s position otherwise clauses)
  := by
  fun_induction Step.ofClauses eval s position otherwise clauses with
  | case1 position otherwise e clauses ih =>
    apply ih _ (drop_of_drop (drop_of_drop h))
    intro o ho
    rcases Option.or_eq_some_iff.mp ho with ho | ⟨-, ho⟩
    · apply hotherwise o ho
    · cases ho
      apply getElem?_of_drop h 1
  | case2 position otherwise e clauses test _ ih =>
    apply bind
    intro v
    split
    · exact pure ⟨rfl, getElem?_of_drop h 1⟩
    · apply ih hotherwise (drop_of_drop (drop_of_drop h))
  | case3 position e position' => exact pure ⟨rfl, hotherwise _ rfl⟩
  | case4 => exact pure trivial

/-- To bind a name leads nowhere else. -/
theorem bindName (name : String) (v : Value) :
  Yields (Step.ContinuesIn s args) (SpecialForm.bind s name v)
  := by
  apply bind
  intro _
  exact pure trivial

/-- A form that leads on leads to one of its arguments, in its own scope. -/
theorem form (eval : Value → Eval Value) (s : ScopeId) (form : SpecialForm) (args : List Value) :
  Yields (Step.ContinuesIn s args) (form.step eval s args)
  := by
  cases form with
  | quote =>
    simp only [SpecialForm.step]
    split
    · exact pure trivial
    · apply throw
  | sequence => apply ofBody rfl
  | define =>
    simp only [SpecialForm.step]
    split
    · apply bind
      apply bindName
    · apply throw
    · apply throw
  | lambda =>
    simp only [SpecialForm.step]
    split
    · apply bind
      intro _
      exact pure trivial
    · apply throw
  | defineProcedure =>
    simp only [SpecialForm.step]
    split
    · apply bind
      apply bindName
    · apply throw
    · apply throw
  | conditional =>
    simp only [SpecialForm.step]
    split
    · apply bind
      intro v
      split
      · exact pure ⟨rfl, rfl⟩
      · exact pure trivial
    · apply bind
      intro v
      split
      · exact pure ⟨rfl, rfl⟩
      · exact pure ⟨rfl, rfl⟩
    · apply throw
  | cond =>
    simp only [SpecialForm.step]
    split
    · apply ofClauses _ rfl
      rintro _ ⟨⟩
    · apply throw
  | and => apply untilDecided rfl
  | or => apply untilDecided rfl

end Yields

end Eval

end PocketLisp
