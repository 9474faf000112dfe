import PocketLisp.Proofs.Eval.Refinement

/-!
# The depth of an evaluation

The depth at which an evaluation begins decides nothing but whether it fails for being too deep.
As long as it does not, it goes like an evaluation that begins less deep, with the same effects on
the store; and no form takes notice of the failure, which comes out as the error of the whole.
-/

namespace PocketLisp.Eval

variable {α β : Type}

/-- The evaluation `y` goes like `x`, unless it fails for being too deep. -/
def CutOff (x y : Eval α) : Prop :=
  ∀ σ, y.outcome σ = x.outcome σ ∨
    ∃ limit τ, y.outcome σ = some (.error (.depthExceeded limit), τ)

namespace CutOff

/-- An evaluation is cut off nowhere from itself. -/
theorem refl (x : Eval α) :
  CutOff x x
  := fun _ => .inl rfl

/-- A depth error cuts off whatever there was to do. -/
theorem throw (x : Eval α) (limit : Nat) :
  CutOff x (MonadExcept.throw (Error.depthExceeded limit))
  := fun σ => .inr ⟨limit, σ, rfl⟩

/-- A sequence is cut off in its first part, or in its second after the same first part. -/
theorem bind {x y : Eval α} {f g : α → Eval β} (h : CutOff x y) (hf : ∀ a, CutOff (f a) (g a)) :
  CutOff (x >>= f) (y >>= g)
  := by
  intro σ
  rw [outcome_bind, outcome_bind]
  rcases h σ with hy | ⟨limit, τ, hy⟩
  · rw [hy]
    cases x.outcome σ with
    | none => apply Or.inl rfl
    | some o =>
      obtain ⟨e | a, τ⟩ := o
      · apply Or.inl rfl
      · apply hf a τ
  · rw [hy]
    apply Or.inr ⟨limit, τ, rfl⟩

/-- No expression is named in the failure. -/
theorem within (expression : Value) {x y : Eval α} (h : CutOff x y) :
  CutOff (x.within expression) (y.within expression)
  := by
  intro σ
  rw [outcome_within, outcome_within]
  rcases h σ with hy | ⟨limit, τ, hy⟩
  · apply Or.inl (congrArg _ hy)
  · rw [hy]
    apply Or.inr ⟨limit, τ, rfl⟩

end CutOff

/-- Every form answers the failure of a part with its own. -/
def cutOff : Congruence where
  Rel := CutOff
  refl := CutOff.refl
  bind := CutOff.bind
  within := CutOff.within

/-- With the same fuel, what begins deeper goes like what begins less deep, unless it fails for
being too deep. -/
theorem cutOff_run (fuel : Nat) {depth depth' : Nat} (hle : depth ≤ depth') :
  (∀ s e, CutOff (expression fuel depth s e) (expression fuel depth' s e)) ∧
    ∀ step, CutOff (follow fuel depth step) (follow fuel depth' step)
  := by
  induction fuel generalizing depth depth' with
  | zero =>
    constructor
    · intro s e
      apply CutOff.refl
    · intro step
      apply CutOff.refl
  | succ fuel ih =>
    obtain ⟨ihExpression, -⟩ := ih (Nat.succ_le_succ hle)
    obtain ⟨-, ihFollow⟩ := ih hle
    constructor
    · intro s e
      -- Where the deeper one is at the limit it fails; else both take the same step.
      by_cases hlimit : depthLimit ≤ depth'
      · have hthrow : expression (fuel + 1) depth' s e = throw (.depthExceeded depthLimit) := by
          rw [expression, if_pos hlimit]
        rw [hthrow]
        apply CutOff.throw
      · apply cutOff.expression ihExpression ihFollow
        omega
    · apply cutOff.follow ihExpression ihFollow

/-- An evaluation that ends, but not for being too deep, ends when it begins less deep with the same
value or error and the same store; one that fails for being too deep fails so too when it begins
deeper. -/
theorem ends_deeper {depth depth' : Nat} (hle : depth ≤ depth') (s : ScopeId) (e : Value)
    (σ : Store) :
  (∀ r τ, Ends depth' s e σ r τ → (∀ limit, r ≠ .error (.depthExceeded limit)) →
      Ends depth s e σ r τ) ∧
    ∀ limit τ, Ends depth s e σ (.error (.depthExceeded limit)) τ →
      ∃ limit' τ', Ends depth' s e σ (.error (.depthExceeded limit')) τ'
  := by
  constructor
  · rintro r τ ⟨fuel, h⟩ hr
    use fuel
    rcases (cutOff_run fuel hle).1 s e σ with heq | ⟨limit, υ, hdeep⟩
    · rw [← heq, h]
    · rw [h] at hdeep
      cases hdeep
      cases hr limit rfl
  · rintro limit τ ⟨fuel, h⟩
    rcases (cutOff_run fuel hle).1 s e σ with heq | ⟨limit', τ', hdeep⟩
    · use limit, τ, fuel
      rw [heq, h]
    · use limit', τ', fuel

/-- The forms `(do (def x 1) [x])`, the callables standing for themselves. -/
def defineAndUse : Value :=
  .list [.specialForm .sequence,
    .list [.specialForm .define, .symbol "x", .integer 1], .vector [.symbol "x"]]

/-- With the expression that defines a name and uses it, the last depth at which it still has its value, and
two depths at which it fails. -/
theorem ends_deeper_defineAndUse :
  ∃ σ, (∃ τ, Ends 4093 ⟨0⟩ defineAndUse σ (.ok (.vector [.integer 1])) τ ∧
      Ends 0 ⟨0⟩ defineAndUse σ (.ok (.vector [.integer 1])) τ) ∧
    ∃ limit τ limit' τ', Ends 4094 ⟨0⟩ defineAndUse σ (.error (.depthExceeded limit)) τ ∧
      Ends 4095 ⟨0⟩ defineAndUse σ (.error (.depthExceeded limit')) τ'
  := by
  obtain ⟨σ, hσ⟩ : ∃ σ, σ = (Store.empty.addScope none).2 := ⟨_, rfl⟩
  have hvalue : ((expression 20 4093 ⟨0⟩ defineAndUse).outcome σ).map Prod.fst
      = some (.ok (.vector [.integer 1])) := by
    rw [hσ]
    rfl
  have hdeep : ((expression 20 4094 ⟨0⟩ defineAndUse).outcome σ).map Prod.fst
      = some (.error (.depthExceeded depthLimit)) := by
    rw [hσ]
    rfl
  obtain ⟨⟨r, τ⟩, hvalue, rfl⟩ := Option.map_eq_some_iff.mp hvalue
  obtain ⟨⟨r', τ'⟩, hdeep, rfl⟩ := Option.map_eq_some_iff.mp hdeep
  use σ
  constructor
  · use τ, ⟨20, hvalue⟩
    apply (ends_deeper (Nat.zero_le 4093) ⟨0⟩ defineAndUse σ).1 _ _ ⟨20, hvalue⟩
    rintro limit ⟨⟩
  · obtain ⟨limit', υ, h⟩ :=
      (ends_deeper (Nat.le_succ 4094) ⟨0⟩ defineAndUse σ).2 _ _ ⟨20, hdeep⟩
    exact ⟨_, _, _, _, ⟨20, hdeep⟩, h⟩

end PocketLisp.Eval
