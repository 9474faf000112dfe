import PocketLisp.Proofs.Eval.Continuation
import PocketLisp.Proofs.Eval.Failures
import PocketLisp.Proofs.Eval.Natives
import Mathlib.Data.Nat.Init

/-!
# Where errors come from

A run that fails has come, through evaluations inside evaluations, bodies of procedures and tail positions,
to an expression that fails by itself: it is too deep, it is an unbound name, or it is a list that fails to
apply.  On the way out the error names this list first, and then the lists in whose steps it was under
evaluation.  Vectors, maps, bodies and tail positions add nothing.

Errors about argument counts name one expression only, and so the list that failed; faults of evaluation
and of types name all, the list that failed before all others.  What native functions give back is not
looked into, except that it must not name an expression for an argument count already.
-/

namespace PocketLisp

open Value

namespace Eval

/-! ### Ways into an evaluation -/

/-- The evaluation of the task `t` at `depth` comes to evaluate the task `u` at another depth.  The
`frames` are what names itself in an error of `u` on its way out of `t`. -/
inductive Enters (depth : Nat) (t : Task) : (frames : List Value) → (depth' : Nat) → (u : Task) → Prop
  /-- The step of the expression evaluates another one. -/
  | inside {fuel : Nat} {u : Value} {σ' : Store} (hdepth : depth < depthLimit)
    (h : Evaluates (expression fuel (depth + 1) t.scope) t.expression t.store u σ') :
    Enters depth t (frame t.expression) (depth + 1) ⟨u, t.scope, σ'⟩
  /-- The expression calls a procedure, and `u` is in its body but not at the end. -/
  | body {fuel : Nat} {p : Procedure} {s : ScopeId} {u : Value} {υ σ' : Store}
    (hdepth : depth < depthLimit)
    (hcall : (Step.ofExpression (expression fuel (depth + 1)) t.scope t.expression).outcome t.store
      = some (.ok (.enter p s), υ))
    (h : Reaches (expression fuel (depth + 1) s) (fun _ => true) p.body.dropLast υ u σ') :
    Enters depth t [] (depth + 1) ⟨u, s, σ'⟩
  | tail {u : Task} (h : TailStep depth t u) : Enters depth t [] depth u

/-- The evaluation of a task comes to that of another in any number of ways one after the other. -/
inductive Leads : (depth : Nat) → Task → (frames : List Value) → (depth' : Nat) → Task → Prop
  | refl {depth : Nat} {t : Task} : Leads depth t [] depth t
  | step {depth depth' depth'' : Nat} {t u w : Task} {outer inner : List Value}
    (h : Enters depth t outer depth' u) (hrest : Leads depth' u inner depth'' w) :
    Leads depth t (outer ++ inner) depth'' w

/-- The expression of the task is a list, and its own application step fails with the error `raised`. -/
def Task.FailsToApply (depth : Nat) (t : Task) (raised : Error) (τ : Store) : Prop :=
  ∃ fuel, Eval.FailsToApply (Eval.expression fuel (depth + 1) t.scope) t.scope t.expression t.store
    raised τ

/-- The evaluation of the task fails by itself, and not because of an evaluation that it comes to. -/
inductive Raises (depth : Nat) (t : Task) : (raised : Error) → Store → Prop
  | tooDeep (h : depthLimit ≤ depth) : Raises depth t (.depthExceeded depthLimit) t.store
  | unbound {name : String} (hdepth : depth < depthLimit) (ht : t.expression = .symbol name)
    (h : t.store.get? t.scope name = none) : Raises depth t (.unbound name) t.store
  | application {raised : Error} {τ : Store} (hdepth : depth < depthLimit)
    (h : t.FailsToApply depth raised τ) : Raises depth t raised τ

/-- The error comes from a task that the evaluation comes to and that fails by itself.  It has been named
by the expression of that task, and by the frames around it. -/
def Originates (depth : Nat) (t : Task) (error : Error) (τ : Store) : Prop :=
  ∃ frames depth' u raised, Leads depth t frames depth' u ∧ Raises depth' u raised τ ∧
    error = frames.foldr Error.within (raised.within u.expression)

namespace Originates

variable {depth depth' : Nat} {t u : Task} {error raised : Error} {σ τ : Store} {frames : List Value}

/-- What a task raises by itself originates in it, with no frames around. -/
theorem of_raises (h : Raises depth t raised τ) :
  Originates depth t (raised.within t.expression) τ
  := ⟨[], depth, t, raised, .refl, h, rfl⟩

/-- What originates in a task that another one comes to originates in that one as well, with the frames
on the way. -/
theorem of_enters (h : Enters depth t frames depth' u) (hu : Originates depth' u error τ) :
  Originates depth t (frames.foldr Error.within error) τ
  := by
  obtain ⟨inner, depth'', w, raised, hleads, hraises, rfl⟩ := hu
  use frames ++ inner, depth'', w, raised, .step h hleads, hraises
  rw [List.foldr_append]

end Originates

/-- What fails to apply is a list, and names itself. -/
theorem frame_of_failsToApply {eval : Value → Eval Value} {s : ScopeId} {e : Value} {error : Error}
    {σ τ : Store} (h : FailsToApply eval s e σ error τ) :
  frame e = [e]
  := by
  cases h <;> rfl

/-! ### Every error has an origin -/

/-- With so much fuel, every error has an origin. -/
def Traces (fuel : Nat) : Prop :=
  ∀ depth s e σ error τ, (expression fuel depth s e).Fails σ error τ → Originates depth ⟨e, s, σ⟩ error τ

section

variable {depth fuel : Nat} {s s' : ScopeId} {e : Value} {p : Procedure} {error : Error}
  {σ υ τ : Store}

/-- If the step of an expression fails, the error comes from the expression itself or from inside. -/
theorem originates_of_fails_ofExpression (hdepth : depth < depthLimit) (htraces : Traces fuel)
    (h : (Step.ofExpression (expression fuel (depth + 1)) s e).Fails σ error τ) :
  Originates depth ⟨e, s, σ⟩ error τ
  := by
  rcases fails_ofExpression_iff.mp h with
    ⟨name, rfl, hname, rfl, rfl⟩ | ⟨raised, rfl, happly | ⟨u, σ', hevaluates, hu⟩⟩
  · apply Originates.of_raises (t := ⟨.symbol name, s, σ⟩) (.unbound hdepth rfl hname)
  · rw [frame_of_failsToApply happly]
    apply Originates.of_raises (t := ⟨e, s, σ⟩) (.application hdepth ⟨fuel, happly⟩)
  · apply Originates.of_enters (t := ⟨e, s, σ⟩) (.inside hdepth hevaluates)
    apply htraces _ _ _ _ _ _ hu

/-- If the body of a procedure fails, the error comes from an expression before its end, or from the one at
the end. -/
theorem originates_of_fails_enter (hdepth : depth < depthLimit) (htraces : ∀ less < fuel, Traces less)
    (hcall : (Step.ofExpression (expression fuel (depth + 1)) s e).outcome σ = some (.ok (.enter p s'), υ))
    (h : (follow fuel depth (.enter p s')).Fails υ error τ) :
  Originates depth ⟨e, s, σ⟩ error τ
  := by
  rcases fuel with _ | fuel
  · cases h
  have htraces := htraces fuel fuel.lt_succ_self
  -- the body is followed with less fuel than there was for the call
  have heval := (mono fuel).1 (fuel + 1) fuel.le_succ (depth + 1) s'
  rcases fails_bind_iff.mp h with hbody | ⟨step, φ, hbody, hfollow⟩
  · obtain ⟨u, σ', hreaches, hu⟩ := fails_ofBody_iff.mp hbody
    apply Originates.of_enters (t := ⟨e, s, σ⟩) (.body hdepth hcall (hreaches.mono heval))
    apply htraces _ _ _ _ _ _ hu
  · cases step with
    | done v => rcases fuel with _ | fuel <;> cases hfollow
    | tail u s'' position =>
      rw [follow_tail hdepth] at hfollow
      have hbody := ((refinement tolerates_id).ofBody heval s' 0 p.body).outcome_eq hbody
      apply Originates.of_enters (t := ⟨e, s, σ⟩) (u := ⟨u, s'', φ⟩) (.tail (.call hdepth hcall hbody))
      apply htraces _ _ _ _ _ _ hfollow
    | enter p' s'' => cases Yields.ofBody (List.drop_zero (l := p.body)) _ _ _ hbody

/-- By induction on the fuel: the step of the expression fails, or what it leads to does. -/
theorem traces (fuel : Nat) :
  Traces fuel
  := by
  induction fuel using Nat.strong_induction_on with
  | h fuel ih =>
    intro depth s e σ error τ h
    rcases fuel with _ | fuel
    · cases h
    have htraces := ih fuel fuel.lt_succ_self
    rw [expression] at h
    split at h
    next hdepth =>
      cases h
      apply Originates.of_raises (t := ⟨e, s, σ⟩) (.tooDeep hdepth)
    next hdepth =>
      have hdepth := Nat.lt_of_not_le hdepth
      rcases fails_bind_iff.mp h with hstep | ⟨step, υ, hstep, hfollow⟩
      · apply originates_of_fails_ofExpression hdepth htraces hstep
      cases step with
      | done v => rcases fuel with _ | fuel <;> cases hfollow
      | tail u s' position =>
        rw [follow_tail hdepth] at hfollow
        apply Originates.of_enters (t := ⟨e, s, σ⟩) (u := ⟨u, s', υ⟩) (.tail (.inside hdepth hstep))
        apply htraces _ _ _ _ _ _ hfollow
      | enter p s' =>
        apply originates_of_fails_enter hdepth _ hstep hfollow
        intro less hless
        apply ih less (Nat.lt_succ_of_lt hless)

end

/-! ### Every origin has an error -/

namespace Raises

/-- A task that raises an error by itself ends with it. -/
theorem ends {depth : Nat} {t : Task} {raised : Error} {τ : Store} (h : Raises depth t raised τ) :
  t.Ends depth (.error (raised.within t.expression)) τ
  := by
  obtain ⟨e, s, σ⟩ := t
  cases h with
  | tooDeep hdepth =>
    use 1
    rw [expression, if_pos hdepth]
    rfl
  | unbound hdepth he hname =>
    apply (ends_iff_exists hdepth).mpr
    use 0
    apply fails_bind_iff.mpr
    exact .inl (fails_ofExpression_iff.mpr (.inl ⟨_, he, hname, rfl, rfl⟩))
  | application hdepth happly =>
    obtain ⟨fuel, happly⟩ := happly
    apply (ends_iff_exists hdepth).mpr
    use fuel
    apply fails_bind_iff.mpr
    left
    apply fails_ofExpression_iff.mpr
    right
    use raised
    rw [frame_of_failsToApply happly]
    exact ⟨rfl, .inl happly⟩

end Raises

/-- An error of what the evaluation comes to leaves the evaluation, named by the frames. -/
theorem Enters.ends {depth depth' : Nat} {t u : Task} {frames : List Value} {error : Error} {τ : Store}
    (h : Enters depth t frames depth' u) (hu : u.Ends depth' (.error error) τ) :
  t.Ends depth (.error (frames.foldr Error.within error)) τ
  := by
  cases h with
  | @inside fuel u σ' hdepth hevaluates =>
    obtain ⟨fuel', hu⟩ := hu
    have heval := (mono fuel).1 (max fuel fuel') (Nat.le_max_left _ _) (depth + 1) t.scope
    have hu := outcome_expression_of_le (Nat.le_max_right fuel fuel') hu
    apply (ends_iff_exists hdepth).mpr
    use max fuel fuel'
    apply fails_bind_iff.mpr
    left
    apply fails_ofExpression_iff.mpr
    exact .inr ⟨error, rfl, .inr ⟨u, σ', hevaluates.mono heval, hu⟩⟩
  | @body fuel p s u υ σ' hdepth hcall hreaches =>
    obtain ⟨fuel', hu⟩ := hu
    have heval := (mono fuel).1 (max fuel fuel') (Nat.le_max_left _ _) (depth + 1) s
    have hu := outcome_expression_of_le (Nat.le_max_right fuel fuel') hu
    apply (ends_iff_follows hdepth hcall).mpr
    use max fuel fuel' + 1
    apply fails_bind_iff.mpr
    exact .inl (fails_ofBody_iff.mpr ⟨u, σ', hreaches.mono heval, hu⟩)
  | tail h => exact (h.ends_iff _ _).mpr hu

/-- So does an error of what the evaluation comes to in any number of ways. -/
theorem Leads.ends {depth depth' : Nat} {t u : Task} {frames : List Value} {error : Error} {τ : Store}
    (h : Leads depth t frames depth' u) (hu : u.Ends depth' (.error error) τ) :
  t.Ends depth (.error (frames.foldr Error.within error)) τ
  := by
  induction h with
  | refl => apply hu
  | step h _ ih =>
    rw [List.foldr_append]
    apply h.ends (ih hu)

/-- An evaluation fails with an error exactly if the error originates in it. -/
theorem ends_error_iff_originates {depth : Nat} {t : Task} {error : Error} {τ : Store} :
  t.Ends depth (.error error) τ ↔ Originates depth t error τ
  := by
  constructor
  · rintro ⟨fuel, h⟩
    apply traces fuel _ _ _ _ _ _ h
  · rintro ⟨frames, depth', u, raised, hleads, hraises, rfl⟩
    apply hleads.ends hraises.ends

/-! ### Errors of native functions -/

/-- A form refuses its arguments with an error of the interpreter itself. -/
theorem isRefusal_of_refuses {form : SpecialForm} {s : ScopeId} {args : List Value} {error : Error}
    (h : form.Refuses s args error) :
  error.IsRefusal
  := by
  have h := h (fun _ => outOfFuel) Store.empty
  by_cases haccepts : form.arity.accepts args.length
  · apply FailsOnly.form _ _ s haccepts _ _ _ h
    · intro _
      apply FailsOnly.outOfFuel
    · intro e
      apply Error.IsRefusal.fault
  · rw [SpecialForm.step_of_not_accepts haccepts] at h
    cases h
    apply Error.IsRefusal.arity

section

variable {eval : Value → Eval Value} {e u : Value} {σ σ' τ : Store}

/-- To reach an expression of a row leaves the native functions as they are. -/
theorem Reaches.natives_eq (heval : ∀ e, KeepsNatives (eval e)) {goesOn : Value → Bool} {es : List Value}
    (h : Reaches eval goesOn es σ u σ') :
  σ'.natives = σ.natives
  := by
  induction h with
  | here => rfl
  | next h _ _ ih => rw [ih, heval _ _ _ _ h]

/-- So does what a step evaluates before it gets to an expression inside. -/
theorem Evaluates.natives_eq (heval : ∀ e, KeepsNatives (eval e)) (h : Evaluates eval e σ u σ') :
  σ'.natives = σ.natives
  := by
  cases h with
  | element h => apply h.natives_eq heval
  | operator => rfl
  | formOperand hoperator _ h => rw [h.natives_eq heval, heval _ _ _ _ hoperator]
  | operand hoperator _ h => rw [h.natives_eq heval, heval _ _ _ _ hoperator]

/-- A list that fails to apply gives an error of the interpreter, or the error that a native function gives
back. -/
theorem error_of_failsToApply (heval : ∀ e, KeepsNatives (eval e)) {s : ScopeId} {error : Error}
    (h : FailsToApply eval s e σ error τ) :
  error.IsRefusal ∨ ∃ native ∈ σ.natives, ∃ args, (native.call args).result = .error error
  := by
  cases h with
  | form _ hrefuses => apply Or.inl (isRefusal_of_refuses hrefuses)
  | @call _ _ operands args _ υ σ' _ _ hoperator _ hoperands happly =>
    rcases error_of_apply happly with hrefusal | ⟨id, native, -, hnative, hresult⟩
    · apply Or.inl hrefusal
    · have hnatives : σ'.natives = σ.natives := by
        rw [(KeepsNatives.hereditary s).mapM heval operands _ _ _ hoperands, heval _ _ _ _ hoperator]
      rw [Store.native?, hnatives] at hnative
      exact .inr ⟨native, Array.mem_of_getElem? hnative, args, hresult⟩

end

section

variable {depth depth' : Nat} {t u : Task} {frames : List Value} {raised : Error} {τ : Store}

/-- The native functions are the same one turn later. -/
theorem TailStep.natives_eq (h : TailStep depth t u) :
  u.store.natives = t.store.natives
  := by
  cases h with
  | inside _ h => exact KeepsNatives.ofExpression ((KeepsNatives.run _).1 _) _ _ _ _ _ h
  | @call fuel _ _ p s _ _ _ h hbody =>
    have heval := (KeepsNatives.run fuel).1 (depth + 1)
    rw [(KeepsNatives.hereditary s).ofBody (heval s) 0 p.body _ _ _ hbody,
      KeepsNatives.ofExpression heval _ _ _ _ _ h]

/-- They are the same wherever an evaluation comes to. -/
theorem Leads.natives_eq (h : Leads depth t frames depth' u) :
  u.store.natives = t.store.natives
  := by
  induction h with
  | refl => rfl
  | step h _ ih =>
    rw [ih]
    cases h with
    | @inside fuel _ _ _ h => exact h.natives_eq ((KeepsNatives.run fuel).1 _ _)
    | @body fuel _ s _ _ _ _ hcall h =>
      have heval := (KeepsNatives.run fuel).1
      rw [h.natives_eq (heval _ s), KeepsNatives.ofExpression (heval _) _ _ _ _ _ hcall]
    | tail h => apply h.natives_eq

/-- Only by a list that fails to apply can an error be raised that a list would name itself in. -/
theorem Raises.failsToApply (h : Raises depth t raised τ)
    (hkind : raised.kind = .arity ∨ raised.kind = .evaluation ∨ raised.kind = .type) :
  t.FailsToApply depth raised τ
  := by
  cases h with
  | application _ h => apply h
  | tooDeep | unbound => simp [Error.kind] at hkind

/-- No expression is named yet in an error about an argument count when it is raised. -/
theorem Raises.named_eq_none {expected : Arity} {got : Nat} {named : Option String}
    (hnatives : ∀ native ∈ t.store.natives, ∀ args expected got named,
      (native.call args).result ≠ .error (.arity expected got (some named)))
    (h : Raises depth t (.arity expected got named) τ) :
  named = none
  := by
  obtain ⟨fuel, happly⟩ := h.failsToApply (.inl rfl)
  rcases error_of_failsToApply ((KeepsNatives.run fuel).1 _ _) happly with
    hrefusal | ⟨native, hmem, args, hresult⟩
  · cases hrefusal with
    | fault h => cases h
    | arity => rfl
  · cases named with
    | none => rfl
    | some name => cases hnatives native hmem args expected got name hresult

end

end Eval

/-! ### What an error says about its origin -/

namespace Error

/-- The line that names an expression stands after those of the expressions inside it. -/
theorem trailText_append_cons (outer : List String) (text : String) (inner : List String) :
  trailText (outer ++ text :: inner)
    = trailText inner ++ "\n  Context: while evaluating: " ++ text ++ trailText outer
  := by
  simp only [trailText, List.reverse_append, List.reverse_cons, List.map_append, List.map_cons,
    List.map_nil, String.join_append, String.join_cons, String.join_nil, String.append_empty,
    String.append_assoc]

/-- What naming more expressions adds to a message comes after the message. -/
theorem append_trailText_append_cons (message : String) (outer : List String) (text : String)
    (inner : List String) :
  message ++ trailText (outer ++ text :: inner)
    = message ++ trailText inner ++ "\n  Context: while evaluating: " ++ text ++ trailText outer
  := by
  simp only [trailText_append_cons, String.append_assoc]

/-- The names that an error of evaluation is given on the way are put before those that it has. -/
theorem foldr_within_evaluation (frames : List Value) (fault : EvalFault) (trail : List String) :
  frames.foldr within (evaluation fault trail) = evaluation fault (frames.map Value.text ++ trail)
  := by
  induction frames with
  | nil => rfl
  | cons frame frames ih =>
    rw [List.foldr_cons, ih]
    rfl

/-- So they are with an error of types. -/
theorem foldr_within_type (frames : List Value) (fault : TypeFault) (trail : List String) :
  frames.foldr within (type fault trail) = type fault (frames.map Value.text ++ trail)
  := by
  induction frames with
  | nil => rfl
  | cons frame frames ih =>
    rw [List.foldr_cons, ih]
    rfl

/-- Frames do not count for an error in which no expression can be named, or not any more. -/
theorem foldr_within_of_within_eq {e : Error} (h : ∀ expression : Value, e.within expression = e)
    (frames : List Value) :
  frames.foldr within e = e
  := by
  induction frames with
  | nil => rfl
  | cons frame frames ih => rw [List.foldr_cons, ih, h]

end Error

namespace Eval

/-- An error that leaves an evaluation says where it was raised, provided that native functions do not claim
to know this for argument counts.  An error about an argument count names the list that failed to apply.
An error of evaluation or of types has this list on the first line after its own message.  All other
errors come out as they were raised. -/
theorem error_names_origin {depth : Nat} {s : ScopeId} {e : Value} {σ τ : Store} {error : Error}
    (hnatives : ∀ native ∈ σ.natives, ∀ args expected got named,
      (native.call args).result ≠ .error (.arity expected got (some named)))
    (h : Ends depth s e σ (.error error) τ) :
  ∃ frames depth' u raised, Leads depth ⟨e, s, σ⟩ frames depth' u ∧ Raises depth' u raised τ ∧
    (∀ expected got named, error = .arity expected got named →
      u.FailsToApply depth' raised τ ∧ raised = .arity expected got none ∧
        named = some u.expression.text) ∧
    (error.kind = .evaluation ∨ error.kind = .type →
      u.FailsToApply depth' raised τ ∧ raised.kind = error.kind ∧
        error.message = raised.message ++ "\n  Context: while evaluating: " ++ u.expression.text ++
          Error.trailText (frames.map Value.text)) ∧
    (error.kind ≠ .arity → error.kind ≠ .evaluation → error.kind ≠ .type → error = raised)
  := by
  obtain ⟨frames, depth', u, raised, hleads, hraises, rfl⟩ :=
    ends_error_iff_originates (t := ⟨e, s, σ⟩).mp h
  use frames, depth', u, raised, hleads, hraises
  cases raised with
  | arity expected got named =>
    rw [← hleads.natives_eq] at hnatives
    obtain rfl := hraises.named_eq_none hnatives
    rw [Error.within, Error.foldr_within_of_within_eq fun _ => rfl]
    refine ⟨?_, ?_, fun hne => absurd rfl hne⟩
    · rintro _ _ _ ⟨⟩
      exact ⟨hraises.failsToApply (.inl rfl), rfl, rfl⟩
    · simp [Error.kind]
  | evaluation fault trail =>
    rw [Error.within, Error.foldr_within_evaluation]
    refine ⟨nofun, ?_, fun _ hne => absurd rfl hne⟩
    intro _
    refine ⟨hraises.failsToApply (.inr (.inl rfl)), rfl, ?_⟩
    apply Error.append_trailText_append_cons
  | type fault trail =>
    rw [Error.within, Error.foldr_within_type]
    refine ⟨nofun, ?_, fun _ _ hne => absurd rfl hne⟩
    intro _
    refine ⟨hraises.failsToApply (.inr (.inr rfl)), rfl, ?_⟩
    apply Error.append_trailText_append_cons
  | read | unbound | application | host | depthExceeded =>
    rw [Error.within, Error.foldr_within_of_within_eq fun _ => rfl]
    · exact ⟨nofun, by simp [Error.kind], fun _ _ _ => rfl⟩
    all_goals simp

/-- The error comes out of the body of a procedure, which is called in a vector. -/
theorem error_names_origin_identity :
  ∃ σ e τ, σ = (Store.empty.addScope none).2.register ⟨0⟩ Native.identity ∧
    e = .vector [.list [.list [.specialForm .lambda, .vector [], .list [.symbol "identity"]]]] ∧
    Ends 0 ⟨0⟩ e σ (.error (.arity (.exact 1) 0 (some "(identity)"))) τ ∧
    ∃ frames depth' u, Leads 0 ⟨e, ⟨0⟩, σ⟩ frames depth' u ∧
      u.FailsToApply depth' (.arity (.exact 1) 0 none) τ ∧ u.expression.text = "(identity)"
  := by
  have hnatives : ∀ native ∈ ((Store.empty.addScope none).2.register ⟨0⟩ Native.identity).natives,
      ∀ args expected got named,
        (native.call args).result ≠ .error (.arity expected got (some named)) := by
    intro native hmem args expected got named hnamed
    change native ∈ #[Native.identity] at hmem
    obtain rfl := Array.mem_singleton.mp hmem
    cases Native.result_run_of_named hnamed
  have hends : ∃ τ, Ends 0 ⟨0⟩
      (.vector [.list [.list [.specialForm .lambda, .vector [], .list [.symbol "identity"]]]])
      ((Store.empty.addScope none).2.register ⟨0⟩ Native.identity)
      (.error (.arity (.exact 1) 0 (some "(identity)"))) τ := ⟨_, 8, rfl⟩
  obtain ⟨τ, hends⟩ := hends
  obtain ⟨frames, depth', u, raised, hleads, -, harity, -⟩ := error_names_origin hnatives hends
  obtain ⟨happly, rfl, hname⟩ := harity _ _ _ rfl
  exact ⟨_, _, τ, rfl, rfl, hends, frames, depth', u, hleads, happly, (Option.some.inj hname).symm⟩

end Eval

end PocketLisp
