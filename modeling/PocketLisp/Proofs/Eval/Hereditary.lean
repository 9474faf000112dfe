import PocketLisp.Proofs.Eval.Congruence
import PocketLisp.Proofs.Host.Primitive

/-!
# Hereditary conditions

Forms and literals are put together from evaluations of the expressions inside them.  A condition on
evaluations is hereditary if it passes from the parts to the whole.  Then whatever is put together from
evaluators that satisfy it satisfies it as well, apart from what a form does on its own: it may make a
procedure, bind a name, or refuse its arguments.

A form refuses a number of arguments exactly if the table does not accept it, and all that it refuses
otherwise are names and parameters.
-/

namespace PocketLisp

namespace SpecialForm

variable {form : SpecialForm} {args : List Value}

/-- A number of arguments that the table does not accept is refused, whatever the evaluator would do. -/
theorem step_of_not_accepts (h : ¬ form.arity.accepts args.length) (eval : Value → Eval Value)
    (s : ScopeId) :
  form.step eval s args = throw (form.arityError args.length)
  := by
  cases form with
  | quote =>
    simp only [step]
    split
    · cases h rfl
    · rfl
  | define =>
    simp only [step]
    split
    · cases h rfl
    · cases h rfl
    · rfl
  | lambda =>
    simp only [step]
    split
    · cases h (Arity.accepts_atLeast_iff.mpr (Nat.le_add_left 1 _))
    · rfl
  | defineProcedure =>
    simp only [step]
    split
    · cases h (Arity.accepts_atLeast_iff.mpr (Nat.le_add_left 2 _))
    · cases h (Arity.accepts_atLeast_iff.mpr (Nat.le_add_left 2 _))
    · rfl
  | conditional =>
    simp only [step]
    split
    · cases h rfl
    · cases h rfl
    · rfl
  | cond => exact if_neg (mt Arity.accepts_even_iff.mpr h)
  | sequence | and | or => cases h rfl

end SpecialForm

/-- A condition on evaluations, and one on evaluations up to a tail position in the scope `s`.  They hold
of evaluations that do nothing but give a result, and pass to sequences. -/
structure Hereditary (s : ScopeId) where
  Holds : {α : Type} → Eval α → Prop
  HoldsStep : Eval Step → Prop
  pure {α : Type} (a : α) : Holds (Pure.pure a)
  bind {α β : Type} {x : Eval α} {f : α → Eval β} (h : Holds x) (hf : ∀ a, Holds (f a)) :
    Holds (x >>= f)
  done (v : Value) : HoldsStep (Pure.pure (.done v))
  tail (e : Value) (position : Nat) : HoldsStep (Pure.pure (.tail e s position))
  andThen {α : Type} {x : Eval α} {f : α → Eval Step} (h : Holds x) (hf : ∀ a, HoldsStep (f a)) :
    HoldsStep (x >>= f)

namespace Hereditary

variable {s : ScopeId} (c : Hereditary s) {eval : Value → Eval Value} (h : ∀ e, c.Holds (eval e))

include h

/-- The condition passes to expressions that are evaluated one after the other. -/
theorem mapM (es : List Value) :
  c.Holds (es.mapM eval)
  := by
  induction es with
  | nil => apply c.pure
  | cons e es ih =>
    rw [List.mapM_cons]
    apply c.bind (h e)
    intro v
    apply c.bind ih
    intro vs
    apply c.pure

/-- It passes to the entries of a map, keys before their values. -/
theorem entries (evaluated : Entries) (unevaluated : List (Value × Value)) :
  c.Holds (Eval.entries eval evaluated unevaluated)
  := by
  induction unevaluated generalizing evaluated with
  | nil => apply c.pure
  | cons entry unevaluated ih =>
    obtain ⟨key, value⟩ := entry
    apply c.bind (h key)
    intro k
    apply c.bind (h value)
    intro v
    apply ih

/-- It passes to a body, the end of which is left to do. -/
theorem ofBody (position : Nat) (body : List Value) :
  c.HoldsStep (Step.ofBody eval s position body)
  := by
  fun_induction Step.ofBody eval s position body with
  | case1 => apply c.done
  | case2 => apply c.tail
  | case3 position e body _ ih =>
    apply c.andThen (h e)
    intro _
    apply ih

/-- It passes to a row in which a value may decide before the end is reached. -/
theorem untilDecided (decides : Value → Bool) (empty : Value) (position : Nat) (es : List Value) :
  c.HoldsStep (Step.untilDecided eval s decides empty position es)
  := by
  fun_induction Step.untilDecided eval s decides empty position es with
  | case1 => apply c.done
  | case2 => apply c.tail
  | case3 position e es _ ih =>
    apply c.andThen (h e)
    intro v
    split
    · apply c.done
    · apply ih

/-- It passes to clauses, whichever expression is left to do. -/
theorem ofClauses (position : Nat) (otherwise : Option (Value × Nat)) (clauses : List Value) :
  c.HoldsStep (Step.ofClauses eval s position otherwise clauses)
  := by
  fun_induction Step.ofClauses eval s position otherwise clauses with
  | case1 position otherwise e clauses ih => apply ih
  | case2 position otherwise e clauses test _ ih =>
    apply c.andThen (h test)
    intro v
    split
    · apply c.tail
    · apply ih
  | case3 => apply c.tail
  | case4 => apply c.done

/-- It passes to a form, once what the form may do on its own is seen to: the procedure that it makes, the
name that it binds, and the errors with which it refuses its arguments. -/
theorem form {form : SpecialForm}
    (hmake : ∀ name params body, c.Holds (form.makeProcedure s name params body))
    (hbind : ∀ name v, c.HoldsStep (SpecialForm.bind s name v))
    (hfault : ∀ e : Error, e.IsFault → c.HoldsStep (throw e)) {args : List Value}
    (harity : ¬ form.arity.accepts args.length →
      c.HoldsStep (throw (form.arityError args.length))) :
  c.HoldsStep (form.step eval s args)
  := by
  by_cases haccepts : form.arity.accepts args.length
  · cases form with
    | quote =>
      match args, haccepts with
      | [v], _ => apply c.done
    | sequence => apply c.ofBody h
    | define =>
      match args, haccepts with
      | [target, e], _ =>
        cases target with
        | symbol name =>
          apply c.andThen (h e)
          apply hbind
        | _ => apply hfault _ (.type _)
    | lambda =>
      match args, haccepts with
      | params :: body, _ =>
        apply c.andThen (hmake _ params body)
        apply c.done
    | defineProcedure =>
      match args, haccepts with
      | target :: params :: body, _ =>
        cases target with
        | symbol name =>
          apply c.andThen (hmake _ params body)
          apply hbind
        | _ => apply hfault _ (.type _)
    | conditional =>
      match args, haccepts with
      | [test, consequent], _ =>
        apply c.andThen (h test)
        intro v
        split
        · apply c.tail
        · apply c.done
      | [test, consequent, alternative], _ =>
        apply c.andThen (h test)
        intro v
        split
        · apply c.tail
        · apply c.tail
    | cond =>
      rw [SpecialForm.step, if_pos (Arity.accepts_even_iff.mp haccepts)]
      apply c.ofClauses h
    | and => apply c.untilDecided h
    | or => apply c.untilDecided h
  · rw [SpecialForm.step_of_not_accepts haccepts]
    apply harity haccepts

end Hereditary

end PocketLisp
