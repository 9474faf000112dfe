import PocketLisp.Host.Primitive
import PocketLisp.Proofs.Host.Signature
import Mathlib.Tactic.Use

/-!
# The table of primitives

The table says of each primitive how many arguments it takes, and the parameters of its operation say
so once more.  The two agree.  Whatever the arguments are, it makes no difference whether the table is
asked first or the operation is run at once.

What an operation finds fault with when it runs is never the number of its arguments.  So a call is
refused for this exactly if the table does not accept it, and the error is that of the table.
-/

namespace PocketLisp

/-! ### Errors of operations -/

/-- A fault of evaluation or of types, in which no expression is named. -/
inductive Error.IsFault : Error → Prop
  | evaluation (fault : EvalFault) : IsFault (.ofEval fault)
  | type (fault : TypeFault) : IsFault (.ofType fault)

/-- A function of the result has no part in an error. -/
theorem eq_error_of_map_eq_error {ε α β : Type} {result : Except ε α} {f : α → β} {e : ε}
    (h : result.map f = .error e) :
  result = .error e
  := by
  cases result with
  | error e => exact congrArg Except.error (Except.error.inj h)
  | ok a => cases h

variable {e : Error}

/-- What arithmetic finds fault with in two numbers is a fault of evaluation. -/
theorem Number.isFault_of_apply {op : ArithmeticOp} {m n : Number} (h : m.apply op n = .error e) :
  e.IsFault
  := by
  unfold Number.apply at h
  split at h
  · split at h
    · cases h
      apply Error.IsFault.evaluation
    · split at h
      · cases h
      · cases h
        apply Error.IsFault.evaluation
  · cases h

/-- So it is in a row of numbers. -/
theorem Number.isFault_of_fold {op : ArithmeticOp} {n : Number} {numbers : List Number}
    (h : n.fold op numbers = .error e) :
  e.IsFault
  := by
  induction numbers generalizing n with
  | nil => cases h
  | cons m numbers ih =>
    rw [fold] at h
    cases happly : n.apply op m with
    | error e' =>
      rw [happly] at h
      cases h
      apply isFault_of_apply happly
    | ok result =>
      rw [happly] at h
      apply ih h

namespace Primitive

variable {p : Primitive} {args : List Value}

/-- What is no collection has no elements, and this is a fault of its type. -/
theorem isFault_of_elements {v : Value} (h : p.elements v = .error e) :
  e.IsFault
  := by
  unfold elements at h
  split at h
  · cases h
  · cases h
  · cases h
  · cases h
    apply Error.IsFault.type

/-- What cannot be counted has no size, and this is a fault of its type. -/
theorem isFault_of_size {v : Value} (h : size v = .error e) :
  e.IsFault
  := by
  unfold size at h
  split at h
  all_goals cases h
  apply Error.IsFault.type

/-- Subtraction and division fail as arithmetic on numbers does. -/
theorem isFault_of_foldFrom {op : ArithmeticOp} {unit first : Number} {rest : List Number}
    (h : foldFrom op unit first rest = .error e) :
  e.IsFault
  := by
  have h := eq_error_of_map_eq_error h
  cases rest with
  | nil => apply Number.isFault_of_apply h
  | cons n rest => apply Number.isFault_of_fold h

/-- An operation that runs fails with a fault of evaluation or of types, if it fails. -/
theorem isFault_of_run {payloads : Payloads p.operation.params p.operation.rest}
    (h : HostFunction.run p.operation.params p.operation.rest p.operation.function payloads = .error e) :
  e.IsFault
  := by
  cases p with
  | add | multiply => apply Number.isFault_of_fold (eq_error_of_map_eq_error h)
  | subtract | divide => apply isFault_of_foldFrom h
  | first | rest | cons => apply isFault_of_elements (eq_error_of_map_eq_error h)
  | count => apply isFault_of_size (eq_error_of_map_eq_error h)
  | less | lessOrEqual | greater | greaterOrEqual | equal | list | not | str => cases h

/-! ### The table against the parameters -/

/-- The table and the operation accept the same numbers of arguments. -/
theorem accepts_arity_operation (p : Primitive) (count : Nat) :
  p.operation.arity.accepts count = p.arity.accepts count
  := by
  cases p <;> rfl

/-- Where a number of arguments may be wrong, the parameters give the arity as the table does.
Elsewhere they only require that there are not fewer than none. -/
theorem arity_operation_of_not_accepts {count : Nat} (h : p.arity.accepts count = false) :
  p.operation.arity = p.arity
  := by
  cases p with
  | add | multiply | list | str => cases h
  | _ => rfl

/-- An operation refuses a number of arguments that the table does not accept, with the error of
the table. -/
theorem adapt_of_not_accepts (h : p.arity.accepts args.length = false) :
  p.adapt args = .error (.ofArity p.arity args.length)
  := by
  rw [adapt, Operation.apply, arity_operation_of_not_accepts h, Arity.validate, h]
  rfl

/-- An accepted number of arguments is converted, and the operation runs on the payloads. -/
theorem adapt_of_accepts (h : p.arity.accepts args.length) :
  p.adapt args = (Payloads.ofValues p.operation.params p.operation.rest args).bind
    (HostFunction.run p.operation.params p.operation.rest p.operation.function)
  := by
  have hoperation := (p.accepts_arity_operation args.length).trans h
  rw [adapt, Operation.apply, Arity.validate, if_pos hoperation]
  cases Payloads.ofValues p.operation.params p.operation.rest args <;> rfl

/-- To call a primitive is to run its operation, if the table accepts the number of arguments. -/
theorem call_of_accepts (h : p.arity.accepts args.length) :
  p.call args = p.adapt args
  := by
  rw [call, Arity.validate, if_pos h]
  rfl

/-- Where the arguments are converted, the call is the function on their payloads. -/
theorem call_of_ofValues {payloads : Payloads p.operation.params p.operation.rest}
    (haccepts : p.arity.accepts args.length)
    (h : Payloads.ofValues p.operation.params p.operation.rest args = .ok payloads) :
  p.call args
    = HostFunction.run p.operation.params p.operation.rest p.operation.function payloads
  := by
  rw [call_of_accepts haccepts, adapt_of_accepts haccepts, h]
  rfl

/-- Accepted arguments are refused for what they are, if they are refused. -/
theorem isFault_of_adapt (haccepts : p.arity.accepts args.length) (h : p.adapt args = .error e) :
  e.IsFault
  := by
  rw [adapt_of_accepts haccepts] at h
  have hoperation := (p.accepts_arity_operation args.length).trans haccepts
  cases hvalues : Payloads.ofValues p.operation.params p.operation.rest args with
  | error e' =>
    rw [hvalues] at h
    cases h
    obtain ⟨fault, rfl⟩ := Payloads.ofValues_error (Operation.counted_of_accepts hoperation) hvalues
    apply Error.IsFault.type
  | ok payloads =>
    rw [hvalues] at h
    apply isFault_of_run h

/-- A primitive gives the same result or the same error whether or not its number of arguments is
checked against the table first.  In either case the number is wrong exactly if the table does not
accept it, and the error then has the arity of the table and the number. -/
theorem call_agrees_adapt (p : Primitive) (args : List Value) :
  p.call args = p.adapt args ∧
    ∀ expected got expression, p.adapt args = .error (.arity expected got expression) ↔
      ¬ p.arity.accepts args.length ∧ expected = p.arity ∧ got = args.length ∧ expression = none
  := by
  cases haccepts : p.arity.accepts args.length with
  | false =>
    have hadapt := adapt_of_not_accepts haccepts
    constructor
    · rw [hadapt, call, Arity.validate, haccepts]
      rfl
    · intro expected got expression
      rw [hadapt, Error.ofArity]
      simp [eq_comm]
  | true =>
    use call_of_accepts haccepts
    intro expected got expression
    constructor
    · intro h
      cases isFault_of_adapt haccepts h
    · rintro ⟨hnot, -⟩
      cases hnot rfl

end Primitive

end PocketLisp
