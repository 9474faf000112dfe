import PocketLisp.Host.Native

/-!
# Signatures and conversions

The arguments of a typed operation are checked twice: by the signature that its parameters give,
and by their conversion to payloads.  The two checks are made of different functions, and they
agree.  A wrong number of arguments is the same error for both, and what the signature refuses
the conversion refuses as well.  What the signature accepts is converted, and the function is run
on the payloads of the arguments; only an element of a list or a vector can still be refused,
since a signature does not look into them.
-/

namespace PocketLisp

/-! ### Elements -/

namespace ElementType

variable {type : ElementType} {items : List Value}

/-- The element with a given payload. -/
def value : (type : ElementType) → type.Payload → Value
  | any, v => v
  | number, n => n.toValue
  | integer, n => .integer n
  | boolean, b => .boolean b
  | string, s => .string s

/-- A payload is that of the element it was taken from. -/
theorem value_payload {v : Value} {payload : type.Payload} (h : type.payload? v = some payload) :
  type.value payload = v
  := by
  cases type <;> cases v <;> cases h <;> rfl

/-- From the element of a payload this payload is taken. -/
theorem payload?_value (payload : type.Payload) :
  type.payload? (type.value payload) = some payload
  := by
  cases type with
  | number => cases payload <;> rfl
  | _ => rfl

/-- The payloads of a row in which all is of the right type are those of its elements. -/
theorem map_value_filterMap (h : ∀ v ∈ items, type.valueType.admits v) :
  (items.filterMap type.payload?).map type.value = items
  := by
  induction items with
  | nil => rfl
  | cons v items ih =>
    obtain ⟨hv, hitems⟩ := List.forall_mem_cons.mp h
    rw [← isSome_payload?] at hv
    obtain ⟨payload, hpayload⟩ := Option.isSome_iff_exists.mp hv
    rw [List.filterMap_cons_some hpayload, List.map_cons, value_payload hpayload, ih hitems]

/-- All elements of a row are converted or none. -/
theorem payloads_eq_ok_iff {payloads : List type.Payload} :
  type.payloads items = .ok payloads ↔ payloads.map type.value = items
  := by
  constructor
  · intro h
    rw [ElementType.payloads] at h
    split at h
    · cases h
    next hfind =>
      cases h
      apply map_value_filterMap
      simpa using hfind
  · rintro rfl
    have hfind : (payloads.map type.value).find? (fun v => !type.valueType.admits v) = none := by
      simp [← isSome_payload?, payload?_value]
    have hpayload : type.payload? ∘ type.value = some := funext payload?_value
    rw [ElementType.payloads, hfind]
    simp only [List.filterMap_map, hpayload, List.filterMap_some]

/-- A row is refused for the first element of a wrong type. -/
theorem payloads_of_find {v : Value}
    (h : items.find? (fun v => !type.valueType.admits v) = some v) :
  type.payloads items = .error (v.mismatch type.valueType)
  := by
  rw [payloads, h]

/-- A row in which no element is of a wrong type is converted. -/
theorem exists_payloads (h : items.find? (fun v => !type.valueType.admits v) = none) :
  ∃ payloads, type.payloads items = .ok payloads
  := by
  rw [payloads, h]
  exact ⟨_, rfl⟩

/-- A row is refused with a type error, if it is refused. -/
theorem payloads_error {e : Error} (h : type.payloads items = .error e) :
  ∃ fault, e = .ofType fault
  := by
  rw [payloads] at h
  split at h
  · cases h
    exact ⟨_, rfl⟩
  · cases h

end ElementType

/-! ### Arguments -/

namespace ParamType

variable {type : ParamType} {arg : Value}

/-- Whether a payload is that of an argument. -/
def IsPayload : (type : ParamType) → Value → type.Payload → Prop
  | any, arg, v => arg = v
  | integer, arg, n => arg = .integer n
  | float, arg, x => arg = .float x
  | number, arg, n => arg = n.toValue
  | boolean, arg, b => arg = .boolean b
  | char, arg, c => arg = .char c
  | string, arg, s => arg = .string s
  | sequence elements, arg, payloads => arg.sequence? = some (payloads.map elements.value)

/-- Whether the argument is a list or a vector for an iterator, and `v` the first element in it that
is not of the type `elements` which the iterator asks for. -/
def Misfit (type : ParamType) (arg : Value) (elements : ElementType) (v : Value) : Prop :=
  type = .sequence elements ∧
    ∃ items, arg.sequence? = some items ∧
      items.find? (fun v => !elements.valueType.admits v) = some v

/-- An argument is converted to its payload. -/
theorem isPayload_of_payload {payload : type.Payload} (h : type.payload arg = .ok payload) :
  type.IsPayload arg payload
  := by
  cases type with
  | sequence elements =>
    cases arg with
    | list items => exact congrArg some (ElementType.payloads_eq_ok_iff.mp h).symm
    | vector items => exact congrArg some (ElementType.payloads_eq_ok_iff.mp h).symm
    | _ => cases h
  | _ => cases arg <;> cases h <;> rfl

/-- An argument is refused with a type error, if it is refused. -/
theorem payload_error {e : Error} (h : type.payload arg = .error e) :
  ∃ fault, e = .ofType fault
  := by
  cases type with
  | sequence elements =>
    cases arg with
    | list items => apply ElementType.payloads_error h
    | vector items => apply ElementType.payloads_error h
    | _ =>
      cases h
      exact ⟨_, rfl⟩
  | _ => cases arg <;> cases h <;> exact ⟨_, rfl⟩

/-- What the signature refuses the conversion refuses. -/
theorem payload_of_not_admits (h : type.valueType.admits arg = false) :
  type.payload arg = .error (arg.mismatch type.valueType)
  := by
  cases type <;> cases arg <;> first | rfl | cases h

/-- An argument is refused for the first element in it that does not fit. -/
theorem payload_of_misfit {elements : ElementType} {v : Value} (h : type.Misfit arg elements v) :
  type.payload arg = .error (v.mismatch elements.valueType)
  := by
  obtain ⟨rfl, items, hitems, hfind⟩ := h
  cases arg <;> cases hitems <;> apply ElementType.payloads_of_find hfind

/-- What the signature accepts is converted, unless there is something in it that does not fit. -/
theorem exists_payload (h : type.valueType.admits arg)
    (hfit : ∀ elements v, ¬ type.Misfit arg elements v) :
  ∃ payload, type.payload arg = .ok payload
  := by
  cases type with
  | sequence elements =>
    have hfind {items : List Value} (hitems : arg.sequence? = some items) :
        items.find? (fun v => !elements.valueType.admits v) = none := by
      apply Option.eq_none_iff_forall_ne_some.mpr
      intro v hv
      apply hfit elements v ⟨rfl, items, hitems, hv⟩
    cases arg with
    | list items => apply ElementType.exists_payloads (hfind rfl)
    | vector items => apply ElementType.exists_payloads (hfind rfl)
    | _ => cases h
  | _ => cases arg <;> first | exact ⟨_, rfl⟩ | cases h

end ParamType

/-! ### All arguments -/

namespace Payloads

variable {params : List ParamType} {rest : Option ElementType} {args : List Value}

/-- Whether payloads are those of all the arguments. -/
def Of : (params : List ParamType) → (rest : Option ElementType) → List Value →
    Payloads params rest → Prop
  | [], none, args, _ => args = []
  | [], some elements, args, payloads => args = payloads.map elements.value
  | param :: params, rest, args, payloads =>
    ∃ arg later, args = arg :: later ∧ param.IsPayload arg payloads.1 ∧
      Of params rest later payloads.2

/-- Whether `v` is the first element that does not fit in the argument at a place. -/
def MisfitAt (params : List ParamType) (args : List Value) (i : Nat) (elements : ElementType)
    (v : Value) : Prop :=
  ∃ param arg, params[i]? = some param ∧ args[i]? = some arg ∧ param.Misfit arg elements v

/-- At the first place stands the first argument. -/
theorem misfitAt_zero {param : ParamType} {arg : Value} {elements : ElementType} {v : Value} :
  MisfitAt (param :: params) (arg :: args) 0 elements v ↔ param.Misfit arg elements v
  := by
  simp [MisfitAt]

/-- At the later places stand the later arguments. -/
theorem misfitAt_succ {param : ParamType} {arg : Value} {i : Nat} {elements : ElementType}
    {v : Value} :
  MisfitAt (param :: params) (arg :: args) (i + 1) elements v ↔ MisfitAt params args i elements v
  := by
  simp [MisfitAt]

/-- Whether the number of arguments is right. -/
def Counted (params : List ParamType) (rest : Option ElementType) (args : List Value) : Prop :=
  params.length ≤ args.length ∧ (rest = none → args.length = params.length)

/-- Where there is a parameter there is an argument for it, and the number of the others is right for the
other parameters. -/
theorem Counted.exists_cons {param : ParamType} (h : Counted (param :: params) rest args) :
  ∃ arg later, args = arg :: later ∧ Counted params rest later
  := by
  obtain ⟨hle, hnone⟩ := h
  cases args with
  | nil => cases hle
  | cons arg later =>
    refine ⟨arg, later, rfl, Nat.le_of_succ_le_succ hle, ?_⟩
    intro hrest
    apply Nat.succ.inj (hnone hrest)

/-- A row of arguments is converted from the first on. -/
theorem ofValues_cons_cases (param : ParamType) (params : List ParamType)
    (rest : Option ElementType) (arg : Value) (later : List Value) :
  (∃ e, param.payload arg = .error e ∧
      ofValues (param :: params) rest (arg :: later) = .error e) ∨
    (∃ payload e, param.payload arg = .ok payload ∧ ofValues params rest later = .error e ∧
      ofValues (param :: params) rest (arg :: later) = .error e) ∨
    ∃ payload payloads, param.payload arg = .ok payload ∧
      ofValues params rest later = .ok payloads ∧
      ofValues (param :: params) rest (arg :: later) = .ok (payload, payloads)
  := by
  rw [ofValues]
  cases param.payload arg with
  | error e => exact .inl ⟨e, rfl, rfl⟩
  | ok payload =>
    cases ofValues params rest later with
    | error e => exact .inr (.inl ⟨payload, e, rfl, rfl, rfl⟩)
    | ok payloads => exact .inr (.inr ⟨payload, payloads, rfl, rfl, rfl⟩)

/-- Arguments are converted to their payloads. -/
theorem of_ofValues {payloads : Payloads params rest} (hcount : Counted params rest args)
    (h : ofValues params rest args = .ok payloads) :
  Of params rest args payloads
  := by
  induction params generalizing args with
  | nil =>
    cases rest with
    | none => apply List.eq_nil_of_length_eq_zero (hcount.2 rfl)
    | some elements => exact (ElementType.payloads_eq_ok_iff.mp h).symm
  | cons param params ih =>
    obtain ⟨arg, later, rfl, hlater⟩ := hcount.exists_cons
    rcases ofValues_cons_cases param params rest arg later with
      ⟨e, -, he⟩ | ⟨_, e, -, -, he⟩ | ⟨payload, payloads, harg, hpayloads, hok⟩
    · rw [he] at h
      cases h
    · rw [he] at h
      cases h
    · rw [hok] at h
      cases h
      exact ⟨arg, later, rfl, ParamType.isPayload_of_payload harg, ih hlater hpayloads⟩

/-- Arguments whose number is right are refused with a type error, if they are refused. -/
theorem ofValues_error {e : Error} (hcount : Counted params rest args)
    (h : ofValues params rest args = .error e) :
  ∃ fault, e = .ofType fault
  := by
  induction params generalizing args with
  | nil =>
    cases rest with
    | none => cases h
    | some elements => apply ElementType.payloads_error h
  | cons param params ih =>
    obtain ⟨arg, later, rfl, hlater⟩ := hcount.exists_cons
    rcases ofValues_cons_cases param params rest arg later with
      ⟨_, harg, he⟩ | ⟨_, _, -, hpayloads, he⟩ | ⟨payload, payloads, -, -, hok⟩
    · rw [he] at h
      cases h
      apply ParamType.payload_error harg
    · rw [he] at h
      cases h
      apply ih hlater hpayloads
    · rw [hok] at h
      cases h

end Payloads

/-! ### The signature against the conversion -/

namespace Signature

/-- Behind the parameters a signature asks of all arguments the same. -/
theorem checkFrom_rest (type : ValueType) (position : Nat) (args : List Value) :
  (args.find? (fun arg => !type.admits arg) = none ∧
      checkFrom (some type) position [] args = .ok ()) ∨
    ∃ arg fault, args.find? (fun arg => !type.admits arg) = some arg ∧
      checkFrom (some type) position [] args = .error (.ofType fault)
  := by
  induction args generalizing position with
  | nil => exact .inl ⟨rfl, rfl⟩
  | cons arg args ih =>
    rw [checkFrom, List.find?_cons]
    cases type.admits arg with
    | false => exact .inr ⟨arg, _, rfl, rfl⟩
    | true => apply ih

end Signature

namespace Payloads

variable {params : List ParamType} {rest : Option ElementType} {args : List Value}

/-- What the signature of parameters finds when it comes to some arguments. -/
abbrev checkFrom (params : List ParamType) (rest : Option ElementType) (position : Nat)
    (args : List Value) : Except Error Unit :=
  Signature.checkFrom (rest.map ElementType.valueType) position (params.map ParamType.valueType)
    args

variable {position : Nat}

/-- What the signature refuses is refused by the conversion too. -/
theorem ofValues_of_refused {e : Error} (h : checkFrom params rest position args = .error e) :
  (∃ fault, e = .ofType fault) ∧ ∃ fault, ofValues params rest args = .error (.ofType fault)
  := by
  induction params generalizing position args with
  | nil =>
    cases rest with
    | none => cases args <;> cases h
    | some elements =>
      rcases Signature.checkFrom_rest elements.valueType position args with
        ⟨-, hok⟩ | ⟨v, fault, hfind, herror⟩
      · cases hok.symm.trans h
      · cases herror.symm.trans h
        exact ⟨⟨fault, rfl⟩, _, ElementType.payloads_of_find hfind⟩
  | cons param params ih =>
    cases args with
    | nil => cases h
    | cons arg later =>
      have hcases := ofValues_cons_cases param params rest arg later
      rw [checkFrom, List.map_cons, Signature.checkFrom] at h
      cases hadmits : param.valueType.admits arg with
      | false =>
        rw [hadmits] at h
        cases h
        rw [ParamType.payload_of_not_admits hadmits] at hcases
        rcases hcases with ⟨_, ⟨⟩, he⟩ | ⟨_, _, ⟨⟩, -⟩ | ⟨_, _, ⟨⟩, -⟩
        exact ⟨⟨_, rfl⟩, _, he⟩
      | true =>
        rw [hadmits] at h
        obtain ⟨hfault, fault, hlater⟩ := ih h
        refine ⟨hfault, ?_⟩
        rw [hlater] at hcases
        rcases hcases with ⟨e, harg, he⟩ | ⟨_, _, -, ⟨⟩, he⟩ | ⟨_, _, -, ⟨⟩, -⟩
        · obtain ⟨fault, rfl⟩ := ParamType.payload_error harg
          exact ⟨fault, he⟩
        · exact ⟨fault, he⟩

/-- A signature that accepts a row of arguments accepts the first and the later ones. -/
theorem accepted_cons {param : ParamType} {arg : Value}
    (h : checkFrom (param :: params) rest position (arg :: args) = .ok ()) :
  param.valueType.admits arg ∧ checkFrom params rest (position + 1) args = .ok ()
  := by
  rw [checkFrom, List.map_cons, Signature.checkFrom] at h
  split at h
  next hadmits => exact ⟨hadmits, h⟩
  next => cases h

/-- Of what the signature accepts, the first element that does not fit is refused. -/
theorem ofValues_of_misfit (hcount : Counted params rest args)
    (h : checkFrom params rest position args = .ok ()) {i : Nat} {elements : ElementType}
    {v : Value} (hat : MisfitAt params args i elements v)
    (hfirst : ∀ j < i, ∀ elements v, ¬ MisfitAt params args j elements v) :
  ofValues params rest args = .error (v.mismatch elements.valueType)
  := by
  induction params generalizing position args i with
  | nil =>
    obtain ⟨_, _, hparam, -⟩ := hat
    cases hparam
  | cons param params ih =>
    obtain ⟨arg, later, rfl, hlater⟩ := hcount.exists_cons
    obtain ⟨hadmits, h⟩ := accepted_cons h
    have hcases := ofValues_cons_cases param params rest arg later
    cases i with
    | zero =>
      rw [ParamType.payload_of_misfit (misfitAt_zero.mp hat)] at hcases
      rcases hcases with ⟨_, ⟨⟩, he⟩ | ⟨_, _, ⟨⟩, -⟩ | ⟨_, _, ⟨⟩, -⟩
      apply he
    | succ i =>
      obtain ⟨payload, hpayload⟩ := ParamType.exists_payload hadmits fun elements v hmisfit =>
        hfirst 0 i.succ_pos elements v (misfitAt_zero.mpr hmisfit)
      have hmisfit := ih hlater h (misfitAt_succ.mp hat) fun j hj elements v hmisfit =>
        hfirst (j + 1) (Nat.succ_lt_succ hj) elements v (misfitAt_succ.mpr hmisfit)
      rw [hpayload, hmisfit] at hcases
      rcases hcases with ⟨_, ⟨⟩, -⟩ | ⟨_, _, -, ⟨⟩, he⟩ | ⟨_, _, -, ⟨⟩, -⟩
      apply he

/-- What the signature accepts is converted if everything in it fits. -/
theorem exists_ofValues (hcount : Counted params rest args)
    (h : checkFrom params rest position args = .ok ())
    (hfit : ∀ i elements v, ¬ MisfitAt params args i elements v) :
  ∃ payloads, ofValues params rest args = .ok payloads
  := by
  induction params generalizing position args with
  | nil =>
    cases rest with
    | none => exact ⟨(), rfl⟩
    | some elements =>
      rcases Signature.checkFrom_rest elements.valueType position args with
        ⟨hfind, -⟩ | ⟨v, fault, -, herror⟩
      · apply ElementType.exists_payloads hfind
      · cases herror.symm.trans h
  | cons param params ih =>
    obtain ⟨arg, later, rfl, hlater⟩ := hcount.exists_cons
    obtain ⟨hadmits, h⟩ := accepted_cons h
    obtain ⟨payload, hpayload⟩ := ParamType.exists_payload hadmits fun elements v hmisfit =>
      hfit 0 elements v (misfitAt_zero.mpr hmisfit)
    obtain ⟨payloads, hpayloads⟩ := ih hlater h fun i elements v hmisfit =>
      hfit (i + 1) elements v (misfitAt_succ.mpr hmisfit)
    have hcases := ofValues_cons_cases param params rest arg later
    rw [hpayload, hpayloads] at hcases
    rcases hcases with ⟨_, ⟨⟩, -⟩ | ⟨_, _, -, ⟨⟩, -⟩ | ⟨_, _, -, -, hok⟩
    exact ⟨_, hok⟩

/-- Whether a function comes upon `v` as an element of an iterator: in a list or a vector that is an
argument of its own, or among the arguments of the rest. -/
def Iterates (params : List ParamType) (rest : Option ElementType) (args : List Value)
    (elements : ElementType) (v : Value) : Prop :=
  (∃ i : Nat, params[i]? = some (.sequence elements) ∧
      ∃ arg ∈ args[i]?, ∃ items ∈ Value.sequence? arg, v ∈ items) ∨
    rest = some elements ∧ v ∈ args.drop params.length

/-- What has payloads has them in its iterators too. -/
theorem Of.isSome_payload? {payloads : Payloads params rest} (h : Of params rest args payloads)
    {elements : ElementType} {v : Value} (hiterates : Iterates params rest args elements v) :
  (elements.payload? v).isSome
  := by
  have hrow {payloads : List elements.Payload} (hmem : v ∈ payloads.map elements.value) :
      (elements.payload? v).isSome := by
    obtain ⟨payload, -, rfl⟩ := List.mem_map.mp hmem
    rw [ElementType.payload?_value]
    rfl
  induction params generalizing args with
  | nil =>
    rcases hiterates with ⟨i, ⟨⟩, -⟩ | ⟨rfl, hmem⟩
    apply hrow (h ▸ hmem)
  | cons param params ih =>
    obtain ⟨first, later, rfl, hfirst, hlater⟩ := h
    rcases hiterates with ⟨_ | i, hparam, arg, harg, items, hitems, hmem⟩ | ⟨hrest, hmem⟩
    · cases hparam
      cases harg
      rw [ParamType.IsPayload, Option.mem_def.mp hitems] at hfirst
      apply hrow (Option.some.inj hfirst ▸ hmem)
    · apply ih hlater (.inl ⟨i, hparam, arg, harg, items, hitems, hmem⟩)
    · apply ih hlater (.inr ⟨hrest, hmem⟩)

end Payloads

/-! ### Operations -/

namespace Operation

variable {R : Type}

/-- An operation and its signature have the same arity. -/
theorem arity_signature (op : Operation R) :
  op.signature.arity = op.arity
  := by
  rw [Signature.arity, arity, signature, Option.isSome_map, List.length_map]

/-- A number of arguments that the operation accepts is right for its parameters. -/
theorem counted_of_accepts {op : Operation R} {args : List Value}
    (h : op.arity.accepts args.length) :
  Payloads.Counted op.params op.rest args
  := by
  rw [arity] at h
  cases hrest : op.rest with
  | none =>
    rw [hrest] at h
    have hlength := Arity.accepts_exact_iff.mp h
    exact ⟨Nat.le_of_eq hlength.symm, fun _ => hlength⟩
  | some elements =>
    rw [hrest] at h
    exact ⟨Arity.accepts_atLeast_iff.mp h, nofun⟩

/-- An argument count that is not accepted is the same error for the signature and for the adapter;
otherwise both go on to the arguments. -/
theorem check_apply_cases (op : Operation R) (args : List Value) :
  (op.signature.check args = .error (.ofArity op.arity args.length) ∧
      ∀ function, apply ⟨op.params, op.rest, function⟩ args
        = (.error (.ofArity op.arity args.length) : Except Error R)) ∨
    Payloads.Counted op.params op.rest args ∧
      op.signature.check args = Payloads.checkFrom op.params op.rest 1 args ∧
      ∀ function, apply ⟨op.params, op.rest, function⟩ args
        = ((Payloads.ofValues op.params op.rest args).map
            (HostFunction.run op.params op.rest function) : Except Error R)
  := by
  have harity (function : HostFunction op.params op.rest R) :
      arity ⟨op.params, op.rest, function⟩ = op.arity :=
    rfl
  rw [Signature.check, arity_signature, Arity.validate]
  cases haccepts : op.arity.accepts args.length with
  | false =>
    refine .inl ⟨rfl, ?_⟩
    intro function
    rw [apply, harity, Arity.validate, haccepts]
    rfl
  | true =>
    refine .inr ⟨counted_of_accepts haccepts, rfl, ?_⟩
    intro function
    rw [apply, harity, Arity.validate, haccepts]
    rfl

/-- The two checks of arguments agree.  An argument count is wrong for the signature exactly if it
is for the adapter, with the same error.  If the signature refuses the type of an argument, so does
the adapter, whatever the function is.  If it accepts the arguments, the function is run on their
payloads; unless there is an element in a list or a vector that its iterator does not admit, and
then the first of these elements is the error.  Whenever the function is run, all that it comes
upon in iterators has a payload.

An error that the function itself states is a part of its result, so all errors here are those of
the adapter. -/
theorem signature_agrees (op : Operation R) (args : List Value) :
  (∀ expected got expression,
      op.signature.check args = .error (.arity expected got expression) ↔
        op.apply args = .error (.arity expected got expression)) ∧
    (∀ fault trail, op.signature.check args = .error (.type fault trail) →
      ∃ fault' trail', ∀ function,
        apply ⟨op.params, op.rest, function⟩ args
          = (.error (.type fault' trail') : Except Error R)) ∧
    (op.signature.check args = .ok () →
      ((∀ i elements v, ¬ Payloads.MisfitAt op.params args i elements v) →
        ∃ payloads, Payloads.Of op.params op.rest args payloads ∧
          ∀ function, apply ⟨op.params, op.rest, function⟩ args
            = (.ok (HostFunction.run op.params op.rest function payloads) : Except Error R)) ∧
      ∀ i elements v, Payloads.MisfitAt op.params args i elements v →
        (∀ j < i, ∀ elements v, ¬ Payloads.MisfitAt op.params args j elements v) →
        ∀ function, apply ⟨op.params, op.rest, function⟩ args
          = (.error (v.mismatch elements.valueType) : Except Error R)) ∧
    ∀ result, op.apply args = .ok result →
      ∀ elements v, Payloads.Iterates op.params op.rest args elements v →
        (elements.payload? v).isSome
  := by
  rcases check_apply_cases op args with ⟨hcheck, happly⟩ | ⟨hcount, hcheck, happly⟩
  · rw [hcheck]
    refine ⟨?_, nofun, nofun, ?_⟩
    · intro expected got expression
      rw [happly op.function]
      constructor <;> rintro ⟨⟩ <;> rfl
    · intro result hresult
      cases (happly op.function).symm.trans hresult
  rw [hcheck]
  cases hvalues : Payloads.ofValues op.params op.rest args with
  | error e =>
    simp only [hvalues, Except.map] at happly
    obtain ⟨fault, rfl⟩ := Payloads.ofValues_error hcount hvalues
    refine ⟨?_, ?_, ?_, ?_⟩
    · intro expected got expression
      rw [happly op.function]
      constructor
      · intro h
        obtain ⟨⟨_, ⟨⟩⟩, -⟩ := Payloads.ofValues_of_refused h
      · rintro ⟨⟩
    · intro _ _ _
      exact ⟨fault, [], happly⟩
    · intro hok
      constructor
      · intro hfit
        obtain ⟨payloads, hpayloads⟩ := Payloads.exists_ofValues hcount hok hfit
        cases hvalues.symm.trans hpayloads
      · intro i elements v hat hfirst
        rw [← Except.error.inj (hvalues.symm.trans (Payloads.ofValues_of_misfit hcount hok hat hfirst))]
        apply happly
    · intro result hresult
      cases (happly op.function).symm.trans hresult
  | ok payloads =>
    simp only [hvalues, Except.map] at happly
    have hof := Payloads.of_ofValues hcount hvalues
    refine ⟨?_, ?_, ?_, ?_⟩
    · intro expected got expression
      rw [happly op.function]
      constructor
      · intro h
        obtain ⟨-, _, hrefused⟩ := Payloads.ofValues_of_refused h
        cases hvalues.symm.trans hrefused
      · rintro ⟨⟩
    · intro _ _ h
      obtain ⟨-, _, hrefused⟩ := Payloads.ofValues_of_refused h
      cases hvalues.symm.trans hrefused
    · intro hok
      constructor
      · intro _
        exact ⟨payloads, hof, happly⟩
      · intro i elements v hat hfirst
        cases hvalues.symm.trans (Payloads.ofValues_of_misfit hcount hok hat hfirst)
    · intro _ _ elements v
      apply hof.isSome_payload?

/-- A string in a vector of integers is accepted by the signature and refused by the conversion. -/
theorem signature_agrees_vector :
  ∃ op : Operation Nat, ∃ args v,
    op.params = [.string, .sequence .integer] ∧ op.rest = some .boolean ∧
    args = [.string "a", .vector [.integer 1, v], .boolean true] ∧
    op.signature.check args = .ok () ∧ op.apply args = .error (v.mismatch .integer)
  := by
  have hmisfit : Payloads.MisfitAt [.string, .sequence .integer]
      [.string "a", .vector [.integer 1, .string "b"], .boolean true] 1 .integer (.string "b") :=
    ⟨_, _, rfl, rfl, rfl, _, rfl, rfl⟩
  refine ⟨⟨[.string, .sequence .integer], some .boolean, fun _ ns _ => ns.length⟩, _,
    .string "b", rfl, rfl, rfl, rfl, ?_⟩
  refine ((signature_agrees ⟨_, some .boolean, fun _ ns _ => ns.length⟩ _).2.2.1 rfl).2 1 _ _
    hmisfit ?_ _
  intro j hj elements v
  obtain rfl := Nat.lt_one_iff.mp hj
  rw [Payloads.misfitAt_zero]
  rintro ⟨⟨⟩, -⟩

end Operation

end PocketLisp
