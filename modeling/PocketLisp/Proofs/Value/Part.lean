import PocketLisp.Eval.Step
import PocketLisp.Proofs.Host.Signature
import Mathlib.Tactic.Use

/-!
# What occurs in a value

A value occurs in another if it is that value, or occurs in an item, in a key or a value of an
entry, or in the body of a procedure.  `Value.Every P v` says that `P` holds of all that occurs in
`v`.

What the primitives result in is put together from what occurs in their arguments, and so is what
the keys of maps lead to.  Neither makes a map or a procedure that was not there.
-/

namespace PocketLisp

namespace Value

variable {P Q : Value → Prop} {u v w : Value}

/-- The values that a value is put together from. -/
def parts : Value → List Value
  | list items | vector items => items
  | map entries => entries.flatMap fun entry => [entry.1, entry.2]
  | procedure p => p.body
  | _ => []

/-- The value `w` occurs in a value, however deep. -/
inductive OccursIn (w : Value) : Value → Prop
  | self : OccursIn w w
  | part {u v : Value} (hu : u ∈ v.parts) (h : OccursIn w u) : OccursIn w v

/-- The key and the value of an entry are parts of the map. -/
theorem mem_parts_map {entries : Entries} {entry : Value × Value} (h : entry ∈ entries) :
  entry.1 ∈ (map entries).parts ∧ entry.2 ∈ (map entries).parts
  := by
  constructor
  · apply List.mem_flatMap.mpr ⟨entry, h, List.mem_cons_self⟩
  · apply List.mem_flatMap.mpr ⟨entry, h, List.mem_cons_of_mem _ List.mem_cons_self⟩

/-- What occurs in something that occurs in a value occurs in the value. -/
theorem OccursIn.trans (huv : u.OccursIn v) (hvw : v.OccursIn w) :
  u.OccursIn w
  := by
  induction hvw with
  | self => apply huv
  | part hu _ ih => apply part hu ih

/-! ### Induction along the parts -/

/-- Parts are smaller than the whole. -/
theorem sizeOf_lt_of_mem_parts (h : u ∈ v.parts) :
  sizeOf u < sizeOf v
  := by
  cases v with
  | list items =>
    have hlt : sizeOf u < sizeOf items := List.sizeOf_lt_of_mem h
    rw [list.sizeOf_spec]
    omega
  | vector items =>
    have hlt : sizeOf u < sizeOf items := List.sizeOf_lt_of_mem h
    rw [vector.sizeOf_spec]
    omega
  | map entries =>
    obtain ⟨⟨key, value⟩, hentry, hu⟩ := List.mem_flatMap.mp h
    have hlt := List.sizeOf_lt_of_mem hentry
    rw [Prod.mk.sizeOf_spec] at hlt
    rw [map.sizeOf_spec]
    simp only [List.mem_cons, List.not_mem_nil, or_false] at hu
    rcases hu with rfl | rfl <;> omega
  | procedure p =>
    obtain ⟨identity, name, params, body, scope⟩ := p
    have hlt : sizeOf u < sizeOf body := List.sizeOf_lt_of_mem h
    rw [procedure.sizeOf_spec, Closure.mk.sizeOf_spec]
    omega
  | _ => cases h

/-- What holds of a value whenever it holds of its parts holds of all values. -/
theorem partsInduction {motive : Value → Prop} (h : ∀ v, (∀ u ∈ v.parts, motive u) → motive v)
    (v : Value) :
  motive v
  := by
  induction v using (measure (sizeOf : Value → Nat)).wf.induction with
  | h v ih =>
    apply h
    intro u hu
    apply ih u (sizeOf_lt_of_mem_parts hu)

/-! ### What holds of all that occurs -/

/-- What holds of all that occurs in a value. -/
def Every (P : Value → Prop) (v : Value) : Prop :=
  ∀ w, w.OccursIn v → P w

/-- What holds of all that occurs in a value holds of the value and of all that occurs in its parts. -/
theorem every_iff :
  Every P v ↔ P v ∧ ∀ u ∈ v.parts, Every P u
  := by
  constructor
  · intro h
    use h v .self
    intro u hu w hw
    apply h w (.part hu hw)
  · rintro ⟨hv, hparts⟩ w hw
    cases hw with
    | self => apply hv
    | part hu hw => apply hparts _ hu w hw

/-- A value occurs in itself. -/
theorem Every.self (h : Every P v) :
  P v
  := h v .self

/-- What holds of all that occurs in a value holds of all that occurs in what occurs there. -/
theorem Every.of_occursIn (h : Every P v) (hw : w.OccursIn v) :
  Every P w
  := by
  intro u hu
  apply h u (hu.trans hw)

/-- What follows from something that holds of all that occurs in a value holds of all that occurs there. -/
theorem Every.mono (h : Every P v) (hPQ : ∀ w, P w → Q w) :
  Every Q v
  := by
  intro w hw
  apply hPQ w (h w hw)

/-- The parts of a list are its items. -/
@[simp]
theorem every_list {items : List Value} :
  Every P (list items) ↔ P (list items) ∧ ∀ v ∈ items, Every P v
  := every_iff

/-- The parts of a vector are its items. -/
@[simp]
theorem every_vector {items : List Value} :
  Every P (vector items) ↔ P (vector items) ∧ ∀ v ∈ items, Every P v
  := every_iff

/-- The parts of a map are its keys and its values. -/
@[simp]
theorem every_map {entries : Entries} :
  Every P (map entries) ↔
    P (map entries) ∧ ∀ entry ∈ entries, Every P entry.1 ∧ Every P entry.2
  := by
  rw [every_iff, parts]
  simp only [List.mem_flatMap, List.mem_cons, List.not_mem_nil, or_false]
  constructor
  · rintro ⟨hmap, hparts⟩
    use hmap
    intro entry hentry
    exact ⟨hparts _ ⟨entry, hentry, .inl rfl⟩, hparts _ ⟨entry, hentry, .inr rfl⟩⟩
  · rintro ⟨hmap, hentries⟩
    use hmap
    rintro u ⟨entry, hentry, rfl | rfl⟩
    · apply (hentries entry hentry).1
    · apply (hentries entry hentry).2

/-- The parts of a procedure are the expressions in its body. -/
@[simp]
theorem every_procedure {p : Procedure} :
  Every P (procedure p) ↔ P (procedure p) ∧ ∀ e ∈ p.body, Every P e
  := every_iff

/-- Nothing but itself occurs in a value with no parts. -/
theorem every_iff_of_parts_eq_nil (hparts : v.parts = []) :
  Every P v ↔ P v
  := by
  rw [every_iff, hparts]
  exact and_iff_left nofun

/-- Whether a value is neither a map nor a procedure. -/
def isPlain : Value → Bool
  | map _ | procedure _ => false
  | _ => true

/-- Whether a value is plain and cannot be called. -/
def isDatum : Value → Bool
  | map _ | procedure _ | primitive _ | specialForm _ | native _ => false
  | _ => true

/-- What is a datum is plain. -/
theorem isPlain_of_isDatum (h : v.isDatum) :
  v.isPlain
  := by
  cases v with
  | map | procedure => cases h
  | _ => rfl

end Value

/-! ### What primitives make -/

open Value

section

variable {ε α β : Type} {result : Except ε α} {b : β}

/-- What succeeds in the end has succeeded at first. -/
theorem exists_of_bind_eq_ok {f : α → Except ε β} (h : result.bind f = .ok b) :
  ∃ a, result = .ok a ∧ f a = .ok b
  := by
  cases result with
  | error e => cases h
  | ok a => exact ⟨a, rfl, h⟩

/-- What succeeds with a function of a result has succeeded with the result. -/
theorem exists_of_map_eq_ok {f : α → β} (h : result.map f = .ok b) :
  ∃ a, result = .ok a ∧ f a = b
  := by
  cases result with
  | error e => cases h
  | ok a => exact ⟨a, rfl, Except.ok.inj h⟩

end

/-- An operation that gives a result is run on the payloads of its arguments. -/
theorem Operation.exists_payloads {R : Type} {op : Operation R} {args : List Value} {result : R}
    (h : op.apply args = .ok result) :
  ∃ payloads, Payloads.Of op.params op.rest args payloads ∧
    HostFunction.run op.params op.rest op.function payloads = result
  := by
  rcases op.check_apply_cases args with ⟨-, happly⟩ | ⟨hcount, -, happly⟩
  · cases (happly op.function).symm.trans h
  · obtain ⟨payloads, hpayloads, hrun⟩ := exists_of_map_eq_ok ((happly op.function).symm.trans h)
    exact ⟨payloads, Payloads.of_ofValues hcount hpayloads, hrun⟩

/-- A primitive that has a value has run on the payloads of its arguments. -/
theorem Primitive.exists_payloads {p : Primitive} {args : List Value} {v : Value}
    (h : p.call args = .ok v) :
  ∃ payloads, Payloads.Of p.operation.params p.operation.rest args payloads ∧
    HostFunction.run p.operation.params p.operation.rest p.operation.function payloads = .ok v
  := by
  obtain ⟨_, -, hadapt⟩ := exists_of_bind_eq_ok h
  obtain ⟨result, hresult, hok⟩ := exists_of_bind_eq_ok hadapt
  obtain ⟨payloads, hof, hrun⟩ := Operation.exists_payloads hresult
  exact ⟨payloads, hof, hrun.trans hok⟩

section

variable {P : Value → Prop} {v : Value}

/-- A number that comes out of an operation is a datum. -/
theorem Number.every_of_map_toValue (hdatum : ∀ v : Value, v.isDatum → P v)
    {result : Except Error Number} (h : result.map toValue = .ok v) :
  Every P v
  := by
  obtain ⟨n, -, rfl⟩ := exists_of_map_eq_ok h
  cases n <;> exact (every_iff_of_parts_eq_nil rfl).mpr (hdatum _ rfl)

/-- The elements that a primitive takes out of a collection are parts of the collection. -/
theorem Primitive.every_elements {p : Primitive} {items : List Value} (hv : Every P v)
    (h : elements p v = .ok items) :
  ∀ item ∈ items, Every P item
  := by
  unfold elements at h
  split at h
  · cases h
    apply (every_list.mp hv).2
  · cases h
    apply (every_vector.mp hv).2
  · cases h
    nofun
  · cases h

/-- What holds of all plain values that cannot be called, and of all that occurs in the arguments of a
primitive, holds of all that occurs in its result. -/
theorem Primitive.every_call (hdatum : ∀ v : Value, v.isDatum → P v) {p : Primitive}
    {args : List Value} (hargs : ∀ arg ∈ args, Every P arg) (h : p.call args = .ok v) :
  Every P v
  := by
  obtain ⟨payloads, hof, hrun⟩ := exists_payloads h
  have hatom {v : Value} (hparts : v.parts = []) (hv : v.isDatum) : Every P v :=
    (every_iff_of_parts_eq_nil hparts).mpr (hdatum v hv)
  have hlist {items : List Value} (hitems : ∀ item ∈ items, Every P item) : Every P (.list items) :=
    every_list.mpr ⟨hdatum _ rfl, hitems⟩
  cases p with
  | add | multiply => apply Number.every_of_map_toValue hdatum hrun
  | subtract | divide => apply Number.every_of_map_toValue hdatum hrun
  | less | lessOrEqual | greater | greaterOrEqual | equal | not | str =>
    cases hrun
    apply hatom rfl rfl
  | list =>
    obtain rfl : args = payloads := hof.trans (List.map_id payloads)
    cases hrun
    apply hlist hargs
  | first =>
    obtain ⟨arg, _, rfl, rfl, -⟩ := hof
    obtain ⟨items, hitems, rfl⟩ := exists_of_map_eq_ok hrun
    have hitems := every_elements (hargs _ List.mem_cons_self) hitems
    cases items with
    | nil => apply hatom rfl rfl
    | cons item items => apply hitems item List.mem_cons_self
  | rest =>
    obtain ⟨arg, _, rfl, rfl, -⟩ := hof
    obtain ⟨items, hitems, rfl⟩ := exists_of_map_eq_ok hrun
    have hitems := every_elements (hargs _ List.mem_cons_self) hitems
    apply hlist
    intro item hitem
    apply hitems item (List.mem_of_mem_tail hitem)
  | cons =>
    obtain ⟨item, _, rfl, rfl, arg, _, rfl, rfl, -⟩ := hof
    obtain ⟨items, hitems, rfl⟩ := exists_of_map_eq_ok hrun
    obtain ⟨hitem, harg⟩ := List.forall_mem_cons.mp hargs
    have hitems := every_elements (harg _ List.mem_cons_self) hitems
    apply hlist (List.forall_mem_cons.mpr ⟨hitem, hitems⟩)
  | count =>
    obtain ⟨n, -, rfl⟩ := exists_of_map_eq_ok hrun
    apply hatom rfl rfl

end

/-! ### What native functions make -/

namespace Native

/-- A call that succeeds has the result of the function. -/
theorem result_run_of_call {native : Native} {args : List Value} {v : Value}
    (h : (native.call args).result = .ok v) :
  (native.run args).result = .ok v
  := by
  rw [call] at h
  split at h
  · cases h
  · change (native.run args).result.mapError _ = .ok v at h
    cases hrun : (native.run args).result with
    | error e =>
      rw [hrun] at h
      cases h
    | ok w =>
      rw [hrun] at h
      apply h

/-- The function that returns its only argument. -/
def identity : Native :=
  .raw "identity" ⟨[.any], none⟩ fun args => .returns (args.headD .nil)

/-- What holds of data and of all that occurs in the arguments holds of all that occurs in the value of the
function that returns its argument. -/
theorem every_call_identity {P : Value → Prop} (hdatum : ∀ v : Value, v.isDatum → P v)
    {args : List Value} (hargs : ∀ arg ∈ args, Every P arg) {v : Value}
    (h : (identity.call args).result = .ok v) :
  Every P v
  := by
  cases result_run_of_call h
  cases args with
  | nil => apply (every_iff_of_parts_eq_nil rfl).mpr (hdatum _ rfl)
  | cons arg args => apply hargs arg List.mem_cons_self

end Native

/-! ### What maps lead to -/

/-- What holds of all that occurs in a value holds of all that occurs at the end of a path in it. -/
theorem every_lookupPath {P : Value → Prop} {v w : Value} {keys : List Value} (hv : Every P v)
    (h : lookupPath v keys = .ok w) :
  Every P w
  := by
  fun_induction lookupPath v keys with
  | case1 v =>
    cases h
    apply hv
  | case2 entries key keys v hget ih =>
    apply ih _ h
    rw [Entries.get?, Option.map_eq_some_iff] at hget
    obtain ⟨entry, hfind, rfl⟩ := hget
    apply ((every_map.mp hv).2 entry (List.mem_of_find?_eq_some hfind)).2
  | case3 => cases h
  | case4 => cases h

end PocketLisp
