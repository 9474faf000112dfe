import PocketLisp.Host.Samples
import PocketLisp.Proofs.Eval.Continuation
import PocketLisp.Proofs.Eval.Errors
import PocketLisp.Proofs.Eval.Freshness
import PocketLisp.Proofs.Eval.TailCalls
import PocketLisp.Proofs.Read.Legible

/-!
# Evaluations without procedures

Where there is no procedure and none can be made, every evaluation ends.  Each call has its value at once,
and a form leads on to one of its own arguments; so a run only ever goes into the expression, and the fuel
and the depth that it takes are bounded by the nesting of collections.

What matters is all that occurs in the expression and in the values that are bound in its scope or around
it.  A run adds nothing else to these, since the primitives and the maps only give what occurs in their
arguments or in themselves.  Native functions have to be trusted in this; certain ones are allowed, and
they have to make values without procedures of such values.

A native function may fail as it likes, with a depth error too.  No other depth error comes out of an
expression that is nested less deeply than the limit.
-/

namespace PocketLisp

open Value

/-! ### Values and stores without procedures -/

namespace Value

variable {allowed : NativeId → Prop} {u v : Value}

/-- The value is no procedure, makes none when it is called, and is allowed if it is a native function. -/
def MakesNoProcedure (allowed : NativeId → Prop) : Value → Prop
  | procedure _ => False
  | specialForm form => form ≠ .lambda ∧ form ≠ .defineProcedure
  | native id => allowed id
  | _ => True

/-- In the value there occur no procedures, none of the two forms that make procedures, and no native
functions but the allowed ones. -/
def ProcedureFree (allowed : NativeId → Prop) (v : Value) : Prop :=
  Every (MakesNoProcedure allowed) v

/-- A datum cannot be called at all. -/
theorem makesNoProcedure_of_isDatum (h : v.isDatum) :
  MakesNoProcedure allowed v
  := by
  cases v with
  | map | procedure | primitive | specialForm | native => cases h
  | _ => trivial

/-- A datum with no parts is without procedures. -/
theorem procedureFree_of_isDatum (hparts : v.parts = []) (h : v.isDatum) :
  ProcedureFree allowed v
  := (every_iff_of_parts_eq_nil hparts).mpr (makesNoProcedure_of_isDatum h)

/-- A list is without procedures if its items are. -/
@[simp]
theorem procedureFree_list {items : List Value} :
  ProcedureFree allowed (list items) ↔ ∀ v ∈ items, ProcedureFree allowed v
  := every_list.trans (and_iff_right trivial)

/-- A vector is without procedures if its items are. -/
@[simp]
theorem procedureFree_vector {items : List Value} :
  ProcedureFree allowed (vector items) ↔ ∀ v ∈ items, ProcedureFree allowed v
  := every_vector.trans (and_iff_right trivial)

/-- A map is without procedures if its keys and its values are. -/
@[simp]
theorem procedureFree_map {entries : Entries} :
  ProcedureFree allowed (map entries) ↔
    ∀ entry ∈ entries, ProcedureFree allowed entry.1 ∧ ProcedureFree allowed entry.2
  := every_map.trans (and_iff_right trivial)

/-- A special form is without procedures unless it makes one. -/
@[simp]
theorem procedureFree_specialForm {form : SpecialForm} :
  ProcedureFree allowed (specialForm form) ↔ form ≠ .lambda ∧ form ≠ .defineProcedure
  := every_iff_of_parts_eq_nil rfl

/-- A native function is without procedures if it is allowed. -/
@[simp]
theorem procedureFree_native {id : NativeId} :
  ProcedureFree allowed (native id) ↔ allowed id
  := every_iff_of_parts_eq_nil rfl

/-- The parts of a value without procedures are without procedures. -/
theorem ProcedureFree.of_mem_parts (hv : ProcedureFree allowed v) (hu : u ∈ v.parts) :
  ProcedureFree allowed u
  := (every_iff.mp hv).2 u hu

/-- A value without procedures is not itself a procedure. -/
theorem ProcedureFree.ne_procedure (hv : ProcedureFree allowed v) (p : Procedure) :
  v ≠ procedure p
  := by
  rintro rfl
  apply Every.self hv

/-- Collections are nested less deeply in what a collection is put together from. -/
theorem nesting_lt_of_mem_parts (hv : ProcedureFree allowed v) (hu : u ∈ v.parts) :
  u.nesting < v.nesting
  := by
  cases v with
  | list items =>
    rw [nesting]
    apply Nat.lt_succ_of_le (itemsNesting_le_iff.mp le_rfl u hu)
  | vector items =>
    rw [nesting]
    apply Nat.lt_succ_of_le (itemsNesting_le_iff.mp le_rfl u hu)
  | map entries =>
    rw [nesting, ← Read.itemsNesting_forms]
    apply Nat.lt_succ_of_le (itemsNesting_le_iff.mp le_rfl u hu)
  | procedure p => cases hv.ne_procedure p rfl
  | _ => cases hu

end Value

/-- Of arguments without procedures the function makes a value without procedures, if it has one. -/
def Native.KeepsProcedureFree (allowed : NativeId → Prop) (native : Native) : Prop :=
  ∀ args v, (∀ arg ∈ args, arg.ProcedureFree allowed) → (native.call args).result = .ok v →
    v.ProcedureFree allowed

/-- A scope and the native functions of a store, of which the allowed ones make no procedures. -/
structure Setting where
  scope : ScopeId
  natives : Array Native
  allowed : NativeId → Prop
  keeps : ∀ id native, allowed id → natives[id.index]? = some native →
    native.KeepsProcedureFree allowed

namespace Setting

variable (c : Setting)

/-- No procedure occurs in what is bound in the scope or around it. -/
structure Holds (σ : Store) : Prop where
  natives : σ.natives = c.natives
  bindings : ∀ t ∈ σ.chain c.scope, ∀ name v, σ.getLocal? t name = some v → v.ProcedureFree c.allowed

/-- An allowed native function fails with this depth error, on arguments without procedures. -/
def NativeExceeds (limit : Nat) : Prop :=
  ∃ id native args, c.allowed id ∧ c.natives[id.index]? = some native ∧
    (∀ arg ∈ args, arg.ProcedureFree c.allowed) ∧
    (native.call args).result = .error (.depthExceeded limit)

variable {c} {σ : Store}

/-- To print binds nothing. -/
theorem Holds.write (h : c.Holds σ) (text : String) :
  c.Holds (σ.write text)
  := by
  have hchain : (σ.write text).chain c.scope = σ.chain c.scope := by
    apply Store.chain_of_parent?_eq
    intro t
    rfl
  use h.natives
  rw [hchain]
  apply h.bindings

/-- To bind a value without procedures brings no procedure in. -/
theorem Holds.define (h : c.Holds σ) (s : ScopeId) (name : String) {v : Value}
    (hv : v.ProcedureFree c.allowed) :
  c.Holds (σ.define s name v)
  := by
  use h.natives
  intro t ht name' w hw
  rw [Store.chain_define] at ht
  rw [Store.getLocal?_define] at hw
  split at hw
  · obtain ⟨_, -, rfl⟩ := Option.map_eq_some_iff.mp hw
    apply hv
  · apply h.bindings t ht name' w hw

end Setting

/-- A refusal is not a depth error. -/
theorem Error.IsRefusal.ne_depthExceeded {e : Error} (h : e.IsRefusal) (limit : Nat) :
  e ≠ .depthExceeded limit
  := by
  rintro rfl
  nomatch h

/-- No expression is ever named in a depth error. -/
theorem Error.within_eq_depthExceeded {expression : Value} {e : Error} {limit : Nat}
    (h : e.within expression = .depthExceeded limit) :
  e = .depthExceeded limit
  := by
  cases e with
  | arity expected got named => cases named <;> cases h
  | evaluation | type => cases h
  | _ => apply h

namespace Eval

/-! ### Evaluations that end -/

section

variable {α β : Type} {I : Store → Prop} {B : Nat → Prop} {Q Q' : α → Prop} {R : β → Prop}

/-- In every store that satisfies `I` the evaluation ends, and leaves such a store.  Its results satisfy
`Q`, and the limits in its depth errors satisfy `B`. -/
def Settles (I : Store → Prop) (B : Nat → Prop) (x : Eval α) (Q : α → Prop) : Prop :=
  ∀ σ, I σ → ∃ r τ, x.outcome σ = some (r, τ) ∧ I τ ∧ (∀ a, r = .ok a → Q a) ∧
    ∀ limit, r = .error (.depthExceeded limit) → B limit

namespace Settles

/-- A look at the store settles if what it gives, or the depth error it fails with, is as it should be. -/
theorem ask {f : Store → Except Error α}
    (h : ∀ σ, I σ → (∀ a, f σ = .ok a → Q a) ∧ ∀ limit, f σ = .error (.depthExceeded limit) → B limit) :
  Settles I B (Eval.ask f) Q
  := by
  intro σ hσ
  exact ⟨f σ, σ, rfl, hσ, h σ hσ⟩

/-- A result that is there already settles if it, or its depth error, is as it should be. -/
theorem ofExcept {result : Except Error α} (h : ∀ a, result = .ok a → Q a)
    (herror : ∀ limit, result = .error (.depthExceeded limit) → B limit) :
  Settles I B (Eval.ofExcept result) Q
  := by
  apply ask
  intro _ _
  exact ⟨h, herror⟩

/-- The interpreter itself refuses arguments with other errors than that of depth. -/
theorem ofExcept_of_isRefusal {result : Except Error α} (h : ∀ a, result = .ok a → Q a)
    (herror : ∀ e, result = .error e → e.IsRefusal) :
  Settles I B (Eval.ofExcept result) Q
  := by
  apply ofExcept h
  intro limit hlimit
  cases (herror _ hlimit).ne_depthExceeded limit rfl

/-- A value settles that satisfies `Q`. -/
theorem pure {a : α} (h : Q a) :
  Settles I B (Pure.pure a) Q
  := by
  change Settles I B (Eval.ofExcept (.ok a)) Q
  apply ofExcept
  · rintro _ ⟨⟩
    apply h
  · nofun

/-- An error settles if it is no depth error, or one with a limit that satisfies `B`. -/
theorem throw {e : Error} (h : ∀ limit, e = .depthExceeded limit → B limit) :
  Settles I B (MonadExcept.throw e) Q
  := by
  change Settles I B (Eval.ofExcept (.error e)) Q
  apply ofExcept
  · nofun
  · rintro limit ⟨⟩
    apply h limit rfl

/-- A refusal settles, since it is no depth error. -/
theorem throw_of_isRefusal {e : Error} (h : e.IsRefusal) :
  Settles I B (MonadExcept.throw e) Q
  := by
  apply throw
  intro limit hlimit
  cases h.ne_depthExceeded limit hlimit

/-- An evaluation settles if its first part does and the rest does on every result of the first part. -/
theorem bind {x : Eval α} {f : α → Eval β} (h : Settles I B x Q)
    (hf : ∀ a, Q a → Settles I B (f a) R) :
  Settles I B (x >>= f) R
  := by
  intro σ hσ
  obtain ⟨r, υ, hx, hυ, hQ, hB⟩ := h σ hσ
  cases r with
  | error e =>
    use .error e, υ, outcome_bind_eq_some.mpr (.inl ⟨e, hx, rfl⟩), hυ
    constructor
    · nofun
    · rintro limit ⟨⟩
      apply hB limit rfl
  | ok a =>
    obtain ⟨r, τ, ha, hτ⟩ := hf a (hQ a rfl) υ hυ
    exact ⟨r, τ, outcome_bind_eq_some.mpr (.inr ⟨a, υ, hx, ha⟩), hτ⟩

/-- A change of the store that keeps `I` may come before an evaluation that settles. -/
theorem modify {f : Store → Store} (h : ∀ σ, I σ → I (f σ)) {g : Unit → Eval β}
    (hg : Settles I B (g ()) R) :
  Settles I B (Eval.modify f >>= g) R
  := by
  apply bind (Q := fun _ => True)
  · intro σ hσ
    exact ⟨.ok (), f σ, rfl, h σ hσ, fun _ _ => trivial, nofun⟩
  · intro _ _
    apply hg

/-- To name an expression in errors leaves depth errors as they are. -/
theorem within (expression : Value) {x : Eval α} (h : Settles I B x Q) :
  Settles I B (x.within expression) Q
  := by
  intro σ hσ
  obtain ⟨r, τ, hx, hτ, hQ, hB⟩ := h σ hσ
  use r.mapError (Error.within expression), τ, outcome_within_eq_some.mpr ⟨r, hx, rfl⟩, hτ
  cases r with
  | ok a => exact ⟨hQ, nofun⟩
  | error e =>
    constructor
    · nofun
    · intro limit hlimit
      apply hB limit
      rw [Error.within_eq_depthExceeded (Except.error.inj hlimit)]

/-- What is known of the results anyway may be added. -/
theorem and_yields {x : Eval α} (h : Settles I B x Q) (hyields : Yields Q' x) :
  Settles I B x fun a => Q a ∧ Q' a
  := by
  intro σ hσ
  obtain ⟨r, τ, hx, hτ, hQ, hB⟩ := h σ hσ
  use r, τ, hx, hτ
  constructor
  · rintro a rfl
    exact ⟨hQ a rfl, hyields σ a τ hx⟩
  · apply hB

/-- The results may be asked for less. -/
theorem mono {x : Eval α} (h : Settles I B x Q) (hQ : ∀ a, Q a → Q' a) :
  Settles I B x Q'
  := by
  intro σ hσ
  obtain ⟨r, τ, hx, hτ, hr, hB⟩ := h σ hσ
  use r, τ, hx, hτ
  constructor
  · intro a ha
    apply hQ a (hr a ha)
  · apply hB

end Settles

end

end Eval

/-! ### Expressions without procedures -/

namespace Setting

open Eval

variable {c : Setting} {bound : Nat}

/-- Where there are no procedures, the evaluation ends, and a depth error is one of a native function
unless `bound` is not below the limit. -/
def Settles (c : Setting) (bound : Nat) {α : Type} (x : Eval α) (Q : α → Prop) : Prop :=
  Eval.Settles c.Holds (fun limit => depthLimit ≤ bound ∨ c.NativeExceeds limit) x Q

/-- The value is without procedures, if there is one yet. -/
def HoldsOfDone (c : Setting) (step : Step) : Prop :=
  ∀ v, step = .done v → v.ProcedureFree c.allowed

/-- A step to a value without procedures, or on to one of certain expressions in the same scope. -/
def HoldsOfStep (c : Setting) (es : List Value) : Step → Prop
  | .done v => v.ProcedureFree c.allowed
  | .tail e s _ => s = c.scope ∧ e ∈ es
  | .enter _ _ => False

namespace Settles

/-! ### Literals -/

section

variable {eval : Value → Eval Value}

/-- If each expression in a row settles, all settle one after the other, and their values are without
procedures. -/
theorem mapM {es : List Value}
    (h : ∀ e ∈ es, c.Settles bound (eval e) (ProcedureFree c.allowed)) :
  c.Settles bound (es.mapM eval) fun vs => ∀ v ∈ vs, v.ProcedureFree c.allowed
  := by
  induction es with
  | nil =>
    apply Eval.Settles.pure
    nofun
  | cons e es ih =>
    obtain ⟨he, hes⟩ := List.forall_mem_cons.mp h
    rw [List.mapM_cons]
    apply Eval.Settles.bind he
    intro v hv
    apply Eval.Settles.bind (ih hes)
    intro vs hvs
    apply Eval.Settles.pure
    exact List.forall_mem_cons.mpr ⟨hv, hvs⟩

/-- If the keys and the values of a map settle, so does the map, whose entries are then without
procedures. -/
theorem entries {evaluated : Entries} {unevaluated : List (Value × Value)}
    (hevaluated : ∀ entry ∈ evaluated,
      entry.1.ProcedureFree c.allowed ∧ entry.2.ProcedureFree c.allowed)
    (h : ∀ entry ∈ unevaluated,
      (c.Settles bound (eval entry.1) (ProcedureFree c.allowed)) ∧
        c.Settles bound (eval entry.2) (ProcedureFree c.allowed)) :
  c.Settles bound (Eval.entries eval evaluated unevaluated) fun entries => ∀ entry ∈ entries,
    entry.1.ProcedureFree c.allowed ∧ entry.2.ProcedureFree c.allowed
  := by
  induction unevaluated generalizing evaluated with
  | nil => exact Eval.Settles.pure hevaluated
  | cons entry unevaluated ih =>
    obtain ⟨⟨hkey, hvalue⟩, hunevaluated⟩ := List.forall_mem_cons.mp h
    apply Eval.Settles.bind hkey
    intro k hk
    apply Eval.Settles.bind hvalue
    intro v hv
    apply ih (Entries.forall_insert hevaluated hk hv) hunevaluated

/-! ### Forms -/

/-- A step that is done with a value without procedures settles. -/
theorem value {v : Value} (h : v.ProcedureFree c.allowed) :
  c.Settles bound (pure (.done v)) c.HoldsOfDone
  := by
  apply Eval.Settles.pure
  rintro _ ⟨⟩
  apply h

/-- A step that leads on settles, as it has no value yet. -/
theorem tail (e : Value) (s : ScopeId) (position : Nat) :
  c.Settles bound (pure (.tail e s position)) c.HoldsOfDone
  := by
  apply Eval.Settles.pure
  nofun

/-- A body settles if its expressions do. -/
theorem ofBody {s : ScopeId} {position : Nat} {body : List Value}
    (h : ∀ e ∈ body, c.Settles bound (eval e) (ProcedureFree c.allowed)) :
  c.Settles bound (Step.ofBody eval s position body) c.HoldsOfDone
  := by
  fun_induction Step.ofBody eval s position body with
  | case1 => apply value (procedureFree_of_isDatum rfl rfl)
  | case2 position last => apply tail
  | case3 position e body _ ih =>
    obtain ⟨he, hbody⟩ := List.forall_mem_cons.mp h
    apply Eval.Settles.bind he
    intro _ _
    apply ih hbody

/-- A row that is evaluated until a value decides settles if its expressions do. -/
theorem untilDecided {s : ScopeId} {decides : Value → Bool} {empty : Value}
    (hempty : empty.ProcedureFree c.allowed) {position : Nat} {es : List Value}
    (h : ∀ e ∈ es, c.Settles bound (eval e) (ProcedureFree c.allowed)) :
  c.Settles bound (Step.untilDecided eval s decides empty position es) c.HoldsOfDone
  := by
  fun_induction Step.untilDecided eval s decides empty position es with
  | case1 => apply value hempty
  | case2 position last => apply tail
  | case3 position e es _ ih =>
    obtain ⟨he, hes⟩ := List.forall_mem_cons.mp h
    apply Eval.Settles.bind he
    intro v hv
    split
    · apply value hv
    · apply ih hes

/-- Clauses settle if all their tests and consequents do. -/
theorem ofClauses {s : ScopeId} {position : Nat} {otherwise : Option (Value × Nat)}
    {clauses : List Value}
    (h : ∀ e ∈ clauses, c.Settles bound (eval e) (ProcedureFree c.allowed)) :
  c.Settles bound (Step.ofClauses eval s position otherwise clauses) c.HoldsOfDone
  := by
  fun_induction Step.ofClauses eval s position otherwise clauses with
  | case1 position otherwise e clauses ih =>
    obtain ⟨-, h⟩ := List.forall_mem_cons.mp h
    apply ih (List.forall_mem_cons.mp h).2
  | case2 position otherwise e clauses test _ ih =>
    obtain ⟨htest, h⟩ := List.forall_mem_cons.mp h
    apply Eval.Settles.bind htest
    intro v _
    split
    · apply tail
    · apply ih (List.forall_mem_cons.mp h).2
  | case3 => apply tail
  | case4 => apply value (procedureFree_of_isDatum rfl rfl)

/-- To bind a name to a value without procedures settles. -/
theorem bindName (name : String) {v : Value} (hv : v.ProcedureFree c.allowed) :
  c.Settles bound (SpecialForm.bind c.scope name v) c.HoldsOfDone
  := by
  apply Eval.Settles.modify
  · intro σ hσ
    apply hσ.define c.scope name hv
  · apply value (procedureFree_of_isDatum rfl rfl)

/-- A form that makes no procedure has a value without procedures, or leads on to one of its
arguments. -/
theorem form {form : SpecialForm} (hform : form ≠ .lambda ∧ form ≠ .defineProcedure)
    {args : List Value} (hargs : ∀ arg ∈ args, arg.ProcedureFree c.allowed)
    (h : ∀ e ∈ args, c.Settles bound (eval e) (ProcedureFree c.allowed)) :
  c.Settles bound (form.step eval c.scope args) (c.HoldsOfStep args)
  := by
  have hdone : c.Settles bound (form.step eval c.scope args) c.HoldsOfDone := by
    cases form with
    | quote =>
      simp only [SpecialForm.step]
      split
      · apply value (hargs _ List.mem_cons_self)
      · exact Eval.Settles.throw_of_isRefusal (.arity _ _)
    | sequence => apply ofBody h
    | define =>
      simp only [SpecialForm.step]
      split
      next name e =>
        apply Eval.Settles.bind (h e (List.mem_cons_of_mem _ List.mem_cons_self))
        intro v hv
        apply bindName name hv
      · exact Eval.Settles.throw_of_isRefusal (.fault (.type _))
      · exact Eval.Settles.throw_of_isRefusal (.arity _ _)
    | lambda => cases hform.1 rfl
    | defineProcedure => cases hform.2 rfl
    | conditional =>
      simp only [SpecialForm.step]
      split
      next test consequent =>
        apply Eval.Settles.bind (h test List.mem_cons_self)
        intro v _
        split
        · apply tail
        · apply value (procedureFree_of_isDatum rfl rfl)
      next test consequent alternative =>
        apply Eval.Settles.bind (h test List.mem_cons_self)
        intro v _
        split
        · apply tail
        · apply tail
      · exact Eval.Settles.throw_of_isRefusal (.arity _ _)
    | cond =>
      simp only [SpecialForm.step]
      split
      · apply ofClauses h
      · exact Eval.Settles.throw_of_isRefusal (.arity _ _)
    | and => apply untilDecided (procedureFree_of_isDatum rfl rfl) h
    | or => apply untilDecided (procedureFree_of_isDatum rfl rfl) h
  apply (Eval.Settles.and_yields hdone (Yields.form eval c.scope form args)).mono
  rintro step ⟨hvalue, hcontinues⟩
  cases step with
  | done v => apply hvalue v rfl
  | tail e s position =>
    obtain ⟨rfl, hposition⟩ := hcontinues
    exact ⟨rfl, List.mem_of_getElem? hposition⟩
  | enter p s => cases hcontinues

/-! ### Calls -/

/-- A native function is one of those that the store had from the beginning. -/
theorem applyNative {id : NativeId} (hid : c.allowed id) {args : List Value}
    (hargs : ∀ arg ∈ args, arg.ProcedureFree c.allowed) :
  c.Settles bound (applyImmediate (.native id) args) (ProcedureFree c.allowed)
  := by
  apply Eval.Settles.bind (Q := fun native => c.natives[id.index]? = some native)
  · apply Eval.Settles.ask
    intro σ hσ
    rw [Store.native?, hσ.natives]
    split
    next native hnative =>
      constructor
      · rintro _ ⟨⟩
        apply hnative
      · nofun
    next => exact ⟨nofun, nofun⟩
  · intro native hnative
    apply Eval.Settles.modify
    · intro σ hσ
      apply hσ.write
    · apply Eval.Settles.ofExcept
      · intro v hv
        apply c.keeps id native hid hnative args v hargs hv
      · intro limit hlimit
        exact .inr ⟨id, native, args, hid, hnative, hargs, hlimit⟩

/-- Nothing that is called enters a procedure. -/
theorem apply {callee : Value} (hcallee : callee.ProcedureFree c.allowed) {args : List Value}
    (hargs : ∀ arg ∈ args, arg.ProcedureFree c.allowed) (es : List Value) :
  c.Settles bound (Step.apply callee args) (c.HoldsOfStep es)
  := by
  have himmediate :
      c.Settles bound (applyImmediate callee args) (ProcedureFree c.allowed) := by
    cases callee with
    | primitive p =>
      apply Eval.Settles.ofExcept_of_isRefusal
      · intro v hv
        apply Primitive.every_call (fun _ => makesNoProcedure_of_isDatum) hargs hv
      · intro e
        apply Primitive.isRefusal_of_call
    | native id => apply applyNative (procedureFree_native.mp hcallee) hargs
    | map entries =>
      apply Eval.Settles.bind (Q := fun _ => True)
      · apply Eval.Settles.ofExcept_of_isRefusal
        · intros
          trivial
        · intro e
          apply Arity.isRefusal_of_validate
      · intro _ _
        apply Eval.Settles.ofExcept_of_isRefusal
        · intro v hv
          apply every_lookupPath hcallee hv
        · intro e
          apply isRefusal_of_lookupPath
    | _ => exact Eval.Settles.throw_of_isRefusal (.application _)
  unfold Step.apply
  split
  next p => cases hcallee.ne_procedure p rfl
  next =>
    rw [map_eq_pure_bind]
    apply Eval.Settles.bind himmediate
    intro v hv
    exact Eval.Settles.pure hv

/-- A call settles if its operator and its operands do, and leads on to none but these, in the same scope.
The operands have to be without procedures because a form may give them unevaluated. -/
theorem ofCall {operator : Value} {operands : List Value}
    (hoperands : ∀ e ∈ operands, e.ProcedureFree c.allowed)
    (h : ∀ e ∈ operator :: operands, c.Settles bound (eval e) (ProcedureFree c.allowed)) :
  c.Settles bound (Step.ofCall eval c.scope operator operands)
    (c.HoldsOfStep (operator :: operands))
  := by
  obtain ⟨hoperator, h⟩ := List.forall_mem_cons.mp h
  apply Eval.Settles.bind hoperator
  intro callee hcallee
  split
  next f =>
    apply Eval.Settles.bind (Q := fun _ => True)
    · apply Eval.Settles.ofExcept_of_isRefusal
      · intros
        trivial
      · intro e
        apply Arity.isRefusal_of_validate
    · intro _ _
      apply (form (procedureFree_specialForm.mp hcallee) hoperands h).mono
      intro step hstep
      cases step with
      | tail e s position => exact ⟨hstep.1, List.mem_cons_of_mem _ hstep.2⟩
      | _ => exact hstep
  next =>
    apply Eval.Settles.bind (mapM h)
    intro args hargs
    apply Settles.apply hcallee hargs

end

/-! ### Runs -/

/-- An expression whose parts settle has a value, or leads on to one of its parts. -/
theorem ofExpression {eval : ScopeId → Value → Eval Value} {e : Value}
    (he : e.ProcedureFree c.allowed)
    (h : ∀ u ∈ e.parts, c.Settles bound (eval c.scope u) (ProcedureFree c.allowed)) :
  c.Settles bound (Step.ofExpression eval c.scope e) (c.HoldsOfStep e.parts)
  := by
  unfold Step.ofExpression
  split
  next name =>
    rw [map_eq_pure_bind]
    apply Eval.Settles.bind (Q := ProcedureFree c.allowed)
    · apply Eval.Settles.ask
      intro σ hσ
      constructor
      · intro v hv
        obtain ⟨t, ht, hbound⟩ := Store.exists_getLocal?_of_find hv
        apply hσ.bindings t ht name v hbound
      · intro limit hlimit
        rw [Store.find] at hlimit
        split at hlimit <;> cases hlimit
    · intro v hv
      exact Eval.Settles.pure hv
  next items =>
    apply Eval.Settles.bind (mapM h)
    intro vs hvs
    apply Eval.Settles.pure
    exact procedureFree_vector.mpr hvs
  next entries =>
    have hentries : ∀ entry ∈ entries,
        (c.Settles bound (eval c.scope entry.1) (ProcedureFree c.allowed)) ∧
          c.Settles bound (eval c.scope entry.2) (ProcedureFree c.allowed) := by
      intro entry hentry
      obtain ⟨hkey, hvalue⟩ := mem_parts_map hentry
      exact ⟨h _ hkey, h _ hvalue⟩
    apply Eval.Settles.bind (Settles.entries (List.forall_mem_nil _) hentries)
    intro entries hentries
    apply Eval.Settles.pure
    exact procedureFree_map.mpr hentries
  next operator operands =>
    apply Eval.Settles.within
    apply ofCall (List.forall_mem_cons.mp (procedureFree_list.mp he)).2 h
  next =>
    apply Eval.Settles.pure
    exact he

/-- By induction on the fuel: what is evaluated inside an expression is nested less deeply, and so is
what its step leads to. -/
theorem run {fuel depth : Nat} {e : Value} (he : e.ProcedureFree c.allowed)
    (hfuel : e.nesting + 2 ≤ fuel) (hbound : depth + e.nesting ≤ bound) :
  c.Settles bound (expression fuel depth c.scope e) (ProcedureFree c.allowed)
  := by
  induction fuel generalizing depth e with
  | zero => cases hfuel
  | succ fuel ih =>
    rw [expression]
    split
    next hdepth =>
      apply Eval.Settles.throw
      intro _ _
      left
      omega
    next hdepth =>
      apply Eval.Settles.bind (Q := c.HoldsOfStep e.parts)
      · apply ofExpression he
        intro u hu
        have hlt := nesting_lt_of_mem_parts he hu
        apply ih (he.of_mem_parts hu)
        · omega
        · omega
      · intro step hstep
        cases step with
        | done v =>
          obtain ⟨fuel, rfl⟩ := Nat.exists_eq_add_of_le' (Nat.le_of_succ_le_succ hfuel)
          exact Eval.Settles.pure hstep
        | tail u s position =>
          obtain ⟨rfl, hu⟩ := hstep
          have hlt := nesting_lt_of_mem_parts he hu
          rw [follow_tail (Nat.lt_of_not_le hdepth)]
          apply ih (he.of_mem_parts hu)
          · omega
          · omega
        | enter p s => cases hstep

end Settles

end Setting

namespace Eval

variable {allowed : NativeId → Prop} {s : ScopeId} {e : Value} {σ : Store}

end Eval

end PocketLisp
