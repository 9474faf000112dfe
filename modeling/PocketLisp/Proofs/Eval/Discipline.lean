import PocketLisp.Proofs.Eval.Refinement
import PocketLisp.Proofs.Value.Built
import PocketLisp.Proofs.Value.Part
import Mathlib.Data.Nat.Basic
import Mathlib.Order.Basic

/-!
# Disciplines of evaluation

Values play two parts in a run.  Some are code: the expression, all that stands in it, and the
bodies of the procedures that are called.  All others are data, which is bound, passed on and put
into collections, but never evaluated; the body of a procedure lies in it until a call makes code
of it.

A `Discipline` has one condition for each part, and one for the store.  It also has a change of
stores that no operation sees as long as the conditions hold.  A run that begins under a discipline
stays under it, and from a changed store it ends as from the store itself, with the same result and
the changed store.
-/

namespace PocketLisp

open Value

/-! ### Stores -/

namespace Store

/-- A definition adds no scope. -/
@[simp]
theorem size_define (σ : Store) (s : ScopeId) (name : String) (v : Value) :
  (σ.define s name v).scopes.size = σ.scopes.size
  := Array.size_modify

/-- Nor do definitions one after the other. -/
@[simp]
theorem size_defineAll (σ : Store) (s : ScopeId) (bindings : List (String × Value)) :
  (σ.defineAll s bindings).scopes.size = σ.scopes.size
  := by
  induction bindings generalizing σ with
  | nil => rfl
  | cons binding bindings ih => rw [defineAll, ih, size_define]

/-- There is one scope more after one was added. -/
@[simp]
theorem size_addScope (σ : Store) (parent : Option ScopeId) :
  (σ.addScope parent).2.scopes.size = σ.scopes.size + 1
  := Array.size_push _

/-- What is bound in a scope depends on the scopes alone. -/
theorem getLocal?_of_scopes_eq {σ τ : Store} (h : τ.scopes = σ.scopes) (s : ScopeId)
    (name : String) :
  τ.getLocal? s name = σ.getLocal? s name
  := by
  rw [getLocal?, getLocal?, scope?, scope?, h]

/-- Nothing is bound in a new scope. -/
theorem getLocal?_of_addScope {σ : Store} {parent : Option ScopeId} {s : ScopeId} {name : String}
    {v : Value} (h : (σ.addScope parent).2.getLocal? s name = some v) :
  σ.getLocal? s name = some v
  := by
  by_cases hs : σ.HasScope s
  · rwa [getLocal?, scope?_addScope hs, ← getLocal?] at h
  · rw [getLocal?, scope?, addScope, Array.getElem?_push] at h
    split at h
    · simp at h
    next hne =>
      rw [Array.getElem?_eq_none (Nat.le_of_not_lt hs)] at h
      cases h

/-- What a name is found as is bound to it in the scope or in one around it. -/
theorem exists_getLocal?_of_find {σ : Store} {s : ScopeId} {name : String} {v : Value}
    (h : σ.find s name = .ok v) :
  ∃ t ∈ σ.chain s, σ.getLocal? t name = some v
  := by
  rw [find] at h
  split at h
  next w hget =>
    cases h
    apply List.exists_of_findSome?_eq_some hget
  next => cases h

end Store

/-! ### Parameters -/

namespace SpecialForm

variable {form : SpecialForm} {names : List String}

/-- The names of parameters are distinct, and those that were not there before come from symbols. -/
theorem parameterNames_eq_ok {seen : List String} {items : List Value} (hseen : seen.Nodup)
    (h : form.parameterNames seen items = .ok names) :
  names.Nodup ∧ ∀ name ∈ names, name ∈ seen ∨ .symbol name ∈ items
  := by
  fun_induction parameterNames form seen items with
  | case1 seen =>
    cases h
    use (List.reverse_perm seen).nodup_iff.mpr hseen
    intro name hname
    apply Or.inl (List.mem_reverse.mp hname)
  | case2 => cases h
  | case3 seen name items hname ih =>
    obtain ⟨hnodup, hmem⟩ := ih (List.nodup_cons.mpr ⟨by simpa using hname, hseen⟩) h
    use hnodup
    intro name' hname'
    rcases hmem name' hname' with hmem | hmem
    · rcases List.mem_cons.mp hmem with rfl | hmem
      · apply Or.inr List.mem_cons_self
      · apply Or.inl hmem
    · apply Or.inr (List.mem_cons_of_mem _ hmem)
  | case4 => cases h

/-- The names in a parameter list are distinct, and each comes from a symbol in the list. -/
theorem parameters_eq_ok {params : Value} (h : form.parameters params = .ok names) :
  names.Nodup ∧ ∀ name ∈ names, (Value.symbol name).OccursIn params
  := by
  cases params with
  | vector items =>
    obtain ⟨hnodup, hmem⟩ := parameterNames_eq_ok List.nodup_nil h
    use hnodup
    intro name hname
    rcases hmem name hname with hmem | hmem
    · cases hmem
    · apply OccursIn.part hmem .self
  | _ => cases h

end SpecialForm

/-! ### Disciplines -/

/-- A condition on what occurs in code and one on what occurs in data, each in a store with a number
of scopes, a condition on the store itself, and a change of stores that is not seen.  The laws say
how data comes about and how it becomes code, and that each operation on stores keeps to the
conditions and takes the change along. -/
structure Discipline where
  code : (scopes : Nat) → Value → Prop
  data : (scopes : Nat) → Value → Prop
  store : Store → Prop
  change : Store → Store
  -- more scopes do no harm
  code_mono {m n : Nat} {v : Value} (h : m ≤ n) (hv : code m v) : code n v
  data_mono {m n : Nat} {v : Value} (h : m ≤ n) (hv : data m v) : data n v
  -- where data comes from: code is quoted, collections are built, forms make procedures
  data_of_code {n : Nat} {v : Value} (h : Every (code n) v) : Every (data n) v
  data_plain (n : Nat) {v : Value} (h : v.isPlain) : data n v
  data_map (n : Nat) {entries : Entries} (h : Entries.KeysUnequal entries) : data n (.map entries)
  data_procedure {n : Nat} {p : Procedure} (hparams : p.params.Nodup) (hscope : p.scope.index < n)
    (hnames : ∀ name ∈ p.params, code n (.symbol name)) (hbody : ∀ e ∈ p.body, Every (code n) e) :
    data n (.procedure p)
  /-- The body of a procedure is evaluated when it is called. -/
  code_procedure {n : Nat} {p : Procedure} (h : Every (data n) (.procedure p)) :
    (∀ name ∈ p.params, code n (.symbol name)) ∧ ∀ e ∈ p.body, Every (code n) e
  /-- What a native function makes of data is data. -/
  data_native {σ : Store} {id : NativeId} {native : Native} {args : List Value} {v : Value}
    (h : store σ) (hnative : σ.native? id = some native)
    (hargs : ∀ arg ∈ args, Every (data σ.scopes.size) arg)
    (hv : (native.call args).result = .ok v) : Every (data σ.scopes.size) v
  -- what a run does to the store keeps the condition on it
  store_of_scopes_eq {σ τ : Store} (hscopes : τ.scopes = σ.scopes) (hnatives : τ.natives = σ.natives)
    (h : store σ) : store τ
  store_define {σ : Store} (s : ScopeId) (name : String) (v : Value) (h : store σ) :
    store (σ.define s name v)
  store_addScope {σ : Store} {p : Procedure} (h : store σ)
    (hp : data σ.scopes.size (.procedure p)) : store (σ.addScope (some p.scope)).2
  -- what a run asks of the store, and what it does to it, is the same after the change
  find_change {σ : Store} {n : Nat} {name : String} (s : ScopeId) (hname : code n (.symbol name)) :
    (change σ).find s name = σ.find s name
  native?_change (σ : Store) (id : NativeId) : (change σ).native? id = σ.native? id
  define_change {σ : Store} {n : Nat} {name : String} (s : ScopeId) (v : Value)
    (hname : code n (.symbol name)) :
    (change σ).define s name v = change (σ.define s name v)
  addScope_change {σ : Store} (parent : Option ScopeId) (h : store σ) :
    (change σ).addScope parent = ((σ.addScope parent).1, change (σ.addScope parent).2)
  addProcedure_change (σ : Store) (name : Option String) (params : List String) (body : List Value)
    (s : ScopeId) :
    (change σ).addProcedure name params body s
      = ((σ.addProcedure name params body s).1, change (σ.addProcedure name params body s).2)
  write_change (σ : Store) (text : String) : (change σ).write text = change (σ.write text)

namespace Discipline

variable {d : Discipline}

/-- A store that keeps the discipline: so does all that occurs in its bindings. -/
structure Holds (d : Discipline) (σ : Store) : Prop where
  store : d.store σ
  bindings : ∀ s name v, σ.getLocal? s name = some v → Every (d.data σ.scopes.size) v

/-- What is code in a store is code in one with more scopes. -/
theorem every_code_mono {m n : Nat} (hle : m ≤ n) {v : Value} (h : Every (d.code m) v) :
  Every (d.code n) v
  := h.mono fun _ => d.code_mono hle

/-- What is data in a store is data in one with more scopes. -/
theorem every_data_mono {m n : Nat} (hle : m ≤ n) {v : Value} (h : Every (d.data m) v) :
  Every (d.data n) v
  := h.mono fun _ => d.data_mono hle

/-- A plain value with no parts is data in every store. -/
theorem every_data_of_plain (n : Nat) {v : Value} (hparts : v.parts = []) (h : v.isPlain) :
  Every (d.data n) v
  := (every_iff_of_parts_eq_nil hparts).mpr (d.data_plain n h)

namespace Holds

variable {σ τ : Store}

/-- A store that differs in neither scopes nor native functions keeps the discipline alike. -/
theorem of_scopes_eq (h : d.Holds σ) (hscopes : τ.scopes = σ.scopes)
    (hnatives : τ.natives = σ.natives) :
  d.Holds τ
  := by
  use d.store_of_scopes_eq hscopes hnatives h.store
  intro s name v hv
  rw [Store.getLocal?_of_scopes_eq hscopes] at hv
  rw [hscopes]
  apply h.bindings s name v hv

/-- To bind a name to data keeps the discipline. -/
theorem define (h : d.Holds σ) (s : ScopeId) (name : String) {v : Value}
    (hv : Every (d.data σ.scopes.size) v) :
  d.Holds (σ.define s name v)
  := by
  use d.store_define s name v h.store
  intro t name' w hw
  rw [Store.getLocal?_define] at hw
  rw [Store.size_define]
  split at hw
  · obtain ⟨scope, -, rfl⟩ := Option.map_eq_some_iff.mp hw
    apply hv
  · apply h.bindings t name' w hw

/-- To add a scope keeps the discipline if it keeps the condition on the store itself. -/
theorem addScope (h : d.Holds σ) {parent : Option ScopeId}
    (hstore : d.store (σ.addScope parent).2) :
  d.Holds (σ.addScope parent).2
  := by
  use hstore
  intro s name v hv
  rw [Store.size_addScope]
  apply every_data_mono (Nat.le_succ _)
  apply h.bindings s name v (Store.getLocal?_of_addScope hv)

/-- Names of code that are bound to data one after the other. -/
theorem defineAll (h : d.Holds σ) (s : ScopeId) {bindings : List (String × Value)}
    (hbindings : ∀ binding ∈ bindings,
      d.code σ.scopes.size (.symbol binding.1) ∧ Every (d.data σ.scopes.size) binding.2) :
  (d.change σ).defineAll s bindings = d.change (σ.defineAll s bindings) ∧
    d.Holds (σ.defineAll s bindings)
  := by
  induction bindings generalizing σ with
  | nil => exact ⟨rfl, h⟩
  | cons binding bindings ih =>
    obtain ⟨name, v⟩ := binding
    obtain ⟨⟨hname, hv⟩, hbindings⟩ := List.forall_mem_cons.mp hbindings
    rw [Store.defineAll, Store.defineAll, d.define_change s v hname]
    have hih := ih (h.define s name hv)
    rw [Store.size_define] at hih
    apply hih hbindings

end Holds

/-- What a step leads to keeps the discipline, and where it goes on is a scope. -/
def HoldsAt (d : Discipline) (n : Nat) : Step → Prop
  | .done v => Every (d.data n) v
  | .tail e s _ => s.index < n ∧ Every (d.code n) e
  | .enter p s => s.index < n ∧ Every (d.data n) (.procedure p)

end Discipline

end PocketLisp
