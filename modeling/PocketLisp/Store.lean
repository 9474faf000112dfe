import PocketLisp.Host.Native
import Std.Data.ExtTreeMap

/-!
# Stores

A `Store` holds everything that an evaluation may change.  Its scopes form trees: each has
bindings of its own and perhaps a parent, at which a lookup goes on.  A `ScopeId` names a scope
for good, since scopes are only ever added; so a procedure that captured one sees what is
defined there later.
-/

namespace PocketLisp

/-- Names bound to values. -/
abbrev Bindings := Std.ExtTreeMap String Value

/-- The bindings of one scope, and the scope around it. -/
structure Scope where
  bindings : Bindings
  parent : Option ScopeId

/-- All scopes and native functions, how many procedures were made, and what was written to
the output. -/
structure Store where
  scopes : Array Scope
  natives : Array Native
  procedures : Nat
  output : String

namespace Store

/-- The store before anything is in it. -/
def empty : Store := ⟨#[], #[], 0, ""⟩

/-! ### Scopes -/

/-- The scope that a handle names. -/
def scope? (σ : Store) (s : ScopeId) : Option Scope :=
  σ.scopes[s.index]?

/-- The scope around a scope. -/
def parent? (σ : Store) (s : ScopeId) : Option ScopeId :=
  (σ.scope? s).bind Scope.parent

/-- Adds a scope without bindings. -/
def addScope (σ : Store) (parent : Option ScopeId) : ScopeId × Store :=
  (⟨σ.scopes.size⟩, { σ with scopes := σ.scopes.push ⟨∅, parent⟩ })

/-- Binds a name in a scope.  The scopes around it keep their bindings. -/
def define (σ : Store) (s : ScopeId) (name : String) (v : Value) : Store :=
  { σ with
    scopes := σ.scopes.modify s.index fun scope =>
      { scope with bindings := scope.bindings.insert name v } }

/-- Binds names in a scope one after the other. -/
def defineAll (σ : Store) (s : ScopeId) : List (String × Value) → Store
  | [] => σ
  | (name, v) :: bindings => defineAll (σ.define s name v) s bindings

/-- The value of a name in the scope itself. -/
def getLocal? (σ : Store) (s : ScopeId) (name : String) : Option Value :=
  (σ.scope? s).bind fun scope => scope.bindings[name]?

/-- The scopes from a scope outward, the scope itself first, at most `steps` of them after it. -/
def chainFrom (σ : Store) : (steps : Nat) → ScopeId → List ScopeId
  | 0, s => [s]
  | steps + 1, s =>
    match σ.parent? s with
    | none => [s]
    | some parent => s :: chainFrom σ steps parent

/-- The scopes from a scope outward, the scope itself first.  A parent is older than its child,
so that no more scopes can follow than the index of the first. -/
def chain (σ : Store) (s : ScopeId) : List ScopeId :=
  σ.chainFrom s.index s

/-- The value of a name in a scope, or else in the nearest scope around it that binds it. -/
def get? (σ : Store) (s : ScopeId) (name : String) : Option Value :=
  (σ.chain s).findSome? fun scope => σ.getLocal? scope name

/-- The value of a name, which has to be bound. -/
def find (σ : Store) (s : ScopeId) (name : String) : Except Error Value :=
  match σ.get? s name with
  | some v => .ok v
  | none => .error (.unbound name)

/-- Whether a name is bound in the scope itself. -/
def definesLocally (σ : Store) (s : ScopeId) (name : String) : Bool :=
  (σ.getLocal? s name).isSome

/-- The bindings that are visible from a scope: an inner one hides those around it. -/
def visible (σ : Store) (s : ScopeId) : Bindings :=
  (σ.chain s).foldr
    (fun scope outer => outer ∪ (σ.scope? scope).elim ∅ Scope.bindings)
    ∅

/-- The bindings that are visible from a scope, ordered by name. -/
def allBindings (σ : Store) (s : ScopeId) : List (String × Value) :=
  (σ.visible s).toList

/-- Whether a handle names a scope. -/
def HasScope (σ : Store) (s : ScopeId) : Prop :=
  s.index < σ.scopes.size

/-- A scope is as it was, but for the binding in the one scope. -/
theorem scope?_define (σ : Store) (s t : ScopeId) (name : String) (v : Value) :
  (σ.define s name v).scope? t
    = if t = s then
        (σ.scope? t).map fun scope => { scope with bindings := scope.bindings.insert name v }
      else σ.scope? t
  := by
  obtain ⟨i⟩ := s
  obtain ⟨j⟩ := t
  by_cases h : j = i
  · simp [scope?, define, Array.getElem?_modify, h]
  · simp [scope?, define, Array.getElem?_modify, h, Ne.symm h]

/-- To bind a name adds no scope and removes none. -/
@[simp]
theorem hasScope_define (σ : Store) (s t : ScopeId) (name : String) (v : Value) :
  (σ.define s name v).HasScope t ↔ σ.HasScope t
  := by
  simp [HasScope, define]

/-- To bind a name leaves the parents of scopes. -/
@[simp]
theorem parent?_define (σ : Store) (s t : ScopeId) (name : String) (v : Value) :
  (σ.define s name v).parent? t = σ.parent? t
  := by
  rw [parent?, parent?, scope?_define]
  split
  · cases σ.scope? t <;> rfl
  · rfl

/-- A name has the value that was bound last in the scope; other names and other scopes keep theirs. -/
theorem getLocal?_define (σ : Store) (s t : ScopeId) (name name' : String) (v : Value) :
  (σ.define s name v).getLocal? t name'
    = if t = s ∧ name' = name then (σ.scope? t).map fun _ => v else σ.getLocal? t name'
  := by
  rw [getLocal?, getLocal?, scope?_define]
  by_cases ht : t = s
  · subst ht
    cases σ.scope? t with
    | none => simp
    | some scope =>
      by_cases hname : name' = name
      · simp [hname]
      · simp [hname, Std.ExtTreeMap.getElem?_insert, Ne.symm hname]
  · simp [ht]

/-- A new scope leaves the scopes that there were. -/
theorem scope?_addScope {σ : Store} {s : ScopeId} (h : σ.HasScope s) (parent : Option ScopeId) :
  (σ.addScope parent).2.scope? s = σ.scope? s
  := by
  simp [scope?, addScope, Array.getElem?_push_lt h, Array.getElem?_eq_getElem h]

/-! ### Native functions and procedures -/

/-- Adds a native function and gives it an identity. -/
def addNative (σ : Store) (native : Native) : Value × Store :=
  (.native ⟨σ.natives.size, native.name⟩, { σ with natives := σ.natives.push native })

/-- The native function that a handle names. -/
def native? (σ : Store) (n : NativeId) : Option Native :=
  σ.natives[n.index]?

/-- Adds a native function and binds it under its name. -/
def register (σ : Store) (s : ScopeId) (native : Native) : Store :=
  let (v, σ) := σ.addNative native
  σ.define s native.name v

/-- Makes a procedure with an identity of its own. -/
def addProcedure (σ : Store) (name : Option String) (params : List String) (body : List Value)
    (s : ScopeId) : Value × Store :=
  (.procedure ⟨σ.procedures, name, params, body, s⟩,
    { σ with procedures := σ.procedures + 1 })

/-- Writes to the output. -/
def write (σ : Store) (text : String) : Store :=
  { σ with output := σ.output ++ text }

/-! ### The global scope -/

/-- The bindings of every global scope: the primitives and the special forms. -/
def builtins : List (String × Value) :=
  Primitive.all.map (fun p => (p.id, .primitive p)) ++
    SpecialForm.all.map (fun form => (form.id, .specialForm form))

/-- Adds a scope that binds the primitives and the special forms. -/
def addGlobal (σ : Store) : ScopeId × Store :=
  let (s, σ) := σ.addScope none
  (s, σ.defineAll s builtins)

/-! ### Inspection -/

/-- One scope with the names that it binds, given the same for the scope around it. -/
def inspectScope (σ : Store) (s : ScopeId) (outer : Option String) : String :=
  let names := (σ.scope? s).elim [] fun scope => scope.bindings.keys
  "Environment \x7b bindings: [" ++ ", ".intercalate (names.map Text.showString) ++
    "], parent: " ++ outer.elim "None" (fun outer => "Some(" ++ outer ++ ")") ++ " \x7d"

/-- A scope and those around it, with the names that they bind. -/
def inspect (σ : Store) (s : ScopeId) : String :=
  ((σ.chain s).foldr (fun scope outer => some (σ.inspectScope scope outer)) none).getD ""

end Store

end PocketLisp
