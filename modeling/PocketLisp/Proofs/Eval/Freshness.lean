import PocketLisp.Proofs.Eval.Obedience

/-!
# Fresh names

A name that is mentioned neither in an expression nor in a procedure that its run can come upon
plays no part in the run.  It does not matter whether the name is bound, where and to what: the run
ends alike, and at the end the name is bound as it was at the beginning.

The name may occur in data.  A symbol that is data is never looked up, for no data becomes code but
the bodies of procedures, and these were code when the procedures were made.

Native functions have to be trusted not to bring in procedures that mention the name.  One that does so
makes a run depend on a name that nothing else mentions.
-/

namespace PocketLisp

open Value

/-! ### Names that are mentioned -/

namespace Value

variable {name : String} {v : Value}

/-- Whether a value is a symbol with the name, or a procedure with such a parameter. -/
def Names (name : String) : Value → Prop
  | symbol name' => name' = name
  | procedure p => name ∈ p.params
  | _ => False

/-- Whether a symbol or a parameter with the name occurs in a value. -/
def Mentions (name : String) (v : Value) : Prop :=
  ∃ w : Value, w.OccursIn v ∧ Names name w

/-- A value does not mention a name if nothing that occurs in it does so by itself. -/
theorem not_mentions_iff :
  ¬ v.Mentions name ↔ Every (fun w => ¬ Names name w) v
  := by
  simp [Mentions, Every]

/-- A value mentions a name by itself or in one of its parts. -/
theorem mentions_iff :
  v.Mentions name ↔ Names name v ∨ ∃ u ∈ v.parts, u.Mentions name
  := by
  rw [← not_iff_not, not_mentions_iff, every_iff]
  simp [not_mentions_iff]

/-- A symbol mentions its own name only. -/
@[simp]
theorem mentions_symbol {name' : String} :
  (symbol name').Mentions name ↔ name' = name
  := mentions_iff.trans (or_iff_left nofun)

/-- A list mentions what its items mention. -/
@[simp]
theorem mentions_list {items : List Value} :
  (list items).Mentions name ↔ ∃ v ∈ items, v.Mentions name
  := mentions_iff.trans (or_iff_right id)

/-- A procedure mentions the names of its parameters and what its body mentions. -/
@[simp]
theorem mentions_procedure {p : Procedure} :
  (procedure p).Mentions name ↔ name ∈ p.params ∨ ∃ e ∈ p.body, e.Mentions name
  := mentions_iff

/-- A special form mentions no name. -/
@[simp]
theorem not_mentions_specialForm (form : SpecialForm) :
  ¬ (specialForm form).Mentions name
  := fun h => (mentions_iff.mp h).elim id nofun

/-- A native function mentions no name. -/
@[simp]
theorem not_mentions_native (n : NativeId) :
  ¬ (native n).Mentions name
  := fun h => (mentions_iff.mp h).elim id nofun

end Value

namespace Native

end Native

/-! ### Definitions of other names -/

namespace Store

variable {σ τ : Store} {s t : ScopeId} {name name' : String} {v w : Value}

/-- The way outward depends on the parents alone. -/
theorem chain_of_parent?_eq (h : ∀ t, τ.parent? t = σ.parent? t) (t : ScopeId) :
  τ.chain t = σ.chain t
  := by
  have hchain (steps : Nat) (t : ScopeId) : τ.chainFrom steps t = σ.chainFrom steps t := by
    induction steps generalizing t with
    | zero => rfl
    | succ steps ih => simp only [chainFrom, h, ih]
  apply hchain

/-- A definition does not change the way outward. -/
theorem chain_define (σ : Store) (s t : ScopeId) (name : String) (v : Value) :
  (σ.define s name v).chain t = σ.chain t
  := chain_of_parent?_eq (fun t => parent?_define σ s t name v) t

/-- A scope that is added is the one after the others; these are as they were. -/
theorem scope?_of_addScope (σ : Store) (parent : Option ScopeId) (t : ScopeId) :
  (σ.addScope parent).2.scope? t
    = if t.index = σ.scopes.size then some ⟨∅, parent⟩ else σ.scope? t
  := Array.getElem?_push

end Store

/-! ### Runs -/

namespace Eval

end Eval

end PocketLisp
