import PocketLisp.Proofs.Eval.Frame
import PocketLisp.Proofs.Eval.Freshness
import PocketLisp.Proofs.Store.Reachable

/-!
# Stores over time

A store changes by small steps: a scope is added inside one that there is, a name is bound in some
scope, or something is done that concerns no scope.  A store comes later than another if any number of
such steps lead to it; it may well be the store in the middle of an evaluation.

No scope goes away, parents remain older than their children, and a scope in which nothing is bound
remains as it is.  A whole evaluation leaves a later store, and has bound nothing in any scope that it
leaves as it was.
-/

namespace PocketLisp.Store

open Value

/-- The stores that come from the store `σ` by one change after the other, when names are bound only in
scopes of which `bound` holds. -/
inductive Later (bound : ScopeId → Prop) (σ : Store) : Store → Prop
  | refl : Later bound σ σ
  | addScope {τ : Store} (h : Later bound σ τ) {parent : Option ScopeId}
      (hparent : ∀ t ∈ parent, τ.HasScope t) : Later bound σ (τ.addScope parent).2
  | define {τ : Store} (h : Later bound σ τ) {s : ScopeId} (hs : bound s) (name : String)
      (v : Value) : Later bound σ (τ.define s name v)
  /-- What changes is not in a scope. -/
  | aside {τ υ : Store} (h : Later bound σ τ) (hscopes : υ.scopes = τ.scopes) : Later bound σ υ

/-- At any time later than `σ`, with no restriction on the scopes in which names are bound. -/
abbrev AnyLater (σ : Store) : Store → Prop :=
  Later (fun _ => True) σ

namespace Later

variable {bound : ScopeId → Prop} {σ τ : Store} {s : ScopeId}

/-- A scope that there is stays. -/
theorem hasScope (h : Later bound σ τ) (hs : σ.HasScope s) :
  τ.HasScope s
  := by
  induction h with
  | refl => apply hs
  | addScope _ _ ih =>
    rw [HasScope, size_addScope]
    apply Nat.lt_succ_of_lt ih
  | define => rwa [hasScope_define]
  | aside _ hscopes ih => rwa [HasScope, hscopes]

/-- Parents are still older than their children at every later moment. -/
theorem older (h : Later bound σ τ) (hσ : σ.ParentsOlder) :
  τ.ParentsOlder
  := by
  induction h with
  | refl => apply hσ
  | addScope _ hparent ih => apply ih.addScope hparent
  | define _ _ name v ih => apply ih.define _ name v
  | aside _ hscopes ih =>
    intro t parent hparent
    rw [parent?, scope?, hscopes] at hparent
    apply ih t parent hparent

/-- A scope in which no name is bound keeps its bindings and its parent. -/
theorem scope?_eq (h : Later bound σ τ) (hs : σ.HasScope s) (hbound : ¬ bound s) :
  τ.scope? s = σ.scope? s
  := by
  induction h with
  | refl => rfl
  | addScope h _ ih => rw [scope?_addScope (h.hasScope hs), ih]
  | @define τ _ t ht name v ih =>
    have hne : s ≠ t := by
      rintro rfl
      apply hbound ht
    rw [scope?_define, if_neg hne, ih]
  | aside _ hscopes ih => rw [scope?, hscopes, ← scope?, ih]

/-- Leaving out all that is bound in a scope makes a difference in that scope only. -/
theorem exists_apart (h : σ.AnyLater τ) (s : ScopeId) :
  ∃ τ', Later (· ≠ s) σ τ' ∧ τ'.scopes.size = τ.scopes.size ∧
    ∀ t, t ≠ s → τ'.scope? t = τ.scope? t
  := by
  induction h with
  | refl => exact ⟨σ, .refl, rfl, fun _ _ => rfl⟩
  | @addScope τ _ parent hparent ih =>
    obtain ⟨τ', hlater, hsize, hscope⟩ := ih
    refine ⟨(τ'.addScope parent).2, hlater.addScope ?_, ?_, ?_⟩
    · intro t ht
      rw [HasScope, hsize]
      apply hparent t ht
    · rw [size_addScope, size_addScope, hsize]
    · intro t ht
      rw [scope?_of_addScope, scope?_of_addScope, hsize, hscope t ht]
  | @define τ _ u _ name v ih =>
    obtain ⟨τ', hlater, hsize, hscope⟩ := ih
    by_cases hu : u = s
    · refine ⟨τ', hlater, ?_, ?_⟩
      · rw [size_define, hsize]
      · intro t ht
        rw [scope?_define, if_neg (hu ▸ ht), hscope t ht]
    · refine ⟨τ'.define u name v, hlater.define hu name v, ?_, ?_⟩
      · rw [size_define, size_define, hsize]
      · intro t ht
        rw [scope?_define, scope?_define, hscope t ht]
  | @aside τ υ _ hscopes ih =>
    obtain ⟨τ', hlater, hsize, hscope⟩ := ih
    refine ⟨τ', hlater, ?_, ?_⟩
    · rw [hsize, hscopes]
    · intro t ht
      rw [hscope t ht, scope?, scope?, hscopes]

/-- If a scope is as it was, nothing need have been bound in it. -/
theorem apart (h : σ.AnyLater τ) (hs : σ.HasScope s) (hscope : τ.scope? s = σ.scope? s) :
  Later (· ≠ s) σ τ
  := by
  obtain ⟨τ', hlater, -, hscope'⟩ := h.exists_apart s
  apply hlater.aside
  apply Array.ext_getElem?
  intro i
  by_cases hi : ⟨i⟩ = s
  · rw [← hi] at hscope
    have heq : τ'.scope? ⟨i⟩ = σ.scope? ⟨i⟩ := hlater.scope?_eq (hi ▸ hs) (absurd hi)
    apply hscope.trans heq.symm
  · apply (hscope' ⟨i⟩ hi).symm

end Later

/-! ### Evaluations -/

/-- Runs that keep to what is well formed, and to stores later than `σ`. -/
def succession (σ : Store) : Discipline :=
  { wellFormedness with
    store := fun τ => τ.Consistent ∧ σ.AnyLater τ
    data_native := fun h => wellFormedness.data_native h.1
    store_of_scopes_eq := fun hscopes hnatives h =>
      ⟨wellFormedness.store_of_scopes_eq hscopes hnatives h.1, h.2.aside hscopes⟩
    store_define := fun s name v h => ⟨h.1.define s name v, h.2.define trivial name v⟩
    store_addScope := fun h hp =>
      ⟨wellFormedness.store_addScope h.1 hp, h.2.addScope fun _ ht => Option.mem_some.mp ht ▸ hp.2⟩
    addScope_change := fun _ _ => rfl }

section

variable {σ τ : Store} {depth : Nat} {s t : ScopeId} {e : Value} {r : Except Error Value}
  (hσ : wellFormedness.Holds σ) (hs : σ.HasScope s) (he : WellFormed σ.scopes.size e)
  (hends : Eval.Ends depth s e σ r τ)

include hσ hs he hends

/-- A well-formed expression that is evaluated where everything is well formed leaves a later store. -/
theorem later_of_ends :
  σ.AnyLater τ
  := by
  have hsuccession : (succession σ).Holds σ := ⟨⟨hσ.store, .refl⟩, hσ.bindings⟩
  apply (hends.holds hsuccession hs he).1.store.2

/-- Nothing is bound in a scope that was there before and is not the scope of the evaluation. -/
theorem later_apart_of_ends (ht : σ.HasScope t) (hne : t ≠ s) :
  Later (· ≠ t) σ τ
  := by
  have hframe : Frame s σ τ := by
    obtain ⟨fuel, h⟩ := hends
    apply (Eval.keeps_run fuel).1 depth s e σ r τ h
  apply (later_of_ends hσ hs he hends).apart ht
  apply hframe.scope?_eq t ht hne

end

end PocketLisp.Store
