import PocketLisp.Proofs.Store.Reachable

/-!
# Lookups

A name is looked up from a scope outward, up to the first scope that binds it.  The bindings that are
visible from a scope are gathered in the opposite direction: the scope around it comes first, and its
own bindings take the place of those that they hide.

What either gives for a scope is said here by what it gives for the parent.  In a reachable store
everything else is by induction on the way outward.
-/

namespace PocketLisp.Store

open Value

variable {σ : Store} {s t parent : ScopeId} {name name' : String} {v : Value}

/-! ### A scope and its parent -/

/-- There is a scope under an identifier that stands for one. -/
theorem hasScope_of_scope? {scope : Scope} (h : σ.scope? s = some scope) :
  σ.HasScope s
  := (Array.getElem?_eq_some_iff.mp h).1

/-- What has a parent is a scope. -/
theorem hasScope_of_parent? (h : σ.parent? s = some parent) :
  σ.HasScope s
  := by
  obtain ⟨scope, hscope, -⟩ := Option.bind_eq_some_iff.mp h
  apply hasScope_of_scope? hscope

/-- There is one path outward from a scope at most. -/
theorem Outward.unique {path path' : List ScopeId} (h : σ.Outward s path)
    (h' : σ.Outward s path') :
  path = path'
  := by
  induction h generalizing path' with
  | root _ hroot =>
    cases h' with
    | root => rfl
    | child _ hparent => cases hroot.symm.trans hparent
  | child _ hparent _ ih =>
    cases h' with
    | root _ hroot => cases hroot.symm.trans hparent
    | child _ hparent' houter =>
      cases hparent.symm.trans hparent'
      rw [ih houter]

/-- The chain of a root is the root alone. -/
theorem chain_of_root (h : σ.parent? s = none) :
  σ.chain s = [s]
  := by
  rw [chain]
  cases s.index with
  | zero => rfl
  | succ steps => rw [chainFrom, h]

/-- The chain of a scope with a parent is the scope and the chain of the parent. -/
theorem ParentsOlder.chain_of_parent (h : σ.ParentsOlder) (hparent : σ.parent? s = some parent) :
  σ.chain s = s :: σ.chain parent
  := by
  have hs := hasScope_of_parent? hparent
  have houter : σ.HasScope parent := (h s parent hparent).trans hs
  apply (h.outward_chain hs).1.unique
  apply Outward.child hs hparent (h.outward_chain houter).1

/-- In a root a name is looked up among the root's own bindings. -/
theorem get?_of_root (h : σ.parent? s = none) (name : String) :
  σ.get? s name = σ.getLocal? s name
  := by
  rw [get?, chain_of_root h, List.findSome?_singleton]

/-- A lookup goes on at the parent if the scope itself does not bind the name. -/
theorem ParentsOlder.get?_of_parent (h : σ.ParentsOlder) (hparent : σ.parent? s = some parent)
    (name : String) :
  σ.get? s name = (σ.getLocal? s name).or (σ.get? parent name)
  := by
  rw [get?, h.chain_of_parent hparent, List.findSome?_cons]
  cases σ.getLocal? s name <;> rfl

/-- The bindings of a scope are those that a look into this scope alone finds. -/
theorem getElem?_bindings (σ : Store) (s : ScopeId) (name : String) :
  ((σ.scope? s).elim ∅ Scope.bindings)[name]? = σ.getLocal? s name
  := by
  rw [getLocal?]
  cases σ.scope? s with
  | none => apply Std.ExtTreeMap.getElem?_empty
  | some scope => rfl

/-- From a root its own bindings are visible and no others. -/
theorem getElem?_visible_of_root (h : σ.parent? s = none) (name : String) :
  (σ.visible s)[name]? = σ.getLocal? s name
  := by
  rw [visible, chain_of_root h, List.foldr_cons, List.foldr_nil, Std.ExtTreeMap.getElem?_union,
    Std.ExtTreeMap.getElem?_empty, Option.or_none, getElem?_bindings]

/-- What the scope itself binds takes the place of what is visible from the parent. -/
theorem ParentsOlder.getElem?_visible_of_parent (h : σ.ParentsOlder)
    (hparent : σ.parent? s = some parent) (name : String) :
  (σ.visible s)[name]? = (σ.getLocal? s name).or (σ.visible parent)[name]?
  := by
  rw [visible, h.chain_of_parent hparent, List.foldr_cons, ← visible,
    Std.ExtTreeMap.getElem?_union, getElem?_bindings]

/-! ### New bindings -/

/-- A scope has the value that was bound last. -/
theorem getLocal?_define_self (hs : σ.HasScope s) (name : String) (v : Value) :
  (σ.define s name v).getLocal? s name = some v
  := by
  rw [getLocal?_define, if_pos ⟨rfl, rfl⟩, scope?, Array.getElem?_eq_getElem hs, Option.map_some]

/-- To bind a name in a scope changes neither other names nor other scopes. -/
theorem getLocal?_define_of_ne (h : t ≠ s ∨ name' ≠ name) (v : Value) :
  (σ.define s name v).getLocal? t name' = σ.getLocal? t name'
  := by
  rw [getLocal?_define, if_neg]
  rintro ⟨ht, hname⟩
  apply h.elim (· ht) (· hname)

/-- A lookup of the name gets to the scope `s` from another one: `s` is that scope or lies around it,
and no scope on the way before `s` binds the name. -/
inductive LookupReaches (σ : Store) (name : String) (s : ScopeId) : ScopeId → Prop
  | here : LookupReaches σ name s s
  | outward {t parent : ScopeId} (hname : σ.definesLocally t name = false)
      (hparent : σ.parent? t = some parent) (h : LookupReaches σ name s parent) :
    LookupReaches σ name s t

namespace ParentsOlder

/-- A binding in the scope itself is found before all others. -/
theorem get?_of_getLocal? (h : σ.ParentsOlder) (hv : σ.getLocal? s name = some v) :
  σ.get? s name = some v
  := by
  cases hparent : σ.parent? s with
  | none => rw [get?_of_root hparent, hv]
  | some parent => rw [h.get?_of_parent hparent, hv, Option.some_or]

/-- A new binding is what a lookup gives that gets to it. -/
theorem get?_define_of_lookupReaches (h : σ.ParentsOlder) (hs : σ.HasScope s)
    (hreaches : σ.LookupReaches name s t) (v : Value) :
  (σ.define s name v).get? t name = some v
  := by
  have hdefine := h.define s name v
  induction hreaches with
  | here => apply hdefine.get?_of_getLocal? (getLocal?_define_self hs name v)
  | @outward t parent hname hparent _ ih =>
    by_cases ht : t = s
    · apply hdefine.get?_of_getLocal?
      rw [ht, getLocal?_define_self hs]
    · rw [definesLocally, Option.isSome_eq_false_iff, Option.isNone_iff_eq_none] at hname
      rw [← parent?_define σ s t name v] at hparent
      rw [hdefine.get?_of_parent hparent, getLocal?_define_of_ne (.inl ht), hname, Option.none_or,
        ih]

/-- A new binding makes no difference to a lookup of another name, or to one that does not get to
it. -/
theorem get?_define_of_not_lookupReaches (h : σ.ParentsOlder) (ht : σ.HasScope t)
    (hreaches : ¬ (name' = name ∧ σ.LookupReaches name s t)) (v : Value) :
  (σ.define s name v).get? t name' = σ.get? t name'
  := by
  have hdefine := h.define s name v
  have hlocal {t : ScopeId} (hreaches : ¬ (name' = name ∧ σ.LookupReaches name s t)) :
      (σ.define s name v).getLocal? t name' = σ.getLocal? t name' := by
    apply getLocal?_define_of_ne
    by_contra! hand
    obtain ⟨rfl, rfl⟩ := hand
    apply hreaches ⟨rfl, .here⟩
  obtain ⟨path, houtward⟩ : ∃ path, σ.Outward t path := ⟨_, (h.outward_chain ht).1⟩
  induction houtward with
  | @root t _ hroot =>
    have hroot' := hroot
    rw [← parent?_define σ s t name v] at hroot'
    rw [get?_of_root hroot, get?_of_root hroot', hlocal hreaches]
  | @child t parent _ hs hparent _ ih =>
    have hparent' := hparent
    rw [← parent?_define σ s t name v] at hparent'
    rw [h.get?_of_parent hparent, hdefine.get?_of_parent hparent', hlocal hreaches]
    cases hname : σ.getLocal? t name' with
    | some w => rfl
    | none =>
      -- the lookup goes on, so it would get from `t` to what it gets to from the parent
      rw [Option.none_or, Option.none_or]
      apply ih ((h t parent hparent).trans hs)
      rintro ⟨rfl, hreaches'⟩
      apply hreaches ⟨rfl, .outward _ hparent hreaches'⟩
      rw [definesLocally, hname, Option.isSome_none]

end ParentsOlder

/-! ### Reachable stores -/

/-- A scope that binds `x` and `y`, two scopes in it, and one in the second of these that binds `x`
anew. -/
def shadowing : Store :=
  let σ := ((empty.addScope none).2.define ⟨0⟩ "x" (.integer 1)).define ⟨0⟩ "y" (.integer 2)
  let σ := ((σ.addScope (some ⟨0⟩)).2.addScope (some ⟨0⟩)).2
  (σ.addScope (some ⟨2⟩)).2.define ⟨3⟩ "x" (.integer 3)

/-- The store with a shadowed name comes about from the operations of the interpreter. -/
theorem reachable_shadowing :
  shadowing.Reachable
  := by
  have hroot : Reachable (((empty.addScope none).2.define ⟨0⟩ "x" (.integer 1)).define ⟨0⟩ "y"
      (.integer 2)) := by
    apply Reachable.define
    · apply Reachable.define Reachable.empty.root
      apply WellFormed.of_isPlain rfl rfl
    · apply WellFormed.of_isPlain rfl rfl
  apply Reachable.define
  · apply Reachable.child
    · apply Reachable.child
      · apply Reachable.child hroot
        apply Nat.one_pos
      · simp [HasScope, empty]
    · simp [HasScope, empty]
  · apply WellFormed.of_isPlain rfl rfl

/-- There are four scopes in the store with a shadowed name. -/
theorem hasScope_shadowing (h : s.index < 4) :
  shadowing.HasScope s
  := by
  simpa [HasScope, shadowing, empty] using h

namespace Reachable

/-- Binding a name in a scope changes exactly the lookups of the name that get to that scope: they
give the new value.  Only in the scope itself, and of that name, does it change what is bound. -/
theorem lookup_define (h : σ.Reachable) (hs : σ.HasScope s) (ht : σ.HasScope t)
    (name name' : String) (v : Value) :
  (name' = name ∧ σ.LookupReaches name s t → (σ.define s name v).get? t name' = some v) ∧
    (¬ (name' = name ∧ σ.LookupReaches name s t) →
      (σ.define s name v).get? t name' = σ.get? t name') ∧
    (σ.define s name v).definesLocally s name = true ∧
    ∀ u name', u ≠ s ∨ name' ≠ name →
      (σ.define s name v).definesLocally u name' = σ.definesLocally u name'
  := by
  have holder := h.holds.store.older
  refine ⟨?_, ?_, ?_, ?_⟩
  · rintro ⟨rfl, hreaches⟩
    apply holder.get?_define_of_lookupReaches hs hreaches
  · intro hreaches
    apply holder.get?_define_of_not_lookupReaches ht hreaches
  · rw [definesLocally, getLocal?_define_self hs, Option.isSome_some]
  · intro u name' hne
    rw [definesLocally, definesLocally, getLocal?_define_of_ne hne]

/-- A new value of `x` in the outermost scope is seen from a scope in it, but not from the one that
binds `x` itself. -/
theorem lookup_define_shadowing :
  (shadowing.define ⟨0⟩ "x" (.integer 7)).get? ⟨2⟩ "x" = some (.integer 7) ∧
    (shadowing.define ⟨0⟩ "x" (.integer 7)).get? ⟨3⟩ "x" = shadowing.get? ⟨3⟩ "x" ∧
    shadowing.get? ⟨3⟩ "x" = some (.integer 3)
  := by
  have hs : shadowing.HasScope ⟨0⟩ := hasScope_shadowing (by decide)
  have houter : shadowing.HasScope ⟨2⟩ := hasScope_shadowing (by decide)
  have hinner : shadowing.HasScope ⟨3⟩ := hasScope_shadowing (by decide)
  have hreaches : shadowing.LookupReaches "x" ⟨0⟩ ⟨2⟩ := .outward rfl rfl .here
  have hhidden : ¬ shadowing.LookupReaches "x" ⟨0⟩ ⟨3⟩ := by
    rintro (_ | ⟨hname, -, -⟩)
    cases hname
  refine ⟨?_, ?_, rfl⟩
  · apply (lookup_define reachable_shadowing hs houter "x" "x" (.integer 7)).1 ⟨rfl, hreaches⟩
  · apply (lookup_define reachable_shadowing hs hinner "x" "x" (.integer 7)).2.1
    rintro ⟨-, hreaches⟩
    apply hhidden hreaches

/-- In a reachable store the visible bindings are listed by increasing names, each name once, and a
name stands in the list with a value exactly if it is looked up as that value. -/
theorem allBindings_agrees (h : σ.Reachable) (hs : σ.HasScope s) :
  (σ.allBindings s).Pairwise (fun binding later => binding.1 < later.1) ∧
    ∀ name v, (name, v) ∈ σ.allBindings s ↔ σ.get? s name = some v
  := by
  constructor
  · apply Std.ExtTreeMap.ordered_keys_toList.imp
    intro binding later hlt
    apply compare_lt_iff_lt.mp hlt
  · intro name v
    have holder := h.holds.store.older
    have hvisible : (σ.visible s)[name]? = σ.get? s name := by
      obtain ⟨path, houtward⟩ : ∃ path, σ.Outward s path := ⟨_, (holder.outward_chain hs).1⟩
      induction houtward with
      | root _ hroot => rw [getElem?_visible_of_root hroot, get?_of_root hroot]
      | @child s parent _ hs hparent _ ih =>
        rw [holder.getElem?_visible_of_parent hparent, holder.get?_of_parent hparent,
          ih ((holder s parent hparent).trans hs)]
    rw [allBindings, Std.ExtTreeMap.mem_toList_iff_getElem?_eq_some, hvisible]

/-- From the innermost scope the binding of `x` is seen that shadows the one in the root, next to that of
`y` in the root. -/
theorem allBindings_agrees_shadowing :
  shadowing.allBindings ⟨3⟩ = [("x", .integer 3), ("y", .integer 2)] ∧
    ((shadowing.allBindings ⟨3⟩).Pairwise fun binding later => binding.1 < later.1) ∧
    shadowing.get? ⟨3⟩ "y" = some (.integer 2)
  := by
  have hs : shadowing.HasScope ⟨3⟩ := hasScope_shadowing (by decide)
  have hlist : shadowing.allBindings ⟨3⟩ = [("x", .integer 3), ("y", .integer 2)] := rfl
  obtain ⟨hordered, hmem⟩ := allBindings_agrees reachable_shadowing hs
  refine ⟨hlist, hordered, ?_⟩
  apply (hmem "y" (.integer 2)).mp
  rw [hlist]
  apply List.mem_cons_of_mem _ List.mem_cons_self

end Reachable

end PocketLisp.Store
