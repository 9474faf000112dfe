import PocketLisp.Proofs.Eval.Obedience
import PocketLisp.Proofs.Read.Legible

/-!
# Reachable stores

A store is reachable if it comes from the empty one by adding scopes, by binding names, by adding
native functions and by evaluating expressions.  What the program around the interpreter brings in
has to be well formed: the values that it binds or evaluates, and what its functions make of
well-formed arguments.

Then everything in a reachable store is well formed.  All the scopes around a scope come to an end
at one without a parent, for parents are older than their children; a procedure may well be bound
in the very scope that it captured.
-/

namespace PocketLisp

open Value

namespace Native

/-- In all stores with at least so many scopes, the function makes well-formed values of well-formed
arguments. -/
def KeepsWellFormed (scopes : Nat) (native : Native) : Prop :=
  ∀ n ≥ scopes, ∀ args v, (∀ arg ∈ args, WellFormed n arg) →
    (native.call args).result = .ok v → WellFormed n v

/-- The function that returns its argument keeps values well formed. -/
theorem keepsWellFormed_identity (scopes : Nat) :
  identity.KeepsWellFormed scopes
  := by
  intro n _ args v hargs hv
  apply every_call_identity (fun _ h => sound_of_isPlain n (isPlain_of_isDatum h)) hargs hv

end Native

namespace Store

variable {σ : Store}

/-! ### Scopes outward -/

/-- The scopes from a scope outward to one without a parent.  All of them are in the store. -/
inductive Outward (σ : Store) : ScopeId → List ScopeId → Prop
  | root {s : ScopeId} (hs : σ.HasScope s) (h : σ.parent? s = none) : Outward σ s [s]
  | child {s parent : ScopeId} {outer : List ScopeId} (hs : σ.HasScope s)
      (h : σ.parent? s = some parent) (houter : Outward σ parent outer) : Outward σ s (s :: outer)

/-- Every scope is younger than its parent. -/
def ParentsOlder (σ : Store) : Prop :=
  ∀ s parent, σ.parent? s = some parent → parent.index < s.index

namespace ParentsOlder

variable {s : ScopeId}

/-- The chain of a scope is the path outward from it, if there are steps enough for all scopes before it. -/
theorem outward_chainFrom (h : σ.ParentsOlder) {steps : Nat} (hs : σ.HasScope s)
    (hsteps : s.index ≤ steps) :
  σ.Outward s (σ.chainFrom steps s)
  := by
  induction steps generalizing s with
  | zero =>
    apply Outward.root hs
    rw [Option.eq_none_iff_forall_ne_some]
    intro parent hparent
    have holder := h s parent hparent
    omega
  | succ steps ih =>
    rw [chainFrom]
    split
    next hparent => apply Outward.root hs hparent
    next parent hparent =>
      have holder := h s parent hparent
      apply Outward.child hs hparent
      apply ih (holder.trans hs)
      omega

/-- On a path outward every scope is older than those before it. -/
theorem pairwise_outward (h : σ.ParentsOlder) {path : List ScopeId} (hpath : σ.Outward s path) :
  (∀ t ∈ path, t.index ≤ s.index) ∧ path.Pairwise fun t outer => outer.index < t.index
  := by
  induction hpath with
  | root =>
    constructor
    · simp
    · apply List.pairwise_singleton
  | @child s parent outer _ hparent _ ih =>
    obtain ⟨hle, hpairwise⟩ := ih
    have holder := h s parent hparent
    have hlt : ∀ t ∈ outer, t.index < s.index := fun t ht => (hle t ht).trans_lt holder
    rw [List.forall_mem_cons, List.pairwise_cons]
    exact ⟨⟨le_rfl, fun t ht => (hlt t ht).le⟩, hlt, hpairwise⟩

/-- The scopes outward come to an end, and no scope occurs twice among them. -/
theorem outward_chain (h : σ.ParentsOlder) (hs : σ.HasScope s) :
  σ.Outward s (σ.chain s) ∧ (σ.chain s).Nodup
  := by
  have hchain : σ.Outward s (σ.chain s) := h.outward_chainFrom hs le_rfl
  use hchain
  apply (h.pairwise_outward hchain).2.imp
  rintro t _ hlt rfl
  apply Nat.lt_irrefl _ hlt

/-- To bind a name leaves parents older. -/
theorem define (h : σ.ParentsOlder) (s : ScopeId) (name : String) (v : Value) :
  (σ.define s name v).ParentsOlder
  := by
  intro t parent hparent
  rw [parent?_define] at hparent
  apply h t parent hparent

/-- To add a scope leaves parents older, as its parent is there already. -/
theorem addScope (h : σ.ParentsOlder) {parent : Option ScopeId}
    (hparent : ∀ t ∈ parent, σ.HasScope t) :
  (σ.addScope parent).2.ParentsOlder
  := by
  intro s t ht
  by_cases hs : σ.HasScope s
  · rw [parent?, scope?_addScope hs, ← parent?] at ht
    apply h s t ht
  · have hle : σ.scopes.size ≤ s.index := Nat.le_of_not_lt hs
    rw [parent?, scope?, Store.addScope, Array.getElem?_push] at ht
    split at ht
    · apply (hparent t ht).trans_le hle
    · rw [Array.getElem?_eq_none hle] at ht
      cases ht

end ParentsOlder

/-! ### Well-formed stores -/

/-- What has to hold of a store apart from the values that are bound. -/
structure Consistent (σ : Store) : Prop where
  older : σ.ParentsOlder
  natives : ∀ native ∈ σ.natives, native.KeepsWellFormed σ.scopes.size

namespace Consistent

/-- What keeps the scopes, and has native functions that keep values well formed, is consistent. -/
theorem of_scopes_eq {τ : Store} (h : σ.Consistent) (hscopes : τ.scopes = σ.scopes)
    (hnatives : ∀ native ∈ τ.natives, native.KeepsWellFormed σ.scopes.size) :
  τ.Consistent
  := by
  constructor
  · intro s parent hparent
    rw [parent?, scope?, hscopes] at hparent
    apply h.older s parent hparent
  · rwa [hscopes]

/-- To bind a name keeps a store consistent. -/
theorem define (h : σ.Consistent) (s : ScopeId) (name : String) (v : Value) :
  (σ.define s name v).Consistent
  := by
  use h.older.define s name v
  rw [size_define]
  apply h.natives

/-- To add a scope keeps a store consistent. -/
theorem addScope (h : σ.Consistent) {parent : Option ScopeId}
    (hparent : ∀ t ∈ parent, σ.HasScope t) :
  (σ.addScope parent).2.Consistent
  := by
  use h.older.addScope hparent
  intro native hnative n hn
  rw [size_addScope] at hn
  apply h.natives native hnative n (Nat.le_of_succ_le hn)

/-- To register a native function that keeps values well formed keeps a store consistent. -/
theorem addNative (h : σ.Consistent) {native : Native}
    (hnative : native.KeepsWellFormed σ.scopes.size) :
  (σ.addNative native).2.Consistent
  := by
  have hscopes : (σ.addNative native).2.scopes = σ.scopes := rfl
  apply h.of_scopes_eq hscopes
  intro native' hnative'
  rcases Array.mem_push.mp hnative' with hmem | rfl
  · apply h.natives native' hmem
  · apply hnative

end Consistent

/-- What is evaluated and what is bound has to be well formed alike. -/
def wellFormedness : Discipline where
  code := Sound
  data := Sound
  store := Consistent
  change σ := σ
  code_mono := Sound.mono
  data_mono := Sound.mono
  data_of_code h := h
  data_plain n _ h := sound_of_isPlain n h
  data_map _ _ h := h
  data_procedure hparams hscope _ _ := ⟨hparams, hscope⟩
  code_procedure h := ⟨fun _ _ => trivial, (every_procedure.mp h).2⟩
  data_native h hnative := h.natives _ (Array.mem_of_getElem? hnative) _ le_rfl _ _
  store_of_scopes_eq hscopes hnatives h := h.of_scopes_eq hscopes (hnatives ▸ h.natives)
  store_define s name v h := h.define s name v
  store_addScope {σ p} h hp := by
    apply h.addScope
    rintro _ ⟨⟩
    apply hp.2
  find_change _ _ := rfl
  native?_change _ _ := rfl
  define_change _ _ _ := rfl
  addScope_change _ _ := rfl
  addProcedure_change _ _ _ _ _ := rfl
  write_change _ _ := rfl

/-- All is well formed in the empty store, in which there is nothing. -/
theorem holds_empty :
  wellFormedness.Holds empty
  := by
  constructor
  · constructor
    · intro s parent hparent
      simp [parent?, scope?, empty] at hparent
    · intro native hnative
      simp [empty] at hnative
  · intro s name v hv
    simp [getLocal?, scope?, empty] at hv

/-! ### Reachable stores -/

/-- The stores that come from the empty one.  An expression that is evaluated was read, or it is
well formed. -/
inductive Reachable : Store → Prop
  | empty : Reachable empty
  | root {σ : Store} (h : Reachable σ) : Reachable (σ.addScope none).2
  | child {σ : Store} (h : Reachable σ) {s : ScopeId} (hs : σ.HasScope s) :
    Reachable (σ.addScope (some s)).2
  | define {σ : Store} (h : Reachable σ) (s : ScopeId) (name : String) {v : Value}
      (hv : WellFormed σ.scopes.size v) : Reachable (σ.define s name v)
  | addNative {σ : Store} (h : Reachable σ) {native : Native}
      (hnative : native.KeepsWellFormed σ.scopes.size) : Reachable (σ.addNative native).2
  | evalForm {σ τ : Store} (h : Reachable σ) {reader reader' : Reader} {e : Value}
      (hread : reader.next = (.ok (some e), reader')) {depth : Nat} {s : ScopeId}
      (hs : σ.HasScope s) {r : Except Error Value} (hends : Eval.Ends depth s e σ r τ) :
    Reachable τ
  | eval {σ τ : Store} (h : Reachable σ) {e : Value} (he : WellFormed σ.scopes.size e)
      {depth : Nat} {s : ScopeId} (hs : σ.HasScope s) {r : Except Error Value}
      (hends : Eval.Ends depth s e σ r τ) : Reachable τ

namespace Reachable

/-- All is well formed in a reachable store. By induction on how it came about. -/
theorem holds (h : σ.Reachable) :
  wellFormedness.Holds σ
  := by
  induction h with
  | empty => apply holds_empty
  | root h ih =>
    apply ih.addScope
    apply ih.store.addScope
    rintro _ ⟨⟩
  | child h hs ih =>
    apply ih.addScope
    apply ih.store.addScope
    rintro _ ⟨⟩
    apply hs
  | define h s name hv ih => apply ih.define s name hv
  | addNative h hnative ih => exact ⟨ih.store.addNative hnative, ih.bindings⟩
  | evalForm h hread hs hends ih =>
    apply (hends.holds ih hs _).1
    apply Reader.wellFormed_of_next hread
  | eval h he hs hends ih => apply (hends.holds ih hs he).1

/-- A native function is registered by binding it under its name. -/
theorem register (h : σ.Reachable) (s : ScopeId) {native : Native}
    (hnative : native.KeepsWellFormed σ.scopes.size) :
  (σ.register s native).Reachable
  := by
  apply (h.addNative hnative).define s native.name
  apply WellFormed.of_isPlain rfl rfl

/-- To bind several names to well-formed values leads to a reachable store. -/
theorem defineAll (h : σ.Reachable) (s : ScopeId) {bindings : List (String × Value)}
    (hbindings : ∀ binding ∈ bindings, WellFormed σ.scopes.size binding.2) :
  (σ.defineAll s bindings).Reachable
  := by
  induction bindings generalizing σ with
  | nil => apply h
  | cons binding bindings ih =>
    obtain ⟨hv, hbindings⟩ := List.forall_mem_cons.mp hbindings
    apply ih (h.define s binding.1 hv)
    rwa [size_define]

/-- A global scope is added by binding the primitives and the special forms in a new scope. -/
theorem addGlobal (h : σ.Reachable) :
  σ.addGlobal.2.Reachable
  := by
  apply h.root.defineAll
  intro binding hbinding
  rcases List.mem_append.mp hbinding with hbinding | hbinding
  · obtain ⟨p, -, rfl⟩ := List.mem_map.mp hbinding
    apply WellFormed.of_isPlain rfl rfl
  · obtain ⟨form, -, rfl⟩ := List.mem_map.mp hbinding
    apply WellFormed.of_isPlain rfl rfl

/-- The value of an expression that is evaluated in a reachable store is well formed, so that it can
be bound or stand in an expression. -/
theorem wellFormed_of_ends (h : σ.Reachable) {depth : Nat} {s : ScopeId} (hs : σ.HasScope s)
    {e v : Value} (he : WellFormed σ.scopes.size e) {τ : Store}
    (hends : Eval.Ends depth s e σ (.ok v) τ) :
  WellFormed τ.scopes.size v
  := (hends.holds h.holds hs he).2 v rfl

/-- In a reachable store the scopes outward from a scope come to an end and none occurs twice among
them, so that lookups end, which go along them.  Of all that occurs in a binding, be it in the body
of a procedure, the procedures have captured scopes that there are and have distinct parameters, and
in the maps no two keys are equal. -/
theorem wellFormed (h : σ.Reachable) :
  (∀ s, σ.HasScope s → σ.Outward s (σ.chain s) ∧ (σ.chain s).Nodup) ∧
    ∀ s name v, σ.getLocal? s name = some v → ∀ w : Value, w.OccursIn v →
      (∀ p, w = .procedure p → σ.HasScope p.scope ∧ p.params.Nodup) ∧
        ∀ entries, w = .map entries → entries.Pairwise fun entry later =>
          entry.1.equal later.1 = false ∧ later.1.equal entry.1 = false
  := by
  constructor
  · intro s hs
    apply h.holds.store.older.outward_chain hs
  · intro s name v hv w hw
    have hwellFormed : WellFormed σ.scopes.size w :=
      Every.of_occursIn (h.holds.bindings s name v hv) hw
    constructor
    · rintro p rfl
      have hsound := Every.self hwellFormed
      exact ⟨hsound.2, hsound.1⟩
    · rintro entries rfl
      apply hwellFormed.pairwise_unequal

/-- A procedure goes through a native function and is bound in the scope that it captured. -/
theorem wellFormed_captured :
  ∃ σ p, Reachable σ ∧ σ.getLocal? ⟨1⟩ "f" = some (.procedure p) ∧ p.scope = ⟨1⟩ ∧
    σ.Outward p.scope (σ.chain p.scope)
  := by
  obtain ⟨σ, hσ⟩ : ∃ σ, σ
      = (Store.empty.addGlobal.2.addScope (some ⟨0⟩)).2.register ⟨1⟩ Native.identity := ⟨_, rfl⟩
  obtain ⟨reader, hreader⟩ : ∃ reader, reader
      = Reader.ofSource "(def f (identity (fn [x] {x f})))" Read.nestingLimit := ⟨_, rfl⟩
  obtain ⟨e, he⟩ : ∃ e, e = Value.list [.symbol "def", .symbol "f",
      .list [.symbol "identity", .list [.symbol "fn", .vector [.symbol "x"],
        .map [(.symbol "x", .symbol "f")]]]] := ⟨_, rfl⟩
  have hread : reader.next.1 = .ok (some e) := by
    rw [hreader, he]
    cbv
  have hbound : ((Eval.expression 20 0 ⟨1⟩ e).outcome σ).bind (fun o => o.2.getLocal? ⟨1⟩ "f")
      = some (.procedure ⟨0, none, ["x"], [.map [(.symbol "x", .symbol "f")]], ⟨1⟩⟩) := by
    rw [hσ, he]
    -- all names of the global scope are passed on the way to the ones that are looked up
    set_option maxRecDepth 2000 in rfl
  have hsize : Store.empty.addGlobal.2.scopes.size = 1 := by
    rw [Store.addGlobal, size_defineAll]
    rfl
  have hσReachable : Reachable σ := by
    rw [hσ]
    apply Reachable.register _ _ (Native.keepsWellFormed_identity _)
    apply Reachable.child Reachable.empty.addGlobal
    rw [HasScope, hsize]
    apply Nat.one_pos
  have hscope : σ.HasScope ⟨1⟩ := by
    rw [hσ, Store.register, hasScope_define]
    change 1 < (Store.empty.addGlobal.2.addScope (some ⟨0⟩)).2.scopes.size
    rw [size_addScope, hsize]
    apply Nat.one_lt_two
  obtain ⟨⟨r, τ⟩, hends, hf⟩ := Option.bind_eq_some_iff.mp hbound
  have hτReachable : Reachable τ := hσReachable.evalForm (Prod.ext hread rfl) hscope ⟨20, hends⟩
  obtain ⟨houtward, hbindings⟩ := wellFormed hτReachable
  have hcaptured := ((hbindings ⟨1⟩ "f" _ hf _ .self).1 _ rfl).1
  exact ⟨τ, _, hτReachable, hf, rfl, (houtward _ hcaptured).1⟩

end Reachable

end Store

end PocketLisp
