import PocketLisp.Proofs.Store.History
import PocketLisp.Proofs.Store.Lookup

/-!
# Calls of procedures

A call of a procedure opens one new scope inside the scope that the procedure captured, and binds in it
each parameter to the argument in the same place.  What a name means in there is settled by the
parameters and by the captured scope as it is when the name is looked up; the scope of the caller plays
no part.

No argument is lost, since the parameters are distinct: the form that made the procedure refused any
others.
-/

namespace PocketLisp

/-! ### The scope of a call -/

namespace Store

/-- The store with one scope more, which has the bindings and lies in the scope `parent`. -/
def push (σ : Store) (bindings : Bindings) (parent : ScopeId) : Store :=
  { σ with scopes := σ.scopes.push ⟨bindings, some parent⟩ }

/-- A name that is bound in the new scope might have been there from the beginning. -/
theorem define_push (σ : Store) (bindings : Bindings) (parent : ScopeId) (name : String)
    (v : Value) :
  (σ.push bindings parent).define ⟨σ.scopes.size⟩ name v = σ.push (bindings.insert name v) parent
  := by
  have hscopes : (σ.scopes.push ⟨bindings, some parent⟩).modify σ.scopes.size
      (fun scope => { scope with bindings := scope.bindings.insert name v })
        = σ.scopes.push ⟨bindings.insert name v, some parent⟩ := by
    apply Array.ext_getElem?
    intro i
    rw [Array.getElem?_modify, Array.getElem?_push, Array.getElem?_push]
    by_cases hi : σ.scopes.size = i
    · simp [hi]
    · simp [hi, Ne.symm hi]
  simp only [define, push, hscopes]

/-- Binding names in a new scope gives it these bindings at once. -/
theorem defineAll_push (σ : Store) (bindings : Bindings) (parent : ScopeId)
    (pairs : List (String × Value)) :
  (σ.push bindings parent).defineAll ⟨σ.scopes.size⟩ pairs
    = σ.push (bindings.insertMany pairs) parent
  := by
  induction pairs generalizing bindings with
  | nil => rw [defineAll, Std.ExtTreeMap.insertMany_nil]
  | cons pair pairs ih =>
    rw [defineAll, define_push, ih, Std.ExtTreeMap.insertMany_cons]

/-- The new scope has the bindings that it was pushed with. -/
theorem scope?_push (σ : Store) (bindings : Bindings) (parent : ScopeId) :
  (σ.push bindings parent).scope? ⟨σ.scopes.size⟩ = some ⟨bindings, some parent⟩
  := by
  rw [scope?, push, Array.getElem?_push, if_pos rfl]

namespace ParentsOlder

/-- A new scope comes after its parent. -/
theorem push {σ : Store} (h : σ.ParentsOlder) {parent : ScopeId} (hparent : σ.HasScope parent)
    (bindings : Bindings) :
  (σ.push bindings parent).ParentsOlder
  := by
  have haddScope : (σ.addScope (some parent)).2.ParentsOlder := by
    apply h.addScope
    rintro _ ⟨⟩
    apply hparent
  -- the bindings do not matter for parents
  intro s outer houter
  apply haddScope s outer
  rw [parent?, scope?, Store.push, Array.getElem?_push] at houter
  rw [parent?, scope?, Store.addScope, Array.getElem?_push]
  split at houter
  next hi => rwa [if_pos hi]
  next hi => rwa [if_neg hi]

/-- What a name means in a scope: what it is bound to there, and else what it means in the parent. -/
theorem get?_of_scope? {σ : Store} (h : σ.ParentsOlder) {s parent : ScopeId}
    {bindings : Bindings} (hs : σ.scope? s = some ⟨bindings, some parent⟩) (name : String) :
  σ.get? s name = bindings[name]?.or (σ.get? parent name)
  := by
  have hparent : σ.parent? s = some parent := by
    rw [parent?, hs, Option.bind_some]
  rw [h.get?_of_parent hparent, getLocal?, hs, Option.bind_some]

end ParentsOlder

end Store

/-- Distinct names that are bound to values are bound to the values in the same places. -/
theorem Bindings.getElem?_insertMany_zip {names : List String} {values : List Value}
    (hnodup : names.Nodup) (hlength : values.length = names.length) (name : String) (v : Value) :
  ((∅ : Bindings).insertMany (names.zip values))[name]? = some v ↔
    ∃ i : Nat, names[i]? = some name ∧ values[i]? = some v
  := by
  have hnames : (names.zip values).map Prod.fst = names := List.map_fst_zip hlength.ge
  have hdistinct : (names.zip values).Pairwise fun pair later => ¬ compare pair.1 later.1 = .eq := by
    rw [← hnames, List.Nodup, List.pairwise_map] at hnodup
    apply hnodup.imp
    intro pair later hne heq
    apply hne (Std.LawfulEqCmp.compare_eq_iff_eq.mp heq)
  have hmem {v : Value} (h : (name, v) ∈ names.zip values) :
      ((∅ : Bindings).insertMany (names.zip values))[name]? = some v :=
    Std.ExtTreeMap.getElem?_insertMany_list_of_mem Std.ReflCmp.compare_self hdistinct h
  constructor
  · intro hv
    have hname : name ∈ names := by
      by_contra hname
      rw [Std.ExtTreeMap.getElem?_insertMany_list_of_contains_eq_false] at hv
      · simp at hv
      · simpa [hnames] using hname
    rw [← hnames] at hname
    obtain ⟨⟨_, w⟩, hpair, rfl⟩ := List.mem_map.mp hname
    obtain rfl : w = v := Option.some.inj ((hmem hpair).symm.trans hv)
    obtain ⟨i, hi⟩ := List.mem_iff_getElem?.mp hpair
    use i, (List.getElem?_zip_eq_some.mp hi).1
    apply (List.getElem?_zip_eq_some.mp hi).2
  · rintro ⟨i, hname, hv⟩
    apply hmem
    apply List.mem_iff_getElem?.mpr ⟨i, List.getElem?_zip_eq_some.mpr ⟨hname, hv⟩⟩

/-! ### Procedures that forms make -/

/-- From the store `σ` on, a form that is evaluated in the scope `s` makes the procedure and leaves the
store `τ`.  Either the procedure is the value, or it is bound under its name in the scope. -/
inductive Step.Makes (s : ScopeId) (p : Procedure) (σ τ : Store) : Prop
  | lambda (eval : Value → Eval Value) (operands : List Value)
      (h : (SpecialForm.lambda.step eval s operands).outcome σ
        = some (.ok (.done (.procedure p)), τ))
  | defineProcedure (eval : Value → Eval Value) (operands : List Value) (name : String)
      (h : (SpecialForm.defineProcedure.step eval s operands).outcome σ
        = some (.ok (.done (.symbol name)), τ))
      (hp : τ.getLocal? s name = some (.procedure p))

open Eval in
/-- A procedure that is made captures the scope of the form, has parameters of different names, and changes
no scope. -/
theorem SpecialForm.of_makeProcedure {form : SpecialForm} {s : ScopeId} {name : Option String}
    {params v : Value} {body : List Value} {σ τ : Store}
    (h : (form.makeProcedure s name params body).outcome σ = some (.ok v, τ)) :
  (∀ p, v = .procedure p → p.scope = s ∧ p.params.Nodup) ∧ τ.scopes = σ.scopes
  := by
  rcases outcome_bind_eq_some.mp h with ⟨e, -, ⟨⟩⟩ | ⟨names, υ, hnames, hmake⟩
  rw [outcome_ofExcept] at hnames
  obtain ⟨hparams, rfl⟩ := Prod.mk.inj (Option.some.inj hnames)
  rw [outcome_modifyGet] at hmake
  cases hmake
  constructor
  · rintro p ⟨⟩
    exact ⟨rfl, (parameters_eq_ok hparams).1⟩
  · rfl

namespace Step.Makes

variable {s : ScopeId} {p : Procedure} {σ τ : Store}

open Eval

/-- The procedure has captured the scope that the form was evaluated in, and its parameters are
distinct.  Making it leaves a later store. -/
theorem captures (h : Makes s p σ τ) :
  p.scope = s ∧ p.params.Nodup ∧ σ.AnyLater τ
  := by
  cases h with
  | lambda eval operands h =>
    cases operands with
    | nil => cases h
    | cons params body =>
      rcases outcome_bind_eq_some.mp h with ⟨e, -, ⟨⟩⟩ | ⟨v, υ, hmake, hdone⟩
      cases hdone
      obtain ⟨hp, hscopes⟩ := SpecialForm.of_makeProcedure hmake
      obtain ⟨hscope, hnodup⟩ := hp p rfl
      exact ⟨hscope, hnodup, Store.Later.refl.aside hscopes⟩
  | defineProcedure eval operands name h hp =>
    simp only [SpecialForm.step] at h
    split at h
    next =>
      rcases outcome_bind_eq_some.mp h with ⟨e, -, ⟨⟩⟩ | ⟨v, υ, hmake, hbind⟩
      cases hbind
      obtain ⟨hv, hscopes⟩ := SpecialForm.of_makeProcedure hmake
      rw [Store.getLocal?_define, if_pos ⟨rfl, rfl⟩] at hp
      obtain ⟨-, -, rfl⟩ := Option.map_eq_some_iff.mp hp
      obtain ⟨hscope, hnodup⟩ := hv p rfl
      exact ⟨hscope, hnodup, (Store.Later.refl.aside hscopes).define trivial _ _⟩
    · cases h
    · cases h

end Step.Makes

/-! ### Calls -/

namespace Step

open Eval

variable {p : Procedure} {args : List Value} {σ : Store}

/-- With the wrong number of arguments the call fails at once and leaves the store alone. -/
theorem outcome_apply_of_length_ne (h : args.length ≠ p.params.length) :
  (apply (.procedure p) args).outcome σ
    = some (.error (.ofArity (.exact p.params.length) args.length), σ)
  := by
  have hvalidate : (Arity.exact p.params.length).validate args.length
      = .error (.ofArity (.exact p.params.length) args.length) := by
    rw [Arity.validate, if_neg (mt Arity.accepts_exact_iff.mp h)]
  rw [apply, map_eq_pure_bind, bindParameters, hvalidate, outcome_bind, outcome_bind,
    outcome_ofExcept]
  rfl

/-- With the right number it leads into the body, in a new scope in the captured one that binds each
parameter to its argument. -/
theorem outcome_apply_of_length_eq (h : args.length = p.params.length) :
  (apply (.procedure p) args).outcome σ
    = some (.ok (.enter p ⟨σ.scopes.size⟩),
        σ.push ((∅ : Bindings).insertMany (p.params.zip args)) p.scope)
  := by
  have hvalidate : (Arity.exact p.params.length).validate args.length = .ok () := by
    rw [Arity.validate, if_pos (Arity.accepts_exact_iff.mpr h)]
  rw [apply, map_eq_pure_bind, bindParameters, hvalidate, ← σ.defineAll_push]
  rfl

/-- Whoever calls, and from whatever scope, the call is the same once the operator and the operands
have their values. -/
theorem outcome_ofCall {eval : Value → Eval Value} {operator : Value} {operands : List Value}
    {ρ υ : Store} (hoperator : (eval operator).outcome ρ = some (.ok (.procedure p), υ))
    (hoperands : (operands.mapM eval).outcome υ = some (.ok args, σ)) (caller : ScopeId) :
  (ofCall eval caller operator operands).outcome ρ = (apply (.procedure p) args).outcome σ
  := by
  rw [ofCall, outcome_bind, hoperator]
  change (operands.mapM eval >>= apply (.procedure p)).outcome υ = _
  rw [outcome_bind, hoperands, Option.bind_some]

/-- Let a form make a procedure in a scope, and let it be called in any later store.

With a wrong number of arguments the call fails and leaves the store alone.  With the right number it
adds one scope, inside the one that the procedure captured, which binds each parameter to the argument
in the same place and nothing else.  At any later time, as long as nothing more was bound in the new
scope, a parameter means its argument there, and any other name what it then means in the captured
scope.  In what scope the call stands makes no difference. -/
theorem apply_lexical {s : ScopeId} {σ₀ σ₁ : Store} (holder : σ₀.ParentsOlder)
    (hs : σ₀.HasScope s) (hmade : Makes s p σ₀ σ₁) (hlater : σ₁.AnyLater σ) (args : List Value) :
  p.scope = s ∧
    (args.length ≠ p.params.length →
      (apply (.procedure p) args).outcome σ
        = some (.error (.arity (.exact p.params.length) args.length none), σ)) ∧
    (args.length = p.params.length → ∃ scope bindings,
      ¬ σ.HasScope scope ∧
      (apply (.procedure p) args).outcome σ = some (.ok (.enter p scope), σ.push bindings s) ∧
      (σ.push bindings s).scope? scope = some ⟨bindings, some s⟩ ∧
      (∀ name v, bindings[name]? = some v ↔
        ∃ i : Nat, p.params[i]? = some name ∧ args[i]? = some v) ∧
      ∀ υ, Store.Later (· ≠ scope) (σ.push bindings s) υ → ∀ name,
        (∀ (i : Nat) v, p.params[i]? = some name → args[i]? = some v →
          υ.get? scope name = some v) ∧
        (name ∉ p.params → υ.get? scope name = υ.get? s name)) ∧
    ∀ eval operator operands ρ υ, (eval operator).outcome ρ = some (.ok (.procedure p), υ) →
      (operands.mapM eval).outcome υ = some (.ok args, σ) →
      ∀ caller, (ofCall eval caller operator operands).outcome ρ
        = (apply (.procedure p) args).outcome σ
  := by
  obtain ⟨rfl, hnodup, hlater₁⟩ := hmade.captures
  have holder : σ.ParentsOlder := hlater.older (hlater₁.older holder)
  have hscope : σ.HasScope p.scope := hlater.hasScope (hlater₁.hasScope hs)
  refine ⟨rfl, outcome_apply_of_length_ne, ?_, ?_⟩
  · intro hlength
    have hbindings := Bindings.getElem?_insertMany_zip hnodup hlength
    have hnew := σ.scope?_push ((∅ : Bindings).insertMany (p.params.zip args)) p.scope
    refine ⟨⟨σ.scopes.size⟩, _, Nat.lt_irrefl _, outcome_apply_of_length_eq hlength, hnew,
      hbindings, ?_⟩
    intro υ hυ name
    have hsame := hυ.scope?_eq (Store.hasScope_of_scope? hnew) (fun hne => hne rfl)
    have hget := (hυ.older (holder.push hscope _)).get?_of_scope? (hsame.trans hnew) name
    rw [hget]
    constructor
    · intro i v hname hv
      rw [(hbindings name v).mpr ⟨i, hname, hv⟩, Option.some_or]
    · intro hname
      have hnone : ((∅ : Bindings).insertMany (p.params.zip args))[name]? = none := by
        rw [Option.eq_none_iff_forall_ne_some]
        intro v hv
        obtain ⟨i, hi, -⟩ := (hbindings name v).mp hv
        apply hname (List.mem_of_getElem? hi)
      rw [hnone, Option.none_or]
  · intro eval operator operands ρ υ hoperator hoperands
    apply outcome_ofCall hoperator hoperands

/-- A procedure is made in an inner scope, and `y` is bound anew in the outermost one before it is
called.  In the scope of the call `y` then has its new value, and `x` is the argument, although
`x` is bound elsewhere all the while, before the call and after it. -/
theorem apply_lexical_shadowing :
  ∃ p σ, σ.get? ⟨2⟩ "x" = some (.integer 1) ∧
    (apply (.procedure p) [.integer 10]).outcome σ
      = some (.error (.arity (.exact 2) 1 none), σ) ∧
    ∃ scope bindings,
      (apply (.procedure p) [.integer 10, .integer 20]).outcome σ
        = some (.ok (.enter p scope), σ.push bindings ⟨2⟩) ∧
      ((σ.push bindings ⟨2⟩).define ⟨2⟩ "x" (.integer 7)).get? scope "x" = some (.integer 10) ∧
      ((σ.push bindings ⟨2⟩).define ⟨2⟩ "x" (.integer 7)).get? scope "y"
        = ((σ.push bindings ⟨2⟩).define ⟨2⟩ "x" (.integer 7)).get? ⟨2⟩ "y" ∧
      σ.get? ⟨2⟩ "y" = some (.integer 5)
  := by
  have holder := Store.reachable_shadowing.holds.store.older
  have hscope : Store.shadowing.HasScope ⟨2⟩ := Store.hasScope_shadowing (by decide)
  obtain ⟨p, hp⟩ : ∃ p : Procedure, p = ⟨0, none, ["x", "z"], [.symbol "y"], ⟨2⟩⟩ := ⟨_, rfl⟩
  obtain ⟨σ₁, hσ₁⟩ : ∃ σ₁, σ₁ = { Store.shadowing with procedures := 1 } := ⟨_, rfl⟩
  obtain ⟨σ, hσ⟩ : ∃ σ, σ = σ₁.define ⟨0⟩ "y" (.integer 5) := ⟨_, rfl⟩
  have hmade : Makes ⟨2⟩ p Store.shadowing σ₁ := by
    rw [hp, hσ₁]
    exact .lambda pure [.vector [.symbol "x", .symbol "z"], .symbol "y"] rfl
  have hlater : σ₁.AnyLater σ := by
    rw [hσ]
    apply Store.Later.refl.define trivial
  refine ⟨p, σ, by rw [hσ, hσ₁]; rfl, ?_, ?_⟩
  · have hcount := (apply_lexical holder hscope hmade hlater [.integer 10]).2.1
    rw [hp] at hcount ⊢
    apply hcount
    decide
  · have hcall := (apply_lexical holder hscope hmade hlater [.integer 10, .integer 20]).2.2.1
    obtain ⟨scope, bindings, hnew, happly, -, -, hlookup⟩ := hcall (by rw [hp]; rfl)
    have hne : (⟨2⟩ : ScopeId) ≠ scope := by
      rintro rfl
      apply hnew (hlater.hasScope (hmade.captures.2.2.hasScope hscope))
    have hafter : Store.Later (· ≠ scope) (σ.push bindings ⟨2⟩)
        ((σ.push bindings ⟨2⟩).define ⟨2⟩ "x" (.integer 7)) := by
      apply Store.Later.define .refl
      apply hne
    have hlookup := hlookup _ hafter
    refine ⟨scope, bindings, happly, ?_, ?_, by rw [hσ, hσ₁]; rfl⟩
    · apply (hlookup "x").1 0
      · rw [hp]; rfl
      · rfl
    · apply (hlookup "y").2
      rw [hp]
      decide

end Step

end PocketLisp
