import PocketLisp.Proofs.Eval.Discipline

/-!
# Runs under a discipline

An evaluation obeys a discipline if it keeps to it in every store that does, and does not see the
change of the store.  All operations of the evaluator obey if they are given code where they evaluate
and data elsewhere, and from them forms, calls, steps and whole runs.
-/

namespace PocketLisp

open Value

/-! ### Evaluations under a discipline -/

namespace Eval

variable {d : Discipline} {α β : Type} {n : Nat} {Q : Nat → α → Prop} {R : Nat → β → Prop}

/-- In every store that keeps the discipline and has at least `n` scopes, the evaluation does not
see the change, leaves a store that keeps the discipline and has no fewer scopes, and if it has a
result, `Q` holds of that. -/
def Obeys (d : Discipline) (n : Nat) (x : Eval α) (Q : (scopes : Nat) → α → Prop) : Prop :=
  ∀ σ, n ≤ σ.scopes.size → d.Holds σ →
    x.outcome (d.change σ) = (x.outcome σ).map (fun o => (o.1, d.change o.2)) ∧
    ∀ r τ, x.outcome σ = some (r, τ) →
      σ.scopes.size ≤ τ.scopes.size ∧ d.Holds τ ∧ ∀ a, r = .ok a → Q τ.scopes.size a

namespace Obeys

/-- Where the fuel runs out there is nothing to obey. -/
theorem outOfFuel :
  Obeys d n Eval.outOfFuel Q
  := by
  intro σ _ _
  constructor
  · rfl
  · rintro r τ ⟨⟩

/-- A look at the store obeys if it sees the same after the change. -/
theorem ask {f : Store → Except Error α}
    (h : ∀ σ, n ≤ σ.scopes.size → d.Holds σ →
      f (d.change σ) = f σ ∧ ∀ a, f σ = .ok a → Q σ.scopes.size a) :
  Obeys d n (Eval.ask f) Q
  := by
  intro σ hn hσ
  obtain ⟨hchange, hf⟩ := h σ hn hσ
  constructor
  · rw [outcome_ask, outcome_ask, hchange]
    rfl
  · rintro r τ ⟨⟩
    exact ⟨le_rfl, hσ, hf⟩

/-- What is given obeys if it satisfies `Q` in every later store. -/
theorem ofExcept {result : Except Error α} (h : ∀ a, result = .ok a → ∀ m ≥ n, Q m a) :
  Obeys d n (Eval.ofExcept result) Q
  := by
  apply ask
  intro σ hn _
  use rfl
  intro a ha
  apply h a ha _ hn

/-- A value that satisfies `Q` in every later store obeys. -/
theorem pure {a : α} (h : ∀ m ≥ n, Q m a) :
  Obeys d n (Pure.pure a) Q
  := by
  change Obeys d n (Eval.ofExcept (.ok a)) Q
  apply ofExcept
  rintro _ ⟨⟩
  apply h

/-- To fail obeys, with no value to speak of. -/
theorem throw (e : Error) :
  Obeys d n (MonadExcept.throw e) Q
  := by
  change Obeys d n (Eval.ofExcept (.error e)) Q
  apply ofExcept
  nofun

/-- A change of the store obeys if the discipline's change may be made before it or after it. -/
theorem modifyGet {f : Store → α × Store}
    (h : ∀ σ, n ≤ σ.scopes.size → d.Holds σ →
      f (d.change σ) = ((f σ).1, d.change (f σ).2) ∧ σ.scopes.size ≤ (f σ).2.scopes.size ∧
        d.Holds (f σ).2 ∧ Q (f σ).2.scopes.size (f σ).1) :
  Obeys d n (Eval.modifyGet f) Q
  := by
  intro σ hn hσ
  obtain ⟨hchange, hsize, hholds, hQ⟩ := h σ hn hσ
  constructor
  · rw [outcome_modifyGet, outcome_modifyGet, hchange]
    rfl
  · rintro r τ ⟨⟩
    use hsize, hholds
    rintro _ ⟨⟩
    apply hQ

/-- A sequence obeys if both parts do, the second in the store that the first leaves. -/
theorem bind {x : Eval α} {f : α → Eval β} (h : Obeys d n x Q)
    (hf : ∀ m ≥ n, ∀ a, Q m a → Obeys d m (f a) R) :
  Obeys d n (x >>= f) R
  := by
  intro σ hn hσ
  obtain ⟨hchange, houtcome⟩ := h σ hn hσ
  rw [outcome_bind, outcome_bind, hchange]
  cases hx : x.outcome σ with
  | none =>
    constructor
    · rfl
    · rintro _ _ ⟨⟩
  | some o =>
    obtain ⟨r, υ⟩ := o
    obtain ⟨hsize, hυ, hQ⟩ := houtcome r υ hx
    cases r with
    | error e =>
      constructor
      · rfl
      · rintro _ _ ⟨⟩
        use hsize, hυ
        rintro _ ⟨⟩
    | ok a =>
      obtain ⟨hchange, houtcome⟩ := hf _ (hn.trans hsize) a (hQ a rfl) υ le_rfl hυ
      constructor
      · apply hchange
      · intro r τ hr
        obtain ⟨hsize', hτ, hR⟩ := houtcome r τ hr
        exact ⟨hsize.trans hsize', hτ, hR⟩

/-- A change of the store, before what comes next. -/
theorem modify {f : Store → Store} {g : Unit → Eval β}
    (h : ∀ σ, n ≤ σ.scopes.size → d.Holds σ →
      f (d.change σ) = d.change (f σ) ∧ σ.scopes.size ≤ (f σ).scopes.size ∧ d.Holds (f σ))
    (hg : ∀ m ≥ n, Obeys d m (g ()) R) :
  Obeys d n (Eval.modify f >>= g) R
  := by
  apply bind (Q := fun _ _ => True)
  · apply modifyGet
    intro σ hn hσ
    obtain ⟨hchange, hsize, hholds⟩ := h σ hn hσ
    exact ⟨Prod.ext rfl hchange, hsize, hholds, trivial⟩
  · intro m hm _ _
    apply hg m hm

/-- A check, before what comes next. -/
theorem check (result : Except Error Unit) {g : Unit → Eval β} (hg : ∀ m ≥ n, Obeys d m (g ()) R) :
  Obeys d n (Eval.ofExcept result >>= g) R
  := by
  apply bind (Q := fun _ _ => True)
  · apply ofExcept
    intros
    trivial
  · intro m hm _ _
    apply hg m hm

/-- The names in the errors are the same after the change. -/
theorem within (expression : Value) {x : Eval α} (h : Obeys d n x Q) :
  Obeys d n (x.within expression) Q
  := by
  intro σ hn hσ
  obtain ⟨hchange, houtcome⟩ := h σ hn hσ
  constructor
  · rw [outcome_within, outcome_within, hchange, Option.map_map, Option.map_map]
    rfl
  · intro r τ hr
    obtain ⟨r₀, hx, rfl⟩ := outcome_within_eq_some.mp hr
    obtain ⟨hsize, hτ, hQ⟩ := houtcome r₀ τ hx
    use hsize, hτ
    intro a ha
    cases r₀ with
    | error e => cases ha
    | ok b => apply hQ a ha

end Obeys

/-- The evaluation results in data. -/
abbrev ObeysData (d : Discipline) (n : Nat) (x : Eval Value) : Prop :=
  Obeys d n x fun m v => Every (d.data m) v

/-- The evaluation goes on with code in a scope, if it does. -/
abbrev ObeysStep (d : Discipline) (n : Nat) (x : Eval Step) : Prop :=
  Obeys d n x d.HoldsAt

/-- The evaluator evaluates code to data in all stores that have the scope `s`. -/
def ObeysAll (d : Discipline) (s : ScopeId) (eval : Value → Eval Value) : Prop :=
  ∀ {n : Nat} {e : Value}, s.index < n → Every (d.code n) e → ObeysData d n (eval e)

namespace ObeysData

variable {s : ScopeId} {eval : Value → Eval Value}

/-- Data that is given stays data. -/
theorem value {v : Value} (h : Every (d.data n) v) :
  ObeysData d n (Pure.pure v)
  := by
  apply Obeys.pure
  intro m hm
  apply Discipline.every_data_mono hm h

/-- Code that is evaluated in a row becomes a row of data. -/
theorem mapM (h : ObeysAll d s eval) (hs : s.index < n) {es : List Value}
    (hes : ∀ e ∈ es, Every (d.code n) e) :
  Obeys d n (es.mapM eval) fun m vs => ∀ v ∈ vs, Every (d.data m) v
  := by
  induction es generalizing n with
  | nil =>
    apply Obeys.pure
    rintro m _ v ⟨⟩
  | cons e es ih =>
    obtain ⟨he, hes⟩ := List.forall_mem_cons.mp hes
    rw [List.mapM_cons]
    apply Obeys.bind (h hs he)
    intro m hm v hv
    apply Obeys.bind (ih (by omega) fun e' he' => Discipline.every_code_mono hm (hes e' he'))
    intro k hk vs hvs
    apply Obeys.pure
    intro j hj
    rw [List.forall_mem_cons]
    use Discipline.every_data_mono (hk.trans hj) hv
    intro w hw
    apply Discipline.every_data_mono hj (hvs w hw)

/-- The entries are data, and so is the map that they make up. -/
theorem entries (h : ObeysAll d s eval) (hs : s.index < n) {evaluated : Entries}
    {unevaluated : List (Value × Value)} (hkeys : Entries.KeysUnequal evaluated)
    (hevaluated : ∀ entry ∈ evaluated, Every (d.data n) entry.1 ∧ Every (d.data n) entry.2)
    (hunevaluated : ∀ entry ∈ unevaluated,
      Every (d.code n) entry.1 ∧ Every (d.code n) entry.2) :
  Obeys d n (Eval.entries eval evaluated unevaluated) fun m entries =>
    Every (d.data m) (.map entries)
  := by
  induction unevaluated generalizing evaluated n with
  | nil =>
    apply Obeys.pure
    intro m hm
    apply Discipline.every_data_mono hm
    apply every_map.mpr ⟨d.data_map n hkeys, hevaluated⟩
  | cons entry unevaluated ih =>
    obtain ⟨⟨hkey, hvalue⟩, hunevaluated⟩ := List.forall_mem_cons.mp hunevaluated
    apply Obeys.bind (h hs hkey)
    intro m hm k hk
    apply Obeys.bind (h (hs.trans_le hm) (Discipline.every_code_mono hm hvalue))
    intro m' hm' v hv
    have hle : n ≤ m' := hm.trans hm'
    apply ih (hs.trans_le hle) (hkeys.insert k v)
    · apply Entries.forall_insert _ (Discipline.every_data_mono hm' hk) hv
      intro entry hentry
      obtain ⟨hkey, hvalue⟩ := hevaluated entry hentry
      exact ⟨Discipline.every_data_mono hle hkey, Discipline.every_data_mono hle hvalue⟩
    · intro entry hentry
      obtain ⟨hkey, hvalue⟩ := hunevaluated entry hentry
      exact ⟨Discipline.every_code_mono hle hkey, Discipline.every_code_mono hle hvalue⟩

/-- A native function is found with or without the change. -/
theorem applyNative {id : NativeId} {args : List Value} (hargs : ∀ arg ∈ args, Every (d.data n) arg) :
  ObeysData d n (applyImmediate (.native id) args)
  := by
  apply Obeys.bind (Q := fun m native => ∀ v, (native.call args).result = .ok v →
    Every (d.data m) v)
  · apply Obeys.ask
    intro σ hn hσ
    rw [d.native?_change]
    use rfl
    intro native hnative v hv
    split at hnative
    next native' hfound =>
      cases hnative
      apply d.data_native hσ.store hfound _ hv
      intro arg harg
      apply Discipline.every_data_mono hn (hargs arg harg)
    next => cases hnative
  · intro m _ native hnative
    apply Obeys.modify
    · intro σ _ hσ
      exact ⟨d.write_change σ _, le_rfl, hσ.of_scopes_eq rfl rfl⟩
    · intro m' hm'
      apply Obeys.ofExcept
      intro v hv k hk
      apply Discipline.every_data_mono (hm'.trans hk) (hnative v hv)

/-- A callable that has its value at once makes data of data. -/
theorem applyImmediate {callee : Value} {args : List Value} (hcallee : Every (d.data n) callee)
    (hargs : ∀ arg ∈ args, Every (d.data n) arg) :
  ObeysData d n (Eval.applyImmediate callee args)
  := by
  cases callee with
  | primitive p =>
    apply Obeys.ofExcept
    intro v hv m hm
    apply Discipline.every_data_mono hm
    apply Primitive.every_call (fun v hv => d.data_plain n (isPlain_of_isDatum hv)) hargs hv
  | native id => apply applyNative hargs
  | map entries =>
    apply Obeys.check
    intro m hm
    apply Obeys.ofExcept
    intro v hv k hk
    apply Discipline.every_data_mono (hm.trans hk)
    apply every_lookupPath hcallee hv
  | _ => apply Obeys.throw

/-- The parameters of a procedure are distinct symbols in the code of the form that makes it. -/
theorem makeProcedure {form : SpecialForm} {s : ScopeId} {name : Option String} {params : Value}
    {body : List Value} (hs : s.index < n) (hparams : Every (d.code n) params)
    (hbody : ∀ e ∈ body, Every (d.code n) e) :
  ObeysData d n (form.makeProcedure s name params body)
  := by
  apply Obeys.bind (Q := fun _ names => names.Nodup ∧ ∀ name ∈ names, d.code n (.symbol name))
  · apply Obeys.ofExcept
    intro names hnames m _
    obtain ⟨hnodup, hmem⟩ := form.parameters_eq_ok hnames
    use hnodup
    intro name hname
    apply hparams _ (hmem name hname)
  · rintro m hm names ⟨hnodup, hnames⟩
    apply Obeys.modifyGet
    intro σ hn hσ
    have hle : n ≤ σ.scopes.size := hm.trans hn
    have hbody' : ∀ e ∈ body, Every (d.code σ.scopes.size) e := fun e he =>
      Discipline.every_code_mono hle (hbody e he)
    have hprocedure : Every (d.data σ.scopes.size)
        (.procedure ⟨σ.procedures, name, names, body, s⟩) := by
      rw [every_procedure]
      constructor
      · apply d.data_procedure hnodup (hs.trans_le hle) _ hbody'
        intro name hname
        apply d.code_mono (hm.trans hn) (hnames name hname)
      · intro e he
        apply d.data_of_code (hbody' e he)
    exact ⟨d.addProcedure_change σ _ _ _ _, le_rfl, hσ.of_scopes_eq rfl rfl, hprocedure⟩

end ObeysData

/-! ### Steps -/

namespace ObeysStep

variable {s : ScopeId} {eval : Value → Eval Value}

/-- Data that is given is no step further. -/
theorem value {v : Value} (h : Every (d.data n) v) :
  ObeysStep d n (Pure.pure (.done v))
  := by
  apply Obeys.pure
  intro m hm
  apply Discipline.every_data_mono hm h

/-- A plain value with no parts is data. -/
theorem atom {v : Value} (hparts : v.parts = []) (h : v.isPlain) :
  ObeysStep d n (Pure.pure (.done v))
  := value (Discipline.every_data_of_plain n hparts h)

/-- A tail position has code in it, and goes on in a scope that there is. -/
theorem tail (hs : s.index < n) {e : Value} (he : Every (d.code n) e) (position : Nat) :
  ObeysStep d n (Pure.pure (.tail e s position))
  := by
  apply Obeys.pure
  intro m hm
  exact ⟨hs.trans_le hm, Discipline.every_code_mono hm he⟩

/-- A step to a value obeys if the value is data. -/
theorem done {x : Eval Value} (h : ObeysData d n x) :
  ObeysStep d n (Step.done <$> x)
  := by
  rw [map_eq_pure_bind]
  apply Obeys.bind h
  intro m _ v hv
  apply value hv

/-- What is code remains code while an expression before it is evaluated. -/
theorem andThen (h : ObeysAll d s eval) (hs : s.index < n) {e : Value} (he : Every (d.code n) e)
    {es : List Value} (hes : ∀ e' ∈ es, Every (d.code n) e') {f : Value → Eval Step}
    (hf : ∀ {m : Nat} {v : Value}, n ≤ m → s.index < m → Every (d.data m) v →
      (∀ e' ∈ es, Every (d.code m) e') → ObeysStep d m (f v)) :
  ObeysStep d n (eval e >>= f)
  := by
  apply Obeys.bind (h hs he)
  intro m hm v hv
  apply hf hm (hs.trans_le hm) hv
  intro e' he'
  apply Discipline.every_code_mono hm (hes e' he')

/-- The end of a body is code like the rest of it. -/
theorem ofBody (h : ObeysAll d s eval) (hs : s.index < n) (position : Nat) {body : List Value}
    (hbody : ∀ e ∈ body, Every (d.code n) e) :
  ObeysStep d n (Step.ofBody eval s position body)
  := by
  fun_induction Step.ofBody eval s position body generalizing n with
  | case1 => apply atom rfl rfl
  | case2 position last => apply tail hs (hbody last List.mem_cons_self)
  | case3 position e body _ ih =>
    obtain ⟨he, hbody⟩ := List.forall_mem_cons.mp hbody
    apply andThen h hs he hbody
    intro m v _ hs _ hbody
    apply ih hs hbody

/-- So is the end of a row, and what it has for its value without expressions is plain. -/
theorem untilDecided (h : ObeysAll d s eval) (hs : s.index < n) (decides : Value → Bool)
    {empty : Value} (hparts : empty.parts = []) (hempty : empty.isPlain) (position : Nat)
    {es : List Value} (hes : ∀ e ∈ es, Every (d.code n) e) :
  ObeysStep d n (Step.untilDecided eval s decides empty position es)
  := by
  fun_induction Step.untilDecided eval s decides empty position es generalizing n with
  | case1 => apply atom hparts hempty
  | case2 position last => apply tail hs (hes last List.mem_cons_self)
  | case3 position e es _ ih =>
    obtain ⟨he, hes⟩ := List.forall_mem_cons.mp hes
    apply andThen h hs he hes
    intro m v _ hs hv hes
    split
    · apply value hv
    · apply ih hs hes

/-- So are the expressions of clauses, and the one that is put off. -/
theorem ofClauses (h : ObeysAll d s eval) (hs : s.index < n) (position : Nat)
    {otherwise : Option (Value × Nat)} (hotherwise : ∀ o ∈ otherwise, Every (d.code n) o.1)
    {clauses : List Value} (hclauses : ∀ e ∈ clauses, Every (d.code n) e) :
  ObeysStep d n (Step.ofClauses eval s position otherwise clauses)
  := by
  fun_induction Step.ofClauses eval s position otherwise clauses generalizing n with
  | case1 position otherwise e clauses ih =>
    obtain ⟨-, hclauses⟩ := List.forall_mem_cons.mp hclauses
    obtain ⟨he, hclauses⟩ := List.forall_mem_cons.mp hclauses
    apply ih hs _ hclauses
    intro o ho
    rcases Option.or_eq_some_iff.mp ho with ho | ⟨-, ho⟩
    · apply hotherwise o ho
    · cases ho
      apply he
  | case2 position otherwise e clauses test _ ih =>
    obtain ⟨htest, hclauses⟩ := List.forall_mem_cons.mp hclauses
    apply andThen h hs htest hclauses
    intro m v hm hs _ hclauses
    obtain ⟨he, hclauses⟩ := List.forall_mem_cons.mp hclauses
    split
    · apply tail hs he
    · apply ih hs _ hclauses
      intro o ho
      apply Discipline.every_code_mono hm (hotherwise o ho)
  | case3 position e position' => apply tail hs (hotherwise _ rfl)
  | case4 => apply atom rfl rfl

/-- A name in code is bound to data. -/
theorem bindName (s : ScopeId) {name : String} (hname : d.code n (.symbol name)) {v : Value}
    (hv : Every (d.data n) v) :
  ObeysStep d n (SpecialForm.bind s name v)
  := by
  apply Obeys.modify
  · intro σ hn hσ
    use d.define_change s v hname, (σ.size_define s name v).ge
    apply hσ.define s name (Discipline.every_data_mono hn hv)
  · intro m _
    apply atom rfl rfl

/-- A form obeys on code: what it quotes, binds or makes a procedure of is code or comes from code. -/
theorem form (h : ObeysAll d s eval) (hs : s.index < n) (form : SpecialForm) {args : List Value}
    (hargs : ∀ arg ∈ args, Every (d.code n) arg) :
  ObeysStep d n (form.step eval s args)
  := by
  cases form with
  | quote =>
    simp only [SpecialForm.step]
    split
    next v =>
      apply value
      apply d.data_of_code (hargs v List.mem_cons_self)
    · apply Obeys.throw
  | sequence => apply ofBody h hs 0 hargs
  | define =>
    simp only [SpecialForm.step]
    split
    next name e =>
      obtain ⟨hname, hargs⟩ := List.forall_mem_cons.mp hargs
      apply Obeys.bind (h hs (hargs e List.mem_cons_self))
      intro m hm v hv
      apply bindName s (d.code_mono hm hname.self) hv
    · apply Obeys.throw
    · apply Obeys.throw
  | lambda =>
    simp only [SpecialForm.step]
    split
    next params body =>
      obtain ⟨hparams, hbody⟩ := List.forall_mem_cons.mp hargs
      apply Obeys.bind (ObeysData.makeProcedure hs hparams hbody)
      intro m _ p hp
      apply value hp
    · apply Obeys.throw
  | defineProcedure =>
    simp only [SpecialForm.step]
    split
    next name params body =>
      obtain ⟨hname, hargs⟩ := List.forall_mem_cons.mp hargs
      obtain ⟨hparams, hbody⟩ := List.forall_mem_cons.mp hargs
      apply Obeys.bind (ObeysData.makeProcedure hs hparams hbody)
      intro m hm p hp
      apply bindName s (d.code_mono hm hname.self) hp
    · apply Obeys.throw
    · apply Obeys.throw
  | conditional =>
    simp only [SpecialForm.step]
    split
    next test consequent =>
      obtain ⟨htest, hargs⟩ := List.forall_mem_cons.mp hargs
      apply andThen h hs htest hargs
      intro m v _ hs _ hargs
      split
      · apply tail hs (hargs consequent List.mem_cons_self)
      · apply atom rfl rfl
    next test consequent alternative =>
      obtain ⟨htest, hargs⟩ := List.forall_mem_cons.mp hargs
      apply andThen h hs htest hargs
      intro m v _ hs _ hargs
      obtain ⟨hconsequent, hargs⟩ := List.forall_mem_cons.mp hargs
      split
      · apply tail hs hconsequent
      · apply tail hs (hargs alternative List.mem_cons_self)
    · apply Obeys.throw
  | cond =>
    simp only [SpecialForm.step]
    split
    · apply ofClauses h hs 0 _ hargs
      rintro _ ⟨⟩
    · apply Obeys.throw
  | and => apply untilDecided h hs _ rfl rfl 0 hargs
  | or => apply untilDecided h hs _ rfl rfl 0 hargs

/-- A call enters a new scope, which binds the parameters to data. -/
theorem enter {p : Procedure} (hp : Every (d.data n) (.procedure p)) {args : List Value}
    (hargs : ∀ arg ∈ args, Every (d.data n) arg) :
  ObeysStep d n (Step.enter p <$> bindParameters p args)
  := by
  rw [map_eq_pure_bind, bindParameters, bind_assoc]
  apply Obeys.check
  intro m hm
  rw [bind_assoc]
  apply Obeys.bind (Q := fun k scope => scope.index < k)
  · apply Obeys.modifyGet
    intro σ hn hσ
    have hle : n ≤ σ.scopes.size := hm.trans hn
    have hsize := σ.size_addScope (some p.scope)
    refine ⟨d.addScope_change _ hσ.store, by omega, ?_, ?_⟩
    · apply hσ.addScope
      apply d.store_addScope hσ.store (d.data_mono hle hp.self)
    · rw [hsize]
      apply Nat.lt_succ_self
  intro k hk scope hscope
  rw [bind_assoc]
  have hle : n ≤ k := hm.trans hk
  apply Obeys.modify
  · intro σ hn hσ
    have hbindings : ∀ binding ∈ p.params.zip args,
        d.code σ.scopes.size (.symbol binding.1) ∧ Every (d.data σ.scopes.size) binding.2 := by
      intro binding hbinding
      obtain ⟨hname, harg⟩ := List.of_mem_zip hbinding
      use d.code_mono (hle.trans hn) ((d.code_procedure hp).1 _ hname)
      apply Discipline.every_data_mono (hle.trans hn) (hargs _ harg)
    obtain ⟨hchange, hholds⟩ := hσ.defineAll scope hbindings
    exact ⟨hchange, (σ.size_defineAll _ _).ge, hholds⟩
  intro j hj
  rw [pure_bind]
  apply Obeys.pure
  intro i hi
  exact ⟨(hscope.trans_le hj).trans_le hi,
    Discipline.every_data_mono ((hle.trans hj).trans hi) hp⟩

/-- To apply data to data gives data, or enters the body of a procedure, which is code. -/
theorem apply {callee : Value} (hcallee : Every (d.data n) callee) {args : List Value}
    (hargs : ∀ arg ∈ args, Every (d.data n) arg) :
  ObeysStep d n (Step.apply callee args)
  := by
  unfold Step.apply
  split
  · apply enter hcallee hargs
  · apply done
    apply ObeysData.applyImmediate hcallee hargs

/-- The application of an operator to operands obeys if all of them are code. -/
theorem ofCall (h : ObeysAll d s eval) (hs : s.index < n) {operator : Value}
    (hoperator : Every (d.code n) operator) {operands : List Value}
    (hoperands : ∀ e ∈ operands, Every (d.code n) e) :
  ObeysStep d n (Step.ofCall eval s operator operands)
  := by
  apply andThen h hs hoperator hoperands
  intro m callee _ hs hcallee hoperands
  split
  · apply Obeys.check
    intro k hk
    apply form h (hs.trans_le hk)
    intro e he
    apply Discipline.every_code_mono hk (hoperands e he)
  · apply Obeys.bind (ObeysData.mapM h hs hoperands)
    intro k hk args hargs
    apply ObeysStep.apply (Discipline.every_data_mono hk hcallee) hargs

/-- The step of code obeys, if the evaluator does that it uses for the expressions inside. -/
theorem ofExpression {eval : ScopeId → Value → Eval Value} (h : ∀ s, ObeysAll d s (eval s))
    {s : ScopeId} (hs : s.index < n) {e : Value} (he : Every (d.code n) e) :
  ObeysStep d n (Step.ofExpression eval s e)
  := by
  unfold Step.ofExpression
  split
  next name =>
    apply done
    apply Obeys.ask
    intro σ hn hσ
    use d.find_change s he.self
    intro v hv
    obtain ⟨t, -, ht⟩ := Store.exists_getLocal?_of_find hv
    apply hσ.bindings t name v ht
  next items =>
    apply Obeys.bind (ObeysData.mapM (h s) hs (every_vector.mp he).2)
    intro m _ vs hvs
    apply value
    apply every_vector.mpr ⟨d.data_plain m rfl, hvs⟩
  next entries =>
    apply Obeys.bind (ObeysData.entries (h s) hs List.Pairwise.nil nofun (every_map.mp he).2)
    intro m _ entries hentries
    apply value hentries
  next operator operands =>
    apply Obeys.within
    obtain ⟨hoperator, hoperands⟩ := List.forall_mem_cons.mp (every_list.mp he).2
    apply ofCall (h s) hs hoperator hoperands
  next =>
    apply value
    apply d.data_of_code he

end ObeysStep

/-! ### Runs -/

/-- Code is evaluated to data, and what a step leads to has data for its value.  By induction on the
fuel, since a step evaluates with less. -/
theorem obeys_run (d : Discipline) (fuel : Nat) :
  (∀ depth s, ObeysAll d s (expression fuel depth s)) ∧
    ∀ depth n step, d.HoldsAt n step → ObeysData d n (follow fuel depth step)
  := by
  induction fuel with
  | zero =>
    constructor
    · intro depth s n e _ _
      apply Obeys.outOfFuel
    · intro depth n step _
      apply Obeys.outOfFuel
  | succ fuel ih =>
    obtain ⟨ihExpression, ihFollow⟩ := ih
    have hfollow {n depth : Nat} {x : Eval Step} (hx : ObeysStep d n x) :
        ObeysData d n (x >>= follow fuel depth) :=
      hx.bind fun m _ => ihFollow depth m
    constructor
    · intro depth s n e hs he
      rw [expression]
      split
      · apply Obeys.throw
      · apply hfollow
        apply ObeysStep.ofExpression (ihExpression _) hs he
    · intro depth n step hstep
      cases step with
      | done v => apply ObeysData.value hstep
      | tail e s position =>
        apply hfollow
        apply ObeysStep.ofExpression (ihExpression _) hstep.1 hstep.2
      | enter p s =>
        apply hfollow
        apply ObeysStep.ofBody (ihExpression _ s) hstep.1 0 (d.code_procedure hstep.2).2

/-- Code that is evaluated in a store which keeps a discipline leaves such a store, whether it has a
value or fails; and a value is data. -/
theorem Ends.holds {d : Discipline} {depth : Nat} {s : ScopeId} {e : Value} {σ τ : Store}
    {r : Except Error Value} (h : Ends depth s e σ r τ) (hσ : d.Holds σ) (hs : σ.HasScope s)
    (he : Every (d.code σ.scopes.size) e) :
  d.Holds τ ∧ ∀ v, r = .ok v → Every (d.data τ.scopes.size) v
  := by
  obtain ⟨fuel, h⟩ := h
  apply (((obeys_run d fuel).1 depth s hs he σ le_rfl hσ).2 r τ h).2

end Eval

end PocketLisp
