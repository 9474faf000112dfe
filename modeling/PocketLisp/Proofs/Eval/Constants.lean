import PocketLisp.Proofs.Eval.Refinement
import PocketLisp.Proofs.Value.Built

/-!
# Constants

A constant is a value in which nothing has to be looked up and nothing has to be called.  It
evaluates to itself and leaves the store as it is, unless something in it lies inside too many
vectors and maps; then the evaluation fails for being too deep.

A map is evaluated by binding its entries anew, one after the other, in a map that is empty at
first.  What comes of this is the same map, because its keys are unequal to each other already.
-/

namespace PocketLisp

open Eval

namespace Value

/-- Whether a value stands for itself whatever is in it: names and calls do not, and neither do
vectors and maps, whose elements are evaluated. -/
def isAtomic : Value → Bool
  | symbol _ | list (_ :: _) | vector _ | map _ => false
  | _ => true

/-- The values that are built from atomic ones by vectors and maps, the maps by insertions. -/
inductive Constant : Value → Prop
  | atomic {v : Value} (h : v.isAtomic) : Constant v
  | vector {items : List Value} (h : ∀ v ∈ items, Constant v) : Constant (.vector items)
  | map {pairs : List (Value × Value)} (hkeys : ∀ pair ∈ pairs, Constant pair.1)
      (hvalues : ∀ pair ∈ pairs, Constant pair.2) : Constant (.map (Entries.ofList pairs))

/-- What stands in a vector, or in a map as a key or a value. -/
def elements : Value → List Value
  | vector items => items
  | map entries => entries.flatMap fun entry => [entry.1, entry.2]
  | _ => []

/-- The value `w` lies inside a number of vectors and maps in another. -/
inductive LiesInside (w : Value) : (enclosing : Nat) → Value → Prop
  | self : LiesInside w 0 w
  | element {n : Nat} {u v : Value} (hu : u ∈ v.elements) (h : LiesInside w n u) :
    LiesInside w (n + 1) v

/-- All that is in the value is evaluated below the limit if the value is evaluated at a depth. -/
def Fits (depth : Nat) (v : Value) : Prop :=
  ∀ w n, LiesInside w n v → depth + n < depthLimit

variable {depth : Nat} {v w : Value}

/-- A value fits if the depth itself is below the limit and its elements fit one level deeper. -/
theorem fits_iff :
  Fits depth v ↔ depth < depthLimit ∧ ∀ u ∈ v.elements, Fits (depth + 1) u
  := by
  constructor
  · intro h
    use h v 0 .self
    intro u hu w n hw
    rw [Nat.add_right_comm, Nat.add_assoc]
    apply h w (n + 1) (.element hu hw)
  · rintro ⟨hdepth, helements⟩ w n hw
    cases hw with
    | self => apply hdepth
    | @element n u _ hu hw =>
      rw [← Nat.add_assoc, Nat.add_right_comm]
      apply helements u hu w n hw

/-- There are no elements in a value that stands for itself. -/
theorem elements_of_isAtomic (h : v.isAtomic) :
  v.elements = []
  := by
  cases v with
  | vector | map => cases h
  | _ => rfl

/-- A value that stands for itself fits wherever the depth is below the limit. -/
theorem fits_of_isAtomic (h : v.isAtomic) (hdepth : depth < depthLimit) :
  Fits depth v
  := by
  rw [fits_iff, elements_of_isAtomic h]
  exact ⟨hdepth, List.forall_mem_nil _⟩

/-- The elements of a map are the keys and the values of its entries. -/
theorem forall_mem_elements_map {P : Value → Prop} {entries : Entries} :
  (∀ u ∈ (map entries).elements, P u) ↔ ∀ entry ∈ entries, P entry.1 ∧ P entry.2
  := by
  simp only [elements, List.forall_mem_flatMap, List.forall_mem_cons, List.not_mem_nil,
    false_imp_iff, implies_true, and_true]

/-! ### Values in the innermost of many vectors -/

/-- A value inside a number of vectors. -/
def enclose (v : Value) : Nat → Value
  | 0 => v
  | n + 1 => .vector [v.enclose n]

/-- A constant inside any number of vectors is a constant. -/
theorem Constant.enclose (h : Constant v) (n : Nat) :
  Constant (v.enclose n)
  := by
  induction n with
  | zero => apply h
  | succ n ih => apply vector (List.forall_mem_singleton.mpr ih)

/-- A value inside a number of vectors lies inside so many more. -/
theorem LiesInside.enclose {m : Nat} (h : LiesInside w m v) (n : Nat) :
  LiesInside w (m + n) (v.enclose n)
  := by
  induction n with
  | zero => apply h
  | succ n ih => apply element (List.mem_singleton_self _) ih

/-- A value fits inside a number of vectors if it fits so many levels deeper. -/
theorem Fits.enclose {n : Nat} (h : Fits (depth + n) v) :
  Fits depth (v.enclose n)
  := by
  induction n generalizing depth with
  | zero => apply h
  | succ n ih =>
    rw [Nat.add_comm n, ← Nat.add_assoc] at h
    apply fits_iff.mpr
    constructor
    · have hlt := (fits_iff.mp h).1
      omega
    · apply List.forall_mem_singleton.mpr (ih h)

end Value

/-- The step of an atomic value is the value. -/
theorem Step.ofExpression_of_isAtomic {v : Value} (h : v.isAtomic)
    (eval : ScopeId → Value → Eval Value) (s : ScopeId) :
  Step.ofExpression eval s v = pure (.done v)
  := by
  cases v with
  | symbol | vector | map => cases h
  | list items =>
    cases items with
    | nil => rfl
    | cons => cases h
  | _ => rfl

namespace Eval

open Value

variable {α β : Type} {p q : Prop} {x : Eval α} {a : α}

/-! ### Evaluations that a condition decides -/

/-- The evaluation has a given result if the condition holds, and fails for being too deep if it
does not; the store is left alone. -/
structure Decided (p : Prop) (x : Eval α) (a : α) : Prop where
  ok : p → x = pure a
  too_deep : ¬ p → x = throw (.depthExceeded depthLimit)

namespace Decided

/-- To give a value succeeds on no condition. -/
theorem pure (a : α) :
  Decided True (Pure.pure a) a
  := ⟨fun _ => rfl, fun h => absurd trivial h⟩

/-- Equivalent conditions decide alike. -/
theorem congr (h : Decided p x a) (hpq : p ↔ q) :
  Decided q x a
  := ⟨fun hq => h.ok (hpq.mpr hq), fun hq => h.too_deep fun hp => hq (hpq.mp hp)⟩

/-- One evaluation after the other is decided by both conditions. -/
theorem bind (h : Decided p x a) {f : α → Eval β} {b : β} (hf : Decided q (f a) b) :
  Decided (p ∧ q) (x >>= f) b
  := by
  constructor
  · rintro ⟨hp, hq⟩
    rw [h.ok hp, pure_bind, hf.ok hq]
  · intro hpq
    by_cases hp : p
    · rw [h.ok hp, pure_bind]
      apply hf.too_deep
      intro hq
      apply hpq ⟨hp, hq⟩
    · rw [h.too_deep hp]
      rfl

/-- What is done to a value has no part in the decision. -/
theorem map (h : Decided p x a) (f : α → β) :
  Decided p (do return f (← x)) (f a)
  := (h.bind (pure (f a))).congr (and_iff_left trivial)

end Decided

/-! ### Rows and entries -/

section

variable {eval : Value → Eval Value} {fits : Value → Prop}

/-- A row of values is decided by all of their conditions, and each stands for itself. -/
theorem decided_mapM {items : List Value} (h : ∀ v ∈ items, Decided (fits v) (eval v) v) :
  Decided (∀ v ∈ items, fits v) (items.mapM eval) items
  := by
  induction items with
  | nil => apply (Decided.pure []).congr (by simp)
  | cons v items ih =>
    obtain ⟨hv, hitems⟩ := List.forall_mem_cons.mp h
    rw [List.mapM_cons]
    apply (hv.bind ((ih hitems).map (v :: ·))).congr
    rw [List.forall_mem_cons]

/-- Evaluating entries is binding them one after the other. -/
theorem decided_entries (evaluated : Entries) {unevaluated : List (Value × Value)}
    (h : ∀ pair ∈ unevaluated,
      Decided (fits pair.1) (eval pair.1) pair.1 ∧ Decided (fits pair.2) (eval pair.2) pair.2) :
  Decided (∀ pair ∈ unevaluated, fits pair.1 ∧ fits pair.2)
    (Eval.entries eval evaluated unevaluated)
    (unevaluated.foldl (fun entries pair => Entries.insert entries pair.1 pair.2) evaluated)
  := by
  induction unevaluated generalizing evaluated with
  | nil => apply (Decided.pure evaluated).congr (by simp)
  | cons pair unevaluated ih =>
    obtain ⟨key, value⟩ := pair
    obtain ⟨⟨hkey, hvalue⟩, hunevaluated⟩ := List.forall_mem_cons.mp h
    rw [Eval.entries]
    apply (hkey.bind (hvalue.bind (ih _ hunevaluated))).congr
    rw [List.forall_mem_cons, and_assoc]

/-- Entries without equal keys are bound anew in their order. -/
theorem decided_entries_self {entries : Entries} (hkeys : entries.KeysUnequal)
    (h : ∀ entry ∈ entries,
      Decided (fits entry.1) (eval entry.1) entry.1 ∧
        Decided (fits entry.2) (eval entry.2) entry.2) :
  Decided (∀ entry ∈ entries, fits entry.1 ∧ fits entry.2) (Eval.entries eval [] entries) entries
  := by
  have hself := decided_entries [] h
  rwa [show List.foldl _ [] entries = entries from hkeys.ofList_eq_self] at hself

end

/-! ### Constants -/

variable {fuel depth : Nat} {s : ScopeId} {v : Value}

/-- A value fits if its elements fit one level deeper and the evaluation is below the limit
itself.  The fuel is enough if it lasts to the limit. -/
theorem decided_of_step (hfuel : 0 < fuel) (hlimit : depthLimit < fuel + depth)
    (h : ∀ fuel', 0 < fuel' → depthLimit < fuel' + (depth + 1) →
      Decided (∀ u ∈ v.elements, Fits (depth + 1) u)
        (Step.ofExpression (expression fuel' (depth + 1)) s v) (.done v)) :
  Decided (Fits depth v) (expression fuel depth s v) v
  := by
  obtain ⟨fuel, rfl⟩ : ∃ fuel', fuel = fuel' + 1 := ⟨fuel - 1, by omega⟩
  by_cases hdepth : depth < depthLimit
  · obtain ⟨fuel, rfl⟩ : ∃ fuel', fuel = fuel' + 1 := ⟨fuel - 1, by omega⟩
    rw [expression, if_neg (Nat.not_le.mpr hdepth)]
    apply ((h (fuel + 1) (by omega) (by omega)).bind (Decided.pure v)).congr
    rw [and_iff_left trivial, fits_iff, and_iff_right hdepth]
  · constructor
    · intro hfits
      apply absurd (fits_iff.mp hfits).1 hdepth
    · intro _
      rw [expression, if_pos (Nat.le_of_not_lt hdepth)]

/-- A constant has itself for its value if it fits, and is too deep if it does not. By induction on
the constant. -/
theorem decided_constant (h : Constant v) (hfuel : 0 < fuel) (hlimit : depthLimit < fuel + depth) :
  Decided (Fits depth v) (expression fuel depth s v) v
  := by
  induction h generalizing fuel depth with
  | @atomic v h =>
    apply decided_of_step hfuel hlimit
    intro fuel' _ _
    rw [elements_of_isAtomic h, Step.ofExpression_of_isAtomic h]
    apply (Decided.pure _).congr (by simp)
  | @vector items _ ih =>
    apply decided_of_step hfuel hlimit
    intro fuel' hfuel' hlimit'
    apply Decided.map _ fun items => Step.done (.vector items)
    apply decided_mapM
    intro v hv
    apply ih v hv hfuel' hlimit'
  | @map pairs _ _ ihKeys ihValues =>
    apply decided_of_step hfuel hlimit
    intro fuel' hfuel' hlimit'
    rw [forall_mem_elements_map]
    apply Decided.map _ fun entries => Step.done (.map entries)
    apply decided_entries_self (Entries.keysUnequal_ofList pairs)
    apply Entries.forall_ofList
      (P := fun v => Decided (Fits (depth + 1) v) (expression fuel' (depth + 1) s v) v)
      (Q := fun v => Decided (Fits (depth + 1) v) (expression fuel' (depth + 1) s v) v)
    intro pair hpair
    exact ⟨ihKeys pair hpair hfuel' hlimit', ihValues pair hpair hfuel' hlimit'⟩

/-- A constant evaluates to itself, in every scope and with no effect on the store, if whatever
lies inside it is below the limit when the depth of the evaluation is added to the number of vectors
and maps around it; otherwise the evaluation fails for being too deep. -/
theorem ends_constant (h : Constant v) (depth : Nat) (s : ScopeId) (σ : Store) :
  ((∀ w n, LiesInside w n v → depth + n < depthLimit) → Ends depth s v σ (.ok v) σ) ∧
    ((∃ w n, LiesInside w n v ∧ depthLimit ≤ depth + n) →
      Ends depth s v σ (.error (.depthExceeded depthLimit)) σ)
  := by
  have h : Decided (Fits depth v) (expression (depthLimit + 1) depth s v) v :=
    decided_constant h (Nat.succ_pos _) (by omega)
  constructor
  · intro hfits
    use depthLimit + 1
    rw [h.ok hfits]
    rfl
  · rintro ⟨w, n, hw, hdeep⟩
    use depthLimit + 1
    rw [h.too_deep fun hfits => absurd (hfits w n hw) (Nat.not_lt.mpr hdeep)]
    rfl

/-- Two entries whose keys are not numbers are kept apart in a map; inside 4094 vectors it is
evaluated to itself, and inside one more its keys and values are too deep. -/
theorem ends_constant_enclose :
  ∃ v nan : Value, v = .map [(nan, .integer 1), (nan, .integer 2)] ∧ nan.equal nan = false ∧
    ∀ s σ,
      Ends 0 s (v.enclose 4094) σ (.ok (v.enclose 4094)) σ ∧
        Ends 0 s (v.enclose 4095) σ (.error (.depthExceeded 4096)) σ
  := by
  obtain ⟨nan, hnan⟩ : ∃ nan, nan = Value.float (0 / 0) := ⟨_, rfl⟩
  obtain ⟨entries, hentries⟩ : ∃ entries, entries = [(nan, Value.integer 1), (nan, .integer 2)] :=
    ⟨_, rfl⟩
  have hequal : nan.equal nan = false := by
    rw [hnan]
    decide +kernel
  have hself : Entries.ofList entries = entries := by
    apply Entries.KeysUnequal.ofList_eq_self
    simpa [hentries, Entries.KeysUnequal] using hequal
  have hatomic : ∀ u ∈ (Value.map entries).elements, u.isAtomic := by
    simp [forall_mem_elements_map, hentries, hnan, isAtomic]
  have hconstant : Constant (.map entries) := by
    rw [← hself]
    have hatomic := forall_mem_elements_map.mp hatomic
    apply Constant.map
    · intro entry hentry
      apply Constant.atomic (hatomic entry hentry).1
    · intro entry hentry
      apply Constant.atomic (hatomic entry hentry).2
  refine ⟨.map entries, nan, hentries ▸ rfl, hequal, ?_⟩
  intro s σ
  constructor
  · apply (ends_constant (hconstant.enclose 4094) 0 s σ).1
    apply Fits.enclose
    apply fits_iff.mpr ⟨by decide, ?_⟩
    intro u hu
    apply fits_of_isAtomic (hatomic u hu)
    decide
  · have hnan : nan ∈ (Value.map entries).elements := by
      simp [hentries, elements]
    apply (ends_constant (hconstant.enclose 4095) 0 s σ).2
    use nan, 1 + 4095, (LiesInside.self.element hnan).enclose 4095
    decide

end Eval

end PocketLisp
