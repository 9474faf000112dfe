import PocketLisp.Proofs.Host.Primitive
import PocketLisp.Proofs.Value.Equality

/-!
# Equality of many values

The primitive `=` compares its first argument with each of the others, their kinds before their content.
Since equality of values is symmetric and transitive, the answer says of each two arguments that they are
equal.  In this form it does not depend on the order of the arguments.

A value in which not-a-number occurs is not equal to itself.  It is not compared with itself here, but
with the other arguments only, so that a single argument is always equal to all others.
-/

namespace PocketLisp.Primitive

open Value

/-! ### Kinds -/

/-- Compares the first argument with each of the others, without a look at the kinds. -/
def equalToFirst : Operation (Except Error Value) :=
  ⟨[.any], some .any, fun first rest => .ok (.boolean (rest.all first.equal))⟩

/-- Equality settles the kind. -/
theorem sameKind_and_equal (first : Value) :
  (fun v => first.sameKind v && first.equal v) = first.equal
  := by
  funext v
  cases hequal : first.equal v with
  | false => apply Bool.and_false
  | true => rw [sameKind_of_equal hequal, Bool.true_and]

/-- So it changes nothing that the kinds are compared first. -/
theorem operation_equal :
  Primitive.equal.operation = equalToFirst
  := by
  simp only [operation, sameKind_and_equal, equalToFirst]

/-- The operation compares its first argument with each of the others. -/
theorem call_equal_cons (first : Value) (rest : List Value) :
  Primitive.equal.call (first :: rest) = .ok (.boolean (rest.all first.equal))
  := by
  have hrest : ElementType.any.payloads rest = .ok rest :=
    ElementType.payloads_eq_ok_iff.mpr (List.map_id rest)
  have hvalues : Payloads.ofValues [.any] (some .any) (first :: rest) = .ok (first, rest) := by
    simp only [Payloads.ofValues, hrest]
    rfl
  have haccepts : Primitive.equal.arity.accepts (first :: rest).length :=
    decide_eq_true (Nat.le_add_left 1 rest.length)
  rw [call_of_ofValues haccepts hvalues, ← sameKind_and_equal]
  rfl

/-! ### Pairs -/

/-- Whether two values are equal, whichever is compared with the other. -/
def Equal (a b : Value) : Prop :=
  a.equal b ∧ b.equal a

/-- If the first value is equal to all others, each of the others is equal to the rest of them. -/
theorem all_equal_iff_pairwise {first : Value} {rest : List Value}
    (h : ∀ v ∈ first :: rest, Built v) :
  rest.all first.equal ↔ (first :: rest).Pairwise Equal
  := by
  obtain ⟨hfirst, hrest⟩ := List.forall_mem_cons.mp h
  rw [List.all_eq_true, List.pairwise_cons]
  constructor
  · intro hall
    constructor
    · intro v hv
      exact ⟨hall v hv, equal_symm hfirst (hrest v hv) (hall v hv)⟩
    · apply List.pairwise_of_forall_mem_list
      intro v hv w hw
      have hvfirst := equal_symm hfirst (hrest v hv) (hall v hv)
      have hwfirst := equal_symm hfirst (hrest w hw) (hall w hw)
      constructor
      · apply equal_trans (hrest v hv) hfirst (hrest w hw) hvfirst (hall w hw)
      · apply equal_trans (hrest w hw) hfirst (hrest v hv) hwfirst (hall v hv)
  · rintro ⟨hfirst, -⟩ v hv
    apply (hfirst v hv).1

/-- A row is pairwise equal if and only if any two elements at different positions are equal. -/
theorem pairwise_equal_iff {args : List Value} :
  args.Pairwise Equal ↔
    ∀ i j (hi : i < args.length) (hj : j < args.length), i ≠ j → args[i].equal args[j]
  := by
  rw [List.pairwise_iff_getElem]
  constructor
  · intro h i j hi hj hne
    rcases Nat.lt_or_gt_of_ne hne with hlt | hgt
    · apply (h i j hi hj hlt).1
    · apply (h j i hj hi hgt).2
  · intro h i j hi hj hlt
    exact ⟨h i j hi hj (Nat.ne_of_lt hlt), h j i hj hi (Nat.ne_of_gt hlt)⟩

/-- Whether all arguments are equal to each other does not depend on their order, as equality is
symmetric. -/
theorem pairwise_equal_of_perm {args args' : List Value} (hperm : args.Perm args') :
  args.Pairwise Equal ↔ args'.Pairwise Equal
  := by
  apply hperm.pairwise_iff
  rintro a b ⟨hab, hba⟩
  exact ⟨hba, hab⟩

/-- What the primitive answers for at least one argument. -/
theorem call_equal {args : List Value} (hne : args ≠ []) (hbuilt : ∀ v ∈ args, Built v) :
  ∃ answer : Bool, Primitive.equal.call args = .ok (.boolean answer) ∧
    (answer ↔ args.Pairwise Equal)
  := by
  cases args with
  | nil => cases hne rfl
  | cons first rest =>
    use rest.all first.equal, call_equal_cons first rest
    apply all_equal_iff_pairwise hbuilt

/-- The primitive gives the same answer for its arguments in any order.  It answers whether each two
arguments at different positions are equal, and would answer the same without a look at the kinds. -/
theorem call_equal_perm {args args' : List Value} (hne : args ≠ []) (hbuilt : ∀ v ∈ args, Built v)
    (hperm : args.Perm args') :
  ∃ answer : Bool,
    Primitive.equal.call args = .ok (.boolean answer) ∧
    Primitive.equal.call args' = .ok (.boolean answer) ∧
    (answer ↔ ∀ i j (hi : i < args.length) (hj : j < args.length), i ≠ j → args[i].equal args[j]) ∧
    Primitive.equal.operation = equalToFirst
  := by
  have hne' : args' ≠ [] := by
    rintro rfl
    apply hne hperm.eq_nil
  have hbuilt' : ∀ v ∈ args', Built v := by
    intro v hv
    apply hbuilt v (hperm.mem_iff.mpr hv)
  obtain ⟨answer, hcall, hanswer⟩ := call_equal hne hbuilt
  obtain ⟨answer', hcall', hanswer'⟩ := call_equal hne' hbuilt'
  have heq : answer' = answer := by
    rw [Bool.eq_iff_iff, hanswer, hanswer', pairwise_equal_of_perm hperm]
  subst heq
  use answer', hcall, hcall', hanswer.trans pairwise_equal_iff, operation_equal

/-- Two equal maps with keys in a different order, and not-a-number: one pair is equal, and yet the
answer is false in every order. -/
theorem call_equal_perm_keyedByMap :
  (keyedByMap (integer 1) (float 0)).equal (keyedByMap (float 0) (integer 1)) ∧
  Primitive.equal.call [keyedByMap (integer 1) (float 0), keyedByMap (float 0) (integer 1),
    float (0 / 0)] = .ok (.boolean false) ∧
  Primitive.equal.call [float (0 / 0), keyedByMap (integer 1) (float 0),
    keyedByMap (float 0) (integer 1)] = .ok (.boolean false)
  := by
  have hinteger : Built (integer 1) := .other rfl
  have hfloat : Built (float 0) := .other rfl
  have hunequal : ¬ (keyedByMap (integer 1) (float 0)).equal (float (0 / 0)) := by
    decide +kernel
  have hbuilt : ∀ v ∈ [keyedByMap (integer 1) (float 0), keyedByMap (float 0) (integer 1),
      float (0 / 0)], Built v := by
    have hnan : Built (float (0 / 0)) := .other rfl
    simp [built_keyedByMap, hinteger, hfloat, hnan]
  obtain ⟨answer, hcall, hcall', hanswer, -⟩ := call_equal_perm (by decide) hbuilt
    (List.perm_append_singleton (float (0 / 0))
      [keyedByMap (integer 1) (float 0), keyedByMap (float 0) (integer 1)])
  have hfalse : answer = false := by
    apply Bool.eq_false_of_not_eq_true
    intro htrue
    apply hunequal
    apply hanswer.mp htrue 0 2 (by decide) (by decide) (by decide)
  subst hfalse
  constructor
  · decide +kernel
  · exact ⟨hcall, hcall'⟩

end PocketLisp.Primitive
