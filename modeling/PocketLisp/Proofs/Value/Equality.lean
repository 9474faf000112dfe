import Mathlib.Data.Fintype.Card
import Mathlib.Data.Fintype.EquivFin
import Mathlib.Data.List.Find
import PocketLisp.Proofs.Double.Comparison
import PocketLisp.Proofs.Value.Built

/-!
# Equality is a partial equivalence

On values whose maps come from insertions, equality is symmetric and transitive, and a value is
equal to itself exactly if not-a-number does not occur in it.

Maps are the hard case.  Equality of maps looks in one direction only, from the entries of the
first map to those of the second, and it compares keys by the same equality.  If equality is
symmetric and transitive on the keys, a key of one map is equal to at most one key of another,
so that maps of one length are equal if and only if their entries correspond one to one.  The
proof is by induction on a bound for the sizes of the values compared, since keys and values of
all the maps involved have to be below it.
-/

namespace PocketLisp

/-- If the rows `xs` and `ys` are of one length, each element of `xs` is related to one of `ys`,
and no two elements of `xs` to the same one, then the elements correspond one to one. -/
theorem exists_equiv_of_matching {α β : Type} {R : α → β → Prop} {xs : List α} {ys : List β}
    (hlength : xs.length = ys.length) (h : ∀ x ∈ xs, ∃ y ∈ ys, R x y)
    (hdistinct : xs.Pairwise fun x x' => ∀ y ∈ ys, R x y → ¬ R x' y) :
  ∃ f : Fin xs.length ≃ Fin ys.length, ∀ i, R xs[i] ys[f i]
  := by
  have hindex : ∀ i : Fin xs.length, ∃ j : Fin ys.length, R xs[i] ys[j] := by
    intro i
    obtain ⟨y, hy, hR⟩ := h xs[i] (List.getElem_mem i.isLt)
    obtain ⟨j, hj, rfl⟩ := List.getElem_of_mem hy
    use ⟨j, hj⟩, hR
  choose f hf using hindex
  have hne : ∀ i j : Fin xs.length, i < j → f i ≠ f j := by
    intro i j hij heq
    have hi := hf i
    rw [heq] at hi
    apply List.pairwise_iff_getElem.mp hdistinct i j i.isLt j.isLt hij _ _ hi (hf j)
    apply List.getElem_mem
  have hinjective : Function.Injective f := by
    intro i j heq
    rcases lt_trichotomy i j with hij | hij | hij
    · cases hne i j hij heq
    · apply hij
    · cases hne j i hij heq.symm
  have hbijective : Function.Bijective f := by
    apply (Fintype.bijective_iff_injective_and_card f).mpr
    use hinjective
    simp [hlength]
  use Equiv.ofBijective f hbijective, hf

/-- If the elements of two rows correspond one to one, each element of either row is related to one of
the other. -/
theorem exists_of_equiv {α β : Type} {R : α → β → Prop} {xs : List α} {ys : List β}
    {f : Fin xs.length ≃ Fin ys.length} (h : ∀ i, R xs[i] ys[f i]) :
  (∀ x ∈ xs, ∃ y ∈ ys, R x y) ∧ ∀ y ∈ ys, ∃ x ∈ xs, R x y
  := by
  constructor
  · intro x hx
    obtain ⟨i, hi, rfl⟩ := List.getElem_of_mem hx
    use ys[f ⟨i, hi⟩], List.getElem_mem (f ⟨i, hi⟩).isLt
    apply h ⟨i, hi⟩
  · intro y hy
    obtain ⟨j, hj, rfl⟩ := List.getElem_of_mem hy
    obtain ⟨i, hi⟩ := f.surjective ⟨j, hj⟩
    use xs[i], List.getElem_mem i.isLt
    have hR := h i
    simp only [hi] at hR
    apply hR

namespace Value

/-! ### Rows and maps -/

/-- Equality of rows is symmetric if it is so on their elements. -/
theorem equalItems_symm {xs ys : List Value} (h : ∀ x ∈ xs, ∀ y ∈ ys, equal x y → equal y x)
    (hxy : equalItems xs ys) :
  equalItems ys xs
  := by
  induction xs generalizing ys with
  | nil =>
    cases ys with
    | nil => rfl
    | cons y ys => cases hxy
  | cons x xs ih =>
    cases ys with
    | nil => cases hxy
    | cons y ys =>
      rw [equalItems, Bool.and_eq_true] at hxy ⊢
      constructor
      · apply h x List.mem_cons_self y List.mem_cons_self hxy.1
      · apply ih _ hxy.2
        intro x' hx' y' hy'
        apply h x' (List.mem_cons_of_mem x hx') y' (List.mem_cons_of_mem y hy')

/-- Equality of rows is transitive if it is so on their elements. -/
theorem equalItems_trans {xs ys zs : List Value}
    (h : ∀ x ∈ xs, ∀ y ∈ ys, ∀ z ∈ zs, equal x y → equal y z → equal x z)
    (hxy : equalItems xs ys) (hyz : equalItems ys zs) :
  equalItems xs zs
  := by
  induction xs generalizing ys zs with
  | nil =>
    cases ys with
    | nil => apply hyz
    | cons y ys => cases hxy
  | cons x xs ih =>
    cases ys with
    | nil => cases hxy
    | cons y ys =>
      cases zs with
      | nil => cases hyz
      | cons z zs =>
        rw [equalItems, Bool.and_eq_true] at hxy hyz ⊢
        constructor
        · apply h x List.mem_cons_self y List.mem_cons_self z List.mem_cons_self hxy.1 hyz.1
        · apply ih _ hxy.2 hyz.2
          intro x' hx' y' hy' z' hz'
          apply h x' (List.mem_cons_of_mem x hx') y' (List.mem_cons_of_mem y hy') z'
            (List.mem_cons_of_mem z hz')

/-- A row is equal to itself if all its elements are. -/
theorem equalItems_self_iff {items : List Value} :
  equalItems items items ↔ ∀ v ∈ items, equal v v
  := by
  induction items with
  | nil => simp [equalItems]
  | cons v items ih => simp [equalItems, ih]

/-- Whether two entries have equal keys and equal values. -/
def EqualEntries (entry entry' : Value × Value) : Prop :=
  equal entry.1 entry'.1 ∧ equal entry.2 entry'.2

/-- If each key of `x` is equal to one key of `y` at most, the first entry with an equal key is
the only one. -/
theorem entriesIn_iff {x y : Entries}
    (hunique : ∀ entry ∈ x, ∀ entry₁ ∈ y, ∀ entry₂ ∈ y,
      equal entry.1 entry₁.1 → equal entry.1 entry₂.1 → entry₁ = entry₂) :
  entriesIn x y ↔ ∀ entry ∈ x, ∃ entry' ∈ y, EqualEntries entry entry'
  := by
  induction x with
  | nil => simp [entriesIn]
  | cons entry x ih =>
    obtain ⟨key, value⟩ := entry
    rw [entriesIn, Bool.and_eq_true, ih, List.forall_mem_cons]
    · apply and_congr_left'
      cases hfind : y.find? fun entry' => equal key entry'.1 with
      | none =>
        simp only [Bool.false_eq_true, false_iff]
        rintro ⟨entry', hmem, hkey, -⟩
        apply List.find?_eq_none.mp hfind entry' hmem hkey
      | some entry₁ =>
        have hmem₁ := List.mem_of_find?_eq_some hfind
        have hkey₁ := List.find?_some hfind
        constructor
        · intro hvalue
          use entry₁, hmem₁, hkey₁, hvalue
        · rintro ⟨entry₂, hmem₂, hkey₂, hvalue⟩
          rw [hunique _ List.mem_cons_self _ hmem₁ _ hmem₂ hkey₁ hkey₂]
          apply hvalue
    · intro entry hentry
      apply hunique entry (List.mem_cons_of_mem _ hentry)

/-! ### The induction -/

/-- A value smaller than `bound`, with maps that come from insertions. -/
structure BuiltBelow (bound : Nat) (v : Value) : Prop where
  built : Built v
  size : sizeOf v < bound

namespace BuiltBelow

variable {bound : Nat} {items : List Value} {v : Value} {entries : Entries}
  {entry : Value × Value}

/-- An item of a list is smaller than the list. -/
theorem of_mem_list (h : BuiltBelow (bound + 1) (list items)) (hv : v ∈ items) :
  BuiltBelow bound v
  := by
  use h.built.of_mem_list hv
  have hlt := List.sizeOf_lt_of_mem hv
  have hsize := h.size
  rw [Value.list.sizeOf_spec] at hsize
  omega

/-- An item of a vector is smaller than the vector. -/
theorem of_mem_vector (h : BuiltBelow (bound + 1) (vector items)) (hv : v ∈ items) :
  BuiltBelow bound v
  := by
  use h.built.of_mem_vector hv
  have hlt := List.sizeOf_lt_of_mem hv
  have hsize := h.size
  rw [Value.vector.sizeOf_spec] at hsize
  omega

/-- A key and a value of a map are smaller than the map. -/
theorem of_mem_map (h : BuiltBelow (bound + 1) (map entries)) (hentry : entry ∈ entries) :
  BuiltBelow bound entry.1 ∧ BuiltBelow bound entry.2
  := by
  obtain ⟨hkey, hvalue⟩ := h.built.of_mem_map hentry
  have hlt := List.sizeOf_lt_of_mem hentry
  have hsize := h.size
  rw [Value.map.sizeOf_spec] at hsize
  have hpair : sizeOf entry = 1 + sizeOf entry.1 + sizeOf entry.2 := by
    obtain ⟨key, value⟩ := entry
    apply Prod.mk.sizeOf_spec
  constructor
  · exact ⟨hkey, by omega⟩
  · exact ⟨hvalue, by omega⟩

end BuiltBelow

/-- Equality is symmetric and transitive on the values smaller than `bound`. -/
structure EquivalenceBelow (bound : Nat) : Prop where
  symm : ∀ {a b}, BuiltBelow bound a → BuiltBelow bound b → equal a b → equal b a
  trans : ∀ {a b c}, BuiltBelow bound a → BuiltBelow bound b → BuiltBelow bound c →
    equal a b → equal b c → equal a c

namespace EquivalenceBelow

variable {bound : Nat} {x y z : Entries}

/-- Where equality is a partial equivalence on the keys, the entries of one map are in another if each has
an equal one there. -/
theorem entriesIn_iff (h : EquivalenceBelow bound) (hx : BuiltBelow (bound + 1) (map x))
    (hy : BuiltBelow (bound + 1) (map y)) :
  entriesIn x y ↔ ∀ entry ∈ x, ∃ entry' ∈ y, EqualEntries entry entry'
  := by
  apply Value.entriesIn_iff
  intro entry hentry entry₁ hentry₁ entry₂ hentry₂ hequal₁ hequal₂
  have hkey := (hx.of_mem_map hentry).1
  have hkey₁ := (hy.of_mem_map hentry₁).1
  have hkey₂ := (hy.of_mem_map hentry₂).1
  have hequal := h.trans hkey₁ hkey hkey₂ (h.symm hkey hkey₁ hequal₁) hequal₂
  apply hy.built.keysUnequal.eq_of_equal hentry₁ hentry₂ hequal
  apply h.symm hkey₁ hkey₂ hequal

/-- Two entries of `x` with the same partner would have equal keys. -/
theorem pairwise_partners (h : EquivalenceBelow bound) (hx : BuiltBelow (bound + 1) (map x))
    (hy : BuiltBelow (bound + 1) (map y)) :
  x.Pairwise fun entry later =>
    ∀ entry' ∈ y, EqualEntries entry entry' → ¬ EqualEntries later entry'
  := by
  apply hx.built.keysUnequal.imp_of_mem
  intro entry later hentry hlater hne entry' hentry' hequal hequal'
  have hkey := (hx.of_mem_map hentry).1
  have hkeyLater := (hx.of_mem_map hlater).1
  have hkey' := (hy.of_mem_map hentry').1
  have hequalKeys := h.trans hkey hkey' hkeyLater hequal.1 (h.symm hkeyLater hkey' hequal'.1)
  rw [hne] at hequalKeys
  cases hequalKeys

/-- Equality of maps is symmetric if equality is a partial equivalence on smaller values. The maps are of
one length, so that no entry of the second is left over. -/
theorem map_symm (h : EquivalenceBelow bound) (hx : BuiltBelow (bound + 1) (map x))
    (hy : BuiltBelow (bound + 1) (map y)) (hxy : equal (map x) (map y)) :
  equal (map y) (map x)
  := by
  rw [equal, Bool.and_eq_true, beq_iff_eq] at hxy ⊢
  rw [h.entriesIn_iff hx hy] at hxy
  rw [h.entriesIn_iff hy hx]
  obtain ⟨hlength, hentries⟩ := hxy
  obtain ⟨f, hf⟩ := exists_equiv_of_matching hlength hentries (h.pairwise_partners hx hy)
  use hlength.symm
  intro entry' hentry'
  obtain ⟨entry, hentry, hkeys, hvalues⟩ := (exists_of_equiv hf).2 entry' hentry'
  obtain ⟨hkey, hvalue⟩ := hx.of_mem_map hentry
  obtain ⟨hkey', hvalue'⟩ := hy.of_mem_map hentry'
  use entry, hentry, h.symm hkey hkey' hkeys, h.symm hvalue hvalue' hvalues

/-- Equality of maps is transitive if equality is a partial equivalence on smaller values. -/
theorem map_trans (h : EquivalenceBelow bound) (hx : BuiltBelow (bound + 1) (map x))
    (hy : BuiltBelow (bound + 1) (map y)) (hz : BuiltBelow (bound + 1) (map z))
    (hxy : equal (map x) (map y)) (hyz : equal (map y) (map z)) :
  equal (map x) (map z)
  := by
  rw [equal, Bool.and_eq_true, beq_iff_eq] at hxy hyz ⊢
  rw [h.entriesIn_iff hx hy] at hxy
  rw [h.entriesIn_iff hy hz] at hyz
  rw [h.entriesIn_iff hx hz]
  use hxy.1.trans hyz.1
  intro entry hentry
  obtain ⟨entry', hentry', hkeys, hvalues⟩ := hxy.2 entry hentry
  obtain ⟨entry'', hentry'', hkeys', hvalues'⟩ := hyz.2 entry' hentry'
  obtain ⟨hkey, hvalue⟩ := hx.of_mem_map hentry
  obtain ⟨hkey', hvalue'⟩ := hy.of_mem_map hentry'
  obtain ⟨hkey'', hvalue''⟩ := hz.of_mem_map hentry''
  use entry'', hentry''
  constructor
  · apply h.trans hkey hkey' hkey'' hkeys hkeys'
  · apply h.trans hvalue hvalue' hvalue'' hvalues hvalues'

/-- What is below the bound passes on to the values that are made of it. -/
theorem succ (h : EquivalenceBelow bound) :
  EquivalenceBelow (bound + 1)
  := by
  constructor
  · intro a b ha hb hab
    cases a <;> cases b <;> try cases hab
    case list.list xs ys =>
      apply equalItems_symm _ hab
      intro v hv w hw
      apply h.symm (ha.of_mem_list hv) (hb.of_mem_list hw)
    case vector.vector xs ys =>
      apply equalItems_symm _ hab
      intro v hv w hw
      apply h.symm (ha.of_mem_vector hv) (hb.of_mem_vector hw)
    case map.map x y => apply h.map_symm ha hb hab
    case float.float x y =>
      rw [equal] at hab ⊢
      rw [Double.beq_comm]
      apply hab
    case nil.nil.refl => rfl
    all_goals
      rw [equal, beq_iff_eq] at hab ⊢
      exact hab.symm
  · intro a b c ha hb hc hab hbc
    cases a <;> cases b <;> try cases hab
    all_goals cases c <;> try cases hbc
    case list.list.list xs ys zs =>
      apply equalItems_trans _ hab hbc
      intro u hu v hv w hw
      apply h.trans (ha.of_mem_list hu) (hb.of_mem_list hv) (hc.of_mem_list hw)
    case vector.vector.vector xs ys zs =>
      apply equalItems_trans _ hab hbc
      intro u hu v hv w hw
      apply h.trans (ha.of_mem_vector hu) (hb.of_mem_vector hv) (hc.of_mem_vector hw)
    case map.map.map x y z => apply h.map_trans ha hb hc hab hbc
    case float.float.float x y z => apply Double.beq_trans hab hbc
    case nil.nil.refl.nil.refl => rfl
    all_goals
      rw [equal, beq_iff_eq] at hab hbc ⊢
      exact hab.trans hbc

end EquivalenceBelow

/-- Equality is symmetric and transitive below every bound. -/
theorem equivalenceBelow (bound : Nat) :
  EquivalenceBelow bound
  := by
  induction bound with
  | zero =>
    constructor
    · intro a b ha
      cases ha.size
    · intro a b c ha
      cases ha.size
  | succ bound ih => apply ih.succ

/-! ### The laws -/

/-- Equality is symmetric. -/
theorem equal_symm {a b : Value} (ha : Built a) (hb : Built b) (h : equal a b) :
  equal b a
  := by
  apply (equivalenceBelow (sizeOf a + sizeOf b + 1)).symm ⟨ha, _⟩ ⟨hb, _⟩ h <;> omega

/-- Equality is transitive. -/
theorem equal_trans {a b c : Value} (ha : Built a) (hb : Built b) (hc : Built c)
    (hab : equal a b) (hbc : equal b c) :
  equal a c
  := by
  apply (equivalenceBelow (sizeOf a + sizeOf b + sizeOf c + 1)).trans ⟨ha, _⟩ ⟨hb, _⟩ ⟨hc, _⟩
    hab hbc <;> omega

/-- It makes no difference in which order two values are compared. -/
theorem equal_comm {a b : Value} (ha : Built a) (hb : Built b) :
  equal a b = equal b a
  := by
  rw [Bool.eq_iff_iff]
  use equal_symm ha hb, equal_symm hb ha

/-- No two keys are equal, in whichever direction they are compared. -/
theorem pairwise_unequal {entries : Entries} (hkeys : ∀ entry ∈ entries, Built entry.1)
    (h : Entries.KeysUnequal entries) :
  entries.Pairwise fun entry later =>
    entry.1.equal later.1 = false ∧ later.1.equal entry.1 = false
  := by
  apply h.imp_of_mem
  intro entry later hentry hlater hunequal
  use hunequal
  rw [equal_comm (hkeys later hlater) (hkeys entry hentry), hunequal]

/-- A value that is equal to something is equal to itself. -/
theorem equal_self_of_equal {a b : Value} (ha : Built a) (hb : Built b) (h : equal a b) :
  equal a a
  := by
  apply equal_trans ha hb ha h (equal_symm ha hb h)

/-- Equal values are of one kind. -/
theorem sameKind_of_equal {a b : Value} (h : equal a b) :
  sameKind a b
  := by
  cases a <;> cases b <;> first | rfl | cases h

/-- Maps are equal if they have as many entries, and each of the first has one of the second with
an equal key and an equal value. -/
theorem equal_map_iff {x y : Entries} (hx : Built (map x)) (hy : Built (map y)) :
  equal (map x) (map y) ↔
    x.length = y.length ∧ ∀ entry ∈ x, ∃ entry' ∈ y, EqualEntries entry entry'
  := by
  rw [equal, Bool.and_eq_true, beq_iff_eq,
    (equivalenceBelow (sizeOf (map x) + sizeOf (map y))).entriesIn_iff ⟨hx, _⟩ ⟨hy, _⟩] <;> omega

/-- Equality of maps in terms of looking up keys: it makes no difference which of two keys is
compared with the other. -/
theorem equal_map_eq_all_get? {x y : Entries} (hx : Built (map x)) (hy : Built (map y)) :
  equal (map x) (map y) =
    (x.length == y.length && x.all fun entry => (Entries.get? y entry.1).any (equal entry.2))
  := by
  rw [equal]
  congr 1
  have hkeys : ∀ entry ∈ x, Built entry.1 := fun entry h => (hx.of_mem_map h).1
  clear hx
  induction x with
  | nil => rfl
  | cons entry x ih =>
    have hfind : (y.find? fun entry' => equal entry.1 entry'.1) =
        y.find? fun entry' => equal entry'.1 entry.1 := by
      apply List.find?_congr
      intro entry' hentry'
      apply equal_comm (hkeys entry List.mem_cons_self) (hy.of_mem_map hentry').1
    rw [entriesIn, hfind, List.all_cons, ih fun e h => hkeys e (List.mem_cons_of_mem entry h),
      Entries.get?]
    cases y.find? fun entry' => equal entry'.1 entry.1 <;> rfl

/-! ### Not-a-number -/

/-- Not-a-number occurs in the value: as the value itself, in an item of a list or a vector, or
in a key or a value of a map.  The bodies of procedures do not count. -/
inductive HasNaN : Value → Prop
  | float {x : Float} (h : x.isNaN) : HasNaN (.float x)
  | list {items : List Value} {v : Value} (hmem : v ∈ items) (h : HasNaN v) : HasNaN (.list items)
  | vector {items : List Value} {v : Value} (hmem : v ∈ items) (h : HasNaN v) :
    HasNaN (.vector items)
  | key {entries : Entries} {entry : Value × Value} (hmem : entry ∈ entries)
      (h : HasNaN entry.1) : HasNaN (.map entries)
  | value {entries : Entries} {entry : Value × Value} (hmem : entry ∈ entries)
      (h : HasNaN entry.2) : HasNaN (.map entries)

/-- Not-a-number is the only float in which it occurs. -/
theorem hasNaN_float_iff {x : Float} :
  HasNaN (float x) ↔ x.isNaN
  := by
  constructor
  · rintro ⟨h⟩
    apply h
  · apply HasNaN.float

/-- Not-a-number occurs in a list if it occurs in an item. -/
theorem hasNaN_list_iff {items : List Value} :
  HasNaN (list items) ↔ ∃ v ∈ items, HasNaN v
  := by
  constructor
  · intro h
    cases h with
    | @list _ v hmem h => use v, hmem, h
  · rintro ⟨v, hmem, h⟩
    apply HasNaN.list hmem h

/-- Not-a-number occurs in a vector if it occurs in an item. -/
theorem hasNaN_vector_iff {items : List Value} :
  HasNaN (vector items) ↔ ∃ v ∈ items, HasNaN v
  := by
  constructor
  · intro h
    cases h with
    | @vector _ v hmem h => use v, hmem, h
  · rintro ⟨v, hmem, h⟩
    apply HasNaN.vector hmem h

/-- Not-a-number occurs in a map if it occurs in a key or in a value. -/
theorem hasNaN_map_iff {entries : Entries} :
  HasNaN (map entries) ↔ ∃ entry ∈ entries, HasNaN entry.1 ∨ HasNaN entry.2
  := by
  constructor
  · intro h
    cases h with
    | @key _ entry hmem h => use entry, hmem, .inl h
    | @value _ entry hmem h => use entry, hmem, .inr h
  · rintro ⟨entry, hmem, h | h⟩
    · apply HasNaN.key hmem h
    · apply HasNaN.value hmem h

/-- A map is equal to itself if each of its entries is. -/
theorem equal_map_self_iff {entries : Entries} (h : Built (map entries)) :
  equal (map entries) (map entries) ↔ ∀ entry ∈ entries, EqualEntries entry entry
  := by
  rw [equal_map_iff h h]
  constructor
  · rintro ⟨-, hentries⟩ entry hentry
    obtain ⟨entry', hentry', hkey, hvalue⟩ := hentries entry hentry
    obtain ⟨hbuiltKey, hbuiltValue⟩ := h.of_mem_map hentry
    obtain ⟨hbuiltKey', hbuiltValue'⟩ := h.of_mem_map hentry'
    constructor
    · apply equal_self_of_equal hbuiltKey hbuiltKey' hkey
    · apply equal_self_of_equal hbuiltValue hbuiltValue' hvalue
  · intro hentries
    use rfl
    intro entry hentry
    use entry, hentry, (hentries entry hentry).1, (hentries entry hentry).2

/-- What decides of the elements whether they are equal to themselves decides it of a row. -/
theorem equalItems_self_iff_not_hasNaN {items : List Value}
    (h : ∀ v ∈ items, equal v v ↔ ¬ HasNaN v) :
  equalItems items items ↔ ¬ ∃ v ∈ items, HasNaN v
  := by
  rw [equalItems_self_iff, not_exists]
  apply forall_congr'
  intro v
  rw [not_and]
  apply forall_congr' (h v)

/-- A value is equal to itself exactly if not-a-number does not occur in it. -/
theorem equal_self_iff {a : Value} (ha : Built a) :
  equal a a ↔ ¬ HasNaN a
  := by
  induction ha with
  | list h ih => rw [equal, equalItems_self_iff_not_hasNaN ih, hasNaN_list_iff]
  | vector h ih => rw [equal, equalItems_self_iff_not_hasNaN ih, hasNaN_vector_iff]
  | @map pairs hkeys hvalues ihkeys ihvalues =>
    have hentries := Entries.forall_ofList (P := fun v => equal v v ↔ ¬ HasNaN v)
      (Q := fun v => equal v v ↔ ¬ HasNaN v)
      fun pair hpair => ⟨ihkeys pair hpair, ihvalues pair hpair⟩
    rw [equal_map_self_iff (.map hkeys hvalues), hasNaN_map_iff, not_exists]
    apply forall_congr'
    intro entry
    rw [not_and]
    apply forall_congr'
    intro hentry
    obtain ⟨hkey, hvalue⟩ := hentries entry hentry
    rw [EqualEntries, hkey, hvalue, not_or]
  | @other v h =>
    cases v
    case float x => rw [equal, Double.beq_self_iff, hasNaN_float_iff, Bool.not_eq_true]
    case list => cases h
    case vector => cases h
    case map => cases h
    all_goals
      simp only [equal, beq_self_eq_true, true_iff]
      rintro ⟨⟩

/-- Equality is symmetric and transitive, it holds within one kind only, and exactly the values
without not-a-number are equal to themselves. -/
theorem equal_partial_equivalence {a b c : Value} (ha : Built a) (hb : Built b) (hc : Built c) :
  equal a b = equal b a ∧
  (equal a b → equal b c → equal a c) ∧
  (equal a b → sameKind a b) ∧
  (equal a a ↔ ¬ HasNaN a)
  := by
  constructor
  · rw [Bool.eq_iff_iff]
    use equal_symm ha hb, equal_symm hb ha
  · use equal_trans ha hb hc, sameKind_of_equal
    apply equal_self_iff ha

/-- The map whose only key is a map with two keys. -/
def keyedByMap (key key' : Value) : Value :=
  map (Entries.ofList [(map (Entries.ofList [(key, nil), (key', nil)]), nil)])

/-- A map whose keys are maps comes from insertions if the keys do. -/
theorem built_keyedByMap {key key' : Value} (hkey : Built key) (hkey' : Built key') :
  Built (keyedByMap key key')
  := by
  have hnil : Built nil := .other rfl
  apply Built.map <;> intro pair hpair <;> obtain rfl := List.mem_singleton.mp hpair
  · apply Built.map <;> simp [hkey, hkey', hnil]
  · apply hnil

/-- Two maps with maps for keys, in which the same entries are in another order, are equal both ways. -/
theorem equal_partial_equivalence_keyedByMap :
  equal (keyedByMap (integer 1) (float 0)) (keyedByMap (float 0) (integer 1)) ∧
  equal (keyedByMap (float 0) (integer 1)) (keyedByMap (integer 1) (float 0)) ∧
  ¬ HasNaN (keyedByMap (integer 1) (float 0))
  := by
  have hinteger : Built (integer 1) := .other rfl
  have hfloat : Built (float 0) := .other rfl
  have hequal : equal (keyedByMap (integer 1) (float 0)) (keyedByMap (float 0) (integer 1)) := by
    decide +kernel
  have hbuilt := built_keyedByMap hinteger hfloat
  obtain ⟨hsymm, htrans, -, hself⟩ :=
    equal_partial_equivalence hbuilt (built_keyedByMap hfloat hinteger) hbuilt
  use hequal, hsymm ▸ hequal
  apply hself.mp
  apply htrans hequal (hsymm ▸ hequal)

end Value

end PocketLisp
