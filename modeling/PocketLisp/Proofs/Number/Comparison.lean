import Mathlib.Data.List.Chain
import PocketLisp.Proofs.Double.Order
import PocketLisp.Proofs.Host.Numeric

/-!
# Comparisons of rows of numbers

A comparison asks of each two neighbours in a row of numbers whether they stand in a relation.
Integers are compared exactly, and as soon as one of the two numbers is a float both are compared as
floats.  Rounding integers preserves the order but may make equal what is not.  Therefore the
relation need not pass on through a float from one integer to another, if it admits equal numbers.
Else, what holds of all neighbours holds of each two numbers in the row.
-/

namespace PocketLisp.Number

namespace Comparison

/-- The primitive of a comparison. -/
def primitive : Comparison → Primitive
  | less => .less
  | lessOrEqual => .lessOrEqual
  | greater => .greater
  | greaterOrEqual => .greaterOrEqual

/-- Whether equal numbers stand in the relation. -/
def admitsEqual : Comparison → Bool
  | less | greater => false
  | lessOrEqual | greaterOrEqual => true

/-- Whether two integers stand in the relation. -/
def Holds : Comparison → Int → Int → Prop
  | less, m, n => m < n
  | lessOrEqual, m, n => m ≤ n
  | greater, m, n => n < m
  | greaterOrEqual, m, n => n ≤ m

/-- Whether two integers stand in the relation or are equal. -/
def Weakly (relation : Comparison) (m n : Int) : Prop :=
  relation.Holds m n ∨ m = n

variable {relation : Comparison} {k m n : Int}

/-- The relation is transitive. -/
theorem Holds.trans (h : relation.Holds k m) (h' : relation.Holds m n) :
  relation.Holds k n
  := by
  cases relation <;> simp only [Holds] at * <;> omega

/-- It stays so if equal numbers are added to it. -/
theorem Weakly.trans (h : relation.Weakly k m) (h' : relation.Weakly m n) :
  relation.Weakly k n
  := by
  rcases h with h | rfl
  · rcases h' with h' | rfl
    · exact .inl (h.trans h')
    · exact .inl h
  · apply h'

/-- What stands in the relation to a number stands in it to an equal one, and to what that number
stands in it to. -/
theorem Holds.trans_weakly (h : relation.Holds k m) (h' : relation.Weakly m n) :
  relation.Holds k n
  := by
  rcases h' with h' | rfl
  · apply h.trans h'
  · apply h

/-- The same on the other side. -/
theorem Weakly.trans_holds (h : relation.Weakly k m) (h' : relation.Holds m n) :
  relation.Holds k n
  := by
  rcases h with h | rfl
  · apply h.trans h'
  · apply h'

/-- A function that preserves the order preserves the relation, up to equality. -/
theorem Holds.weakly_map {f : Int → Int} (hf : Monotone f) (h : relation.Holds m n) :
  relation.Weakly (f m) (f n)
  := by
  cases relation with
  | less => exact (hf (le_of_lt h)).lt_or_eq
  | lessOrEqual => exact .inl (hf h)
  | greater => exact (hf (le_of_lt h)).lt_or_eq.imp_right Eq.symm
  | greaterOrEqual => exact .inl (hf h)

/-- A function that preserves the order reflects the relation, unless it makes numbers equal that
are not and the relation admits them. -/
theorem holds_of_map {f : Int → Int} (hf : Monotone f) (h : relation.Holds (f m) (f n)) :
  relation.Holds m n ∨ relation.admitsEqual ∧ f m = f n
  := by
  cases relation with
  | less => exact .inl (hf.reflect_lt h)
  | lessOrEqual => exact (le_or_gt m n).imp_right fun hlt => ⟨rfl, le_antisymm h (hf hlt.le)⟩
  | greater => exact .inl (hf.reflect_lt h)
  | greaterOrEqual => exact (le_or_gt n m).imp_right fun hlt => ⟨rfl, le_antisymm (hf hlt.le) h⟩

end Comparison

variable {relation : Comparison} {a b c : Number}

/-- Whether a number is a float. -/
def isFloat : Number → Bool
  | integer _ => false
  | float _ => true

/-- The place of a number in the order of floats. -/
def rank (n : Number) : Int :=
  Double.rank n.toFloat

/-! ### Two numbers -/

/-- Integers are compared exactly. -/
theorem compares_integers {m n : Int64} :
  (integer m).compares relation (integer n) ↔ relation.Holds m.toInt n.toInt
  := by
  cases relation <;> apply decide_eq_true_iff

/-- As soon as one of two numbers is a float they are compared by their ranks. -/
theorem compares_float (ha : a.toFloat.isNaN = false) (hb : b.toFloat.isNaN = false)
    (hfloat : a.isFloat ∨ b.isFloat) :
  a.compares relation b ↔ relation.Holds a.rank b.rank
  := by
  unfold compares
  split
  next => rcases hfloat with ⟨⟨⟩⟩ | ⟨⟨⟩⟩
  next =>
    cases relation with
    | less => exact decide_eq_true_iff.trans (Double.lt_iff ha hb)
    | lessOrEqual => exact decide_eq_true_iff.trans (Double.le_iff ha hb)
    | greater => exact decide_eq_true_iff.trans (Double.lt_iff hb ha)
    | greaterOrEqual => exact decide_eq_true_iff.trans (Double.le_iff hb ha)

/-- Of two integers the smaller one is rounded to no greater double. -/
theorem monotone_rank_ofInt :
  Monotone fun n => Double.rank (Double.ofInt n)
  := fun _ _ => Double.rank_ofInt_mono

/-- The ranks of two numbers stand in the relation if the numbers do, or are equal. -/
theorem weakly_of_compares (ha : a.toFloat.isNaN = false) (hb : b.toFloat.isNaN = false)
    (h : a.compares relation b) :
  relation.Weakly a.rank b.rank
  := by
  by_cases hfloat : a.isFloat ∨ b.isFloat
  · exact .inl ((compares_float ha hb hfloat).mp h)
  · cases a with
    | float x => cases hfloat (.inl rfl)
    | integer m =>
      cases b with
      | float y => cases hfloat (.inr rfl)
      | integer n => apply (compares_integers.mp h).weakly_map monotone_rank_ofInt

/-! ### Rows -/

/-- Whether each two neighbours in a row stand in the relation. -/
abbrev Chain (relation : Comparison) (numbers : List Number) : Prop :=
  numbers.IsChain fun a b => a.compares relation b

/-- The operation asks of each two neighbours whether they stand in the relation. -/
theorem chained_iff {rest : List Number} :
  a.chained relation rest ↔ Chain relation (a :: rest)
  := by
  induction rest generalizing a with
  | nil => simp [chained]
  | cons b rest ih =>
    unfold Chain at ih ⊢
    rw [chained, Bool.and_eq_true, ih, List.isChain_cons_cons]

variable {between : List Number}

/-- Between integers only the relation passes on exactly. -/
theorem holds_of_chain {m n : Int64} (hbetween : ∀ c ∈ between, c.isFloat = false)
    (h : Chain relation (integer m :: between ++ [integer n])) :
  relation.Holds m.toInt n.toInt
  := by
  induction between generalizing m with
  | nil =>
    have hstep := List.isChain_pair.mp h
    apply compares_integers.mp hstep
  | cons c between ih =>
    obtain ⟨hc, hlater⟩ := List.forall_mem_cons.mp hbetween
    obtain ⟨hfirst, hrest⟩ := List.isChain_cons_cons.mp h
    cases c with
    | float x => cases hc
    | integer k => apply (compares_integers.mp hfirst).trans (ih hlater hrest)

/-- The relation passes on to the ranks, up to equality; and if there is a float in the row, then
one step is strict if the relation is. -/
theorem rank_of_chain (hnan : ∀ c ∈ a :: between ++ [b], c.toFloat.isNaN = false)
    (h : Chain relation (a :: between ++ [b])) :
  relation.Weakly a.rank b.rank ∧
    ((∃ c ∈ a :: between ++ [b], c.isFloat) → relation.Holds a.rank b.rank)
  := by
  induction between generalizing a with
  | nil =>
    have ha := hnan a (by simp)
    have hb := hnan b (by simp)
    have hstep := List.isChain_pair.mp h
    use weakly_of_compares ha hb hstep
    intro hfloat
    apply (compares_float ha hb (by simpa using hfloat)).mp hstep
  | cons c between ih =>
    have ha := hnan a (by simp)
    have hc := hnan c (by simp)
    obtain ⟨hstep, hrest⟩ := List.isChain_cons_cons.mp h
    obtain ⟨hweakly, hholds⟩ := ih (fun d hd => hnan d (List.mem_cons_of_mem a hd)) hrest
    have hstep' := weakly_of_compares ha hc hstep
    use hstep'.trans hweakly
    rintro ⟨d, hd, hfloat⟩
    rcases List.mem_cons.mp hd with rfl | hd
    · apply ((compares_float ha hc (.inl hfloat)).mp hstep).trans_weakly hweakly
    · apply hstep'.trans_holds (hholds ⟨d, hd, hfloat⟩)

/-- The ends of a row stand in the relation, unless they are integers that a float between them does
not tell apart. -/
theorem compares_of_chain (hnan : ∀ c ∈ a :: between ++ [b], c.toFloat.isNaN = false)
    (h : Chain relation (a :: between ++ [b])) :
  a.compares relation b ∨
    relation.admitsEqual ∧ (∃ x, float x ∈ between) ∧
      ∃ m n : Int64, a = integer m ∧ b = integer n ∧
        Double.ofInt m.toInt == Double.ofInt n.toInt
  := by
  obtain ⟨-, hholds⟩ := rank_of_chain hnan h
  by_cases hends : a.isFloat ∨ b.isFloat
  · left
    apply (compares_float (hnan a (by simp)) (hnan b (by simp)) hends).mpr
    apply hholds
    rcases hends with ha | hb
    · exact ⟨a, by simp, ha⟩
    · exact ⟨b, by simp, hb⟩
  cases a with
  | float x => cases hends (.inl rfl)
  | integer m =>
    cases b with
    | float y => cases hends (.inr rfl)
    | integer n =>
      by_cases hbetween : ∀ c ∈ between, c.isFloat = false
      · exact .inl (compares_integers.mpr (holds_of_chain hbetween h))
      · obtain ⟨x, hx⟩ : ∃ x, float x ∈ between := by
          push Not at hbetween
          obtain ⟨c, hc, hfloat⟩ := hbetween
          cases c with
          | integer k => contradiction
          | float x => exact ⟨x, hc⟩
        have hrank := hholds ⟨float x, by simp [hx], rfl⟩
        rcases Comparison.holds_of_map monotone_rank_ofInt hrank with hexact | ⟨hadmits, hequal⟩
        · exact .inl (compares_integers.mpr hexact)
        · refine .inr ⟨hadmits, ⟨x, hx⟩, m, n, rfl, rfl, ?_⟩
          apply (Double.beq_iff_rank_eq (Double.isNaN_ofInt _) (Double.isNaN_ofInt _)).mpr hequal

/-! ### Calls -/

/-- A comparison of some numbers asks of each two neighbours whether they stand in the relation. -/
theorem call_comparison (relation : Comparison) (first : Number) (rest : List Number) :
  relation.primitive.call ((first :: rest).map toValue)
    = .ok (.boolean (first.chained relation rest))
  := by
  have haccepts : relation.primitive.arity.accepts ((first :: rest).map toValue).length :=
    Primitive.accepts_of_isNumeric (by cases relation <;> rfl) (Nat.succ_pos _)
  have hvalues := Payloads.ofValues_first_numbers first rest
  cases relation with
  | less | lessOrEqual | greater | greaterOrEqual =>
    rw [Primitive.call_of_ofValues haccepts hvalues]
    rfl

/-- A row for which a comparison is true is a chain. -/
theorem chain_of_call {numbers : List Number} (hne : numbers ≠ [])
    (h : relation.primitive.call (numbers.map toValue) = .ok (.boolean true)) :
  Chain relation numbers
  := by
  cases numbers with
  | nil => contradiction
  | cons first rest =>
    rw [call_comparison] at h
    cases hchained : first.chained relation rest with
    | false =>
      rw [hchained] at h
      cases h
    | true => apply chained_iff.mp hchained

/-- A comparison of two numbers that stand in the relation is true. -/
theorem call_pair (h : a.compares relation b) :
  relation.primitive.call [a.toValue, b.toValue] = .ok (.boolean true)
  := by
  have hcall := call_comparison relation a [b]
  rw [chained, h] at hcall
  apply hcall

/-- If a comparison of a row of numbers is true, then so is the comparison of each two of them.
Only two integers may be out of order, where the relation admits equal numbers, both integers are
rounded to the same float, and there is a float between them. -/
theorem call_comparison_pair {numbers : List Number}
    (hnan : ∀ x, float x ∈ numbers → x.isNaN = false)
    (h : relation.primitive.call (numbers.map toValue) = .ok (.boolean true))
    {before between after : List Number}
    (hrow : numbers = before ++ a :: between ++ b :: after) :
  relation.primitive.call [a.toValue, b.toValue] = .ok (.boolean true) ∨
    (relation = .lessOrEqual ∨ relation = .greaterOrEqual) ∧ (∃ x, float x ∈ between) ∧
      ∃ m n : Int64, a = integer m ∧ b = integer n ∧
        Double.ofInt m.toInt == Double.ofInt n.toInt
  := by
  subst hrow
  have hchain := chain_of_call (by simp) h
  have hends : Chain relation (a :: between ++ [b]) := by
    have hleft := (List.isChain_split.mp hchain).1
    rw [List.append_assoc] at hleft
    apply hleft.right_of_append
  have hnan : ∀ c ∈ a :: between ++ [b], c.toFloat.isNaN = false := by
    intro c hc
    cases c with
    | integer n => apply Double.isNaN_ofInt
    | float x =>
      apply hnan x
      rw [List.append_assoc]
      apply List.mem_append_right before
      have hsublist : (a :: between ++ [b]).Sublist (a :: between ++ b :: after) := by
        simp
      apply hsublist.subset hc
  rcases compares_of_chain hnan hends with hpair | ⟨hadmits, hexception⟩
  · exact .inl (call_pair hpair)
  · right
    refine ⟨?_, hexception⟩
    cases relation with
    | less | greater => cases hadmits
    | lessOrEqual => exact .inl rfl
    | greaterOrEqual => exact .inr rfl

/-- A float between two integers. -/
theorem call_comparison_pair_mixed :
  Primitive.less.call [.integer 1, .float 1.5, .integer 2] = .ok (.boolean true) ∧
    Primitive.less.call [.integer 1, .integer 2] = .ok (.boolean true)
  := by
  have hchained : (integer 1).chained .less [float 1.5, integer 2] = true := by
    decide +kernel
  have hcall := call_comparison .less (integer 1) [float 1.5, integer 2]
  rw [hchained] at hcall
  have hnan : ∀ x, float x ∈ [integer 1, float 1.5, integer 2] → x.isNaN = false := by
    intro x hx
    obtain rfl : x = 1.5 := by simpa using hx
    decide +kernel
  have hrow : [integer 1, float 1.5, integer 2]
      = [] ++ integer 1 :: [float 1.5] ++ integer 2 :: [] :=
    rfl
  rcases call_comparison_pair hnan hcall hrow with hpair | ⟨⟨⟨⟩⟩ | ⟨⟨⟩⟩, -⟩
  exact ⟨hcall, hpair⟩

/-- The integer above `2 ^ 53` is rounded to `2 ^ 53`, and passes for equal to this float. -/
theorem call_lessOrEqual_not_transitive :
  Float.isNaN 9007199254740992.0 = false ∧
    Primitive.lessOrEqual.call
        [.integer 9007199254740993, .float 9007199254740992.0, .integer 9007199254740992]
      = .ok (.boolean true) ∧
    Primitive.lessOrEqual.call [.integer 9007199254740993, .integer 9007199254740992]
      = .ok (.boolean false)
  := by
  have hrow := call_comparison .lessOrEqual (integer 9007199254740993)
    [float 9007199254740992.0, integer 9007199254740992]
  have hpair := call_comparison .lessOrEqual (integer 9007199254740993)
    [integer 9007199254740992]
  have hchained : (integer 9007199254740993).chained .lessOrEqual
      [float 9007199254740992.0, integer 9007199254740992] = true := by
    decide +kernel
  rw [hchained] at hrow
  exact ⟨by decide +kernel, hrow, hpair⟩

end PocketLisp.Number
