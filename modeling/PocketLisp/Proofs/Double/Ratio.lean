import Mathlib.Algebra.Order.Archimedean.Basic
import Mathlib.Algebra.Order.Field.Power
import Mathlib.Algebra.Order.Floor.Semifield
import Mathlib.Data.Rat.Floor
import Mathlib.Tactic.FieldSimp
import Mathlib.Tactic.Ring
import PocketLisp.Double.Ratio

/-!
# Ratios as rational numbers

`Ratio.toRat` is the rational number that a ratio stands for, and the operations on ratios are
described by what they do to it.
-/

namespace PocketLisp.Ratio

/-- The rational number of a ratio. -/
def toRat (r : Ratio) : ℚ :=
  r.numerator / r.denominator

/-- A ratio that stands for a positive number. -/
structure Positive (r : Ratio) : Prop where
  numerator : 0 < r.numerator
  denominator : 0 < r.denominator

/-- A natural number over one is that number. -/
@[simp]
theorem toRat_mk_one (n : Nat) :
  toRat ⟨n, 1⟩ = n
  := by
  simp [toRat]

/-! ### Scaling -/

/-- Scaling by powers of two divides the rational number. -/
theorem toRat_inPowersOfTwo (r : Ratio) (e : Int) :
  (r.inPowersOfTwo e).toRat = r.toRat / 2 ^ e
  := by
  rw [inPowersOfTwo, toRat, toRat]
  split
  next he =>
    obtain ⟨n, rfl⟩ := Int.eq_ofNat_of_zero_le he
    simp [Nat.shiftLeft_eq, div_div]
  next he =>
    obtain ⟨n, rfl⟩ := Int.eq_negSucc_of_lt_zero (Int.lt_of_not_ge he)
    simp [Nat.shiftLeft_eq, zpow_negSucc]
    ring

/-- Scaling by powers of ten divides the rational number. -/
theorem toRat_inPowersOfTen (r : Ratio) (e : Int) :
  (r.inPowersOfTen e).toRat = r.toRat / 10 ^ e
  := by
  rw [inPowersOfTen, toRat, toRat]
  split
  next he =>
    obtain ⟨n, rfl⟩ := Int.eq_ofNat_of_zero_le he
    simp [div_div]
  next he =>
    obtain ⟨n, rfl⟩ := Int.eq_negSucc_of_lt_zero (Int.lt_of_not_ge he)
    simp [zpow_negSucc]
    ring

/-- Scaling by powers of two keeps a ratio positive. -/
theorem Positive.inPowersOfTwo {r : Ratio} (h : r.Positive) (e : Int) :
  (r.inPowersOfTwo e).Positive
  := by
  obtain ⟨hnumerator, hdenominator⟩ := h
  rw [Ratio.inPowersOfTwo]
  split
  · use hnumerator
    simp [Nat.shiftLeft_eq, hdenominator]
  · refine ⟨?_, hdenominator⟩
    simp [Nat.shiftLeft_eq, hnumerator]

/-- Scaling by powers of ten keeps a ratio positive. -/
theorem Positive.inPowersOfTen {r : Ratio} (h : r.Positive) (e : Int) :
  (r.inPowersOfTen e).Positive
  := by
  obtain ⟨hnumerator, hdenominator⟩ := h
  rw [Ratio.inPowersOfTen]
  split
  · use hnumerator
    simp [hdenominator]
  · refine ⟨?_, hdenominator⟩
    simp [hnumerator]

/-! ### Rounding -/

/-- The floor of a ratio is the floor of its rational number. -/
theorem floor_eq (r : Ratio) :
  r.floor = ⌊r.toRat⌋₊
  := by
  rw [toRat, Nat.floor_div_eq_div]
  rfl

/-- A ratio is rounded up by one at most. -/
theorem round_le (r : Ratio) :
  r.round ≤ r.floor + 1
  := by
  rw [round]
  split <;> omega

/-- A ratio is not rounded below its floor. -/
theorem floor_le_round (r : Ratio) :
  r.floor ≤ r.round
  := by
  rw [round]
  split <;> omega

/-- A ratio is its floor and what remains over the denominator. -/
theorem toRat_eq_floor_add {r : Ratio} (h : r.Positive) :
  r.toRat = r.floor + ((r.numerator % r.denominator : Nat) : ℚ) / r.denominator
  := by
  have hdenominator : (r.denominator : ℚ) ≠ 0 := by exact_mod_cast h.denominator.ne'
  rw [toRat, div_eq_iff hdenominator, add_mul, div_mul_cancel₀ _ hdenominator, mul_comm]
  exact_mod_cast (Nat.div_add_mod r.numerator r.denominator).symm

/-- A ratio is below the middle if its rational number is. -/
theorem isBelowMiddle_iff {r : Ratio} (h : r.Positive) :
  r.isBelowMiddle ↔ r.toRat < r.floor + 1 / 2
  := by
  have hdenominator : (0 : ℚ) < r.denominator := by exact_mod_cast h.denominator
  rw [isBelowMiddle, decide_eq_true_iff, toRat_eq_floor_add h, add_lt_add_iff_left,
    div_lt_div_iff₀ hdenominator two_pos, one_mul, mul_comm]
  norm_cast

/-- A ratio is in the middle if its rational number is. -/
theorem isMiddle_iff {r : Ratio} (h : r.Positive) :
  r.isMiddle ↔ r.toRat = r.floor + 1 / 2
  := by
  have hdenominator : (r.denominator : ℚ) ≠ 0 := by exact_mod_cast h.denominator.ne'
  rw [isMiddle, beq_iff_eq, toRat_eq_floor_add h, add_right_inj,
    div_eq_div_iff hdenominator two_ne_zero, one_mul, mul_comm]
  norm_cast

/-- Rounding preserves the order. -/
theorem round_mono {r r' : Ratio} (h : r.Positive) (h' : r'.Positive) (hle : r.toRat ≤ r'.toRat) :
  r.round ≤ r'.round
  := by
  have hfloor : r.floor ≤ r'.floor := by
    rw [floor_eq, floor_eq]
    apply Nat.floor_mono hle
  rcases hfloor.lt_or_eq with hlt | heq
  · apply (round_le r).trans
    apply hlt.trans_le (floor_le_round r')
  by_cases hdown : (r'.isBelowMiddle || (r'.isMiddle && r'.floor % 2 == 0))
  · -- What is not above the middle is no more above it if it gets smaller.
    have hdown' : (r.isBelowMiddle || (r.isMiddle && r.floor % 2 == 0)) := by
      rw [Bool.or_eq_true, Bool.and_eq_true, isBelowMiddle_iff h', isMiddle_iff h'] at hdown
      rw [Bool.or_eq_true, Bool.and_eq_true, isBelowMiddle_iff h, isMiddle_iff h, heq]
      rcases hdown with hbelow | ⟨hmiddle, heven⟩
      · exact .inl (hle.trans_lt hbelow)
      · rcases (hle.trans_eq hmiddle).lt_or_eq with hbelow | hmiddle
        · exact .inl hbelow
        · exact .inr ⟨hmiddle, heven⟩
    rw [round, round, if_pos hdown, if_pos hdown', heq]
  · apply (round_le r).trans
    rw [round, if_neg hdown, heq]

/-- A whole number is rounded to itself. -/
theorem round_eq {r : Ratio} (h : r.Positive) {n : Nat} (hn : r.toRat = n) :
  r.round = n
  := by
  have hdenominator := h.denominator
  have hnumerator : r.numerator = n * r.denominator := by
    rw [toRat, div_eq_iff (by exact_mod_cast hdenominator.ne')] at hn
    exact_mod_cast hn
  have hbelow : r.isBelowMiddle := by
    simp [isBelowMiddle, hnumerator, hdenominator]
  rw [round, hbelow, Bool.true_or, if_pos rfl, floor_eq, hn, Nat.floor_natCast]

/-! ### Logarithms -/

/-- The difference of the lengths of numerator and denominator is the logarithm or one too
much. -/
theorem guess_bounds {r : Ratio} (h : r.Positive) :
  2 ^ ((r.numerator.log2 : Int) - r.denominator.log2 - 1) ≤ r.toRat ∧
    r.toRat < 2 ^ ((r.numerator.log2 : Int) - r.denominator.log2 + 1)
  := by
  have hdenominator : (0 : ℚ) < r.denominator := by exact_mod_cast h.denominator
  have hnumeratorLe : (2 : ℚ) ^ r.numerator.log2 ≤ r.numerator := by
    exact_mod_cast Nat.log2_self_le h.numerator.ne'
  have hdenominatorLe : (2 : ℚ) ^ r.denominator.log2 ≤ r.denominator := by
    exact_mod_cast Nat.log2_self_le h.denominator.ne'
  have hnumeratorLt : (r.numerator : ℚ) < 2 ^ (r.numerator.log2 + 1) := by
    exact_mod_cast Nat.lt_log2_self
  have hdenominatorLt : (r.denominator : ℚ) < 2 ^ (r.denominator.log2 + 1) := by
    exact_mod_cast Nat.lt_log2_self
  rw [toRat]
  constructor
  · calc
      (2 : ℚ) ^ ((r.numerator.log2 : Int) - r.denominator.log2 - 1)
        = 2 ^ r.numerator.log2 / 2 ^ (r.denominator.log2 + 1) := by
          rw [sub_sub, zpow_sub₀ (by norm_num)]
          norm_cast
      _ ≤ r.numerator / r.denominator := by
          apply div_le_div₀ (by positivity) hnumeratorLe hdenominator hdenominatorLt.le
  · calc
      (r.numerator : ℚ) / r.denominator
        ≤ r.numerator / 2 ^ r.denominator.log2 := by
          apply div_le_div_of_nonneg_left (by positivity) (by positivity) hdenominatorLe
      _ < 2 ^ (r.numerator.log2 + 1) / 2 ^ r.denominator.log2 := by
          apply div_lt_div_of_pos_right hnumeratorLt (by positivity)
      _ = 2 ^ ((r.numerator.log2 : Int) - r.denominator.log2 + 1) := by
          rw [sub_add_eq_add_sub, zpow_sub₀ (by norm_num)]
          norm_cast

/-- A ratio is between the powers of two that its logarithm gives. -/
theorem log2_spec {r : Ratio} (h : r.Positive) :
  2 ^ r.log2 ≤ r.toRat ∧ r.toRat < 2 ^ (r.log2 + 1)
  := by
  obtain ⟨hle, hlt⟩ := guess_bounds h
  simp only [log2, Int.ofNat_eq_natCast]
  generalize (r.numerator.log2 : Int) - r.denominator.log2 = guess at hle hlt
  have hfloor : (r.inPowersOfTwo guess).floor = 0 ↔ r.toRat < 2 ^ guess := by
    rw [floor_eq, toRat_inPowersOfTwo, Nat.floor_eq_zero, div_lt_one (by positivity)]
  split
  next hzero =>
    use hle
    rw [sub_add_cancel]
    apply hfloor.mp hzero
  next hne =>
    refine ⟨le_of_not_gt ?_, hlt⟩
    intro hbelow
    apply hne (hfloor.mpr hbelow)

/-- The exponent between whose power of two and the next one the ratio lies. -/
theorem log2_eq {r : Ratio} (h : r.Positive) {k : Int} (hle : 2 ^ k ≤ r.toRat)
    (hlt : r.toRat < 2 ^ (k + 1)) :
  r.log2 = k
  := by
  obtain ⟨hle', hlt'⟩ := log2_spec h
  have hbelow := (zpow_lt_zpow_iff_right₀ (by norm_num)).mp (lt_of_le_of_lt hle hlt')
  have habove := (zpow_lt_zpow_iff_right₀ (by norm_num)).mp (lt_of_le_of_lt hle' hlt)
  omega

/-- The logarithm preserves the order of ratios. -/
theorem log2_mono {r r' : Ratio} (h : r.Positive) (h' : r'.Positive) (hle : r.toRat ≤ r'.toRat) :
  r.log2 ≤ r'.log2
  := by
  have hlt := ((log2_spec h).1.trans hle).trans_lt (log2_spec h').2
  apply Int.lt_add_one_iff.mp ((zpow_lt_zpow_iff_right₀ (by norm_num)).mp hlt)

/-- A ratio is below the power of ten that follows its logarithm. -/
theorem lt_log10 (r : Ratio) :
  r.toRat < 10 ^ (r.log10 + 1)
  := by
  simp only [log10, Int.ofNat_eq_natCast]
  have hpos : 0 < (Nat.toDigits 10 (r.inPowersOfTen (-400)).floor).length :=
    Nat.length_toDigits_pos
  have hlt := (Nat.length_toDigits_le_iff (by norm_num) hpos).mp le_rfl
  generalize (Nat.toDigits 10 (r.inPowersOfTen (-400)).floor).length = length at hlt
  rw [floor_eq, Nat.floor_lt' (by positivity), toRat_inPowersOfTen,
    div_lt_iff₀ (by positivity)] at hlt
  calc
    r.toRat < ((10 ^ length : Nat) : ℚ) * 10 ^ (-400 : Int) := hlt
    _ = 10 ^ ((length : Int) - 401 + 1) := by
      rw [sub_add, zpow_sub₀ (by norm_num), div_eq_mul_inv, ← zpow_neg]
      norm_num

end PocketLisp.Ratio
