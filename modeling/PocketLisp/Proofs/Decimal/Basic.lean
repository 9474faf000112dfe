import PocketLisp.Decimal.Basic
import PocketLisp.Proofs.Double.Nearest

/-!
# Decimals as rational numbers

Decimals that stand for the same number have the same normal form, and therefore the same nearest
double.  The decimals that stand for the number of a double have that double as the nearest.
-/

namespace PocketLisp.Decimal

/-- The rational number of a decimal. -/
def toRat (d : Decimal) : ℚ :=
  d.digits * 10 ^ d.exponent

/-- A decimal stands for zero exactly if its digits do. -/
theorem toRat_eq_zero_iff {d : Decimal} :
  d.toRat = 0 ↔ d.digits = 0
  := by
  have hne : (10 : ℚ) ^ d.exponent ≠ 0 := by positivity
  rw [toRat, mul_eq_zero, or_iff_left hne, Nat.cast_eq_zero]

/-! ### Normal form -/

/-- The digits do not end in zero; zero itself has exponent zero. -/
def IsNormal (d : Decimal) : Prop :=
  d = ⟨0, 0⟩ ∨ d.digits % 10 ≠ 0

/-- There is one normal form of zero. -/
theorem IsNormal.digits_eq_zero_iff {d : Decimal} (h : d.IsNormal) :
  d.digits = 0 ↔ d = ⟨0, 0⟩
  := by
  constructor
  · intro hzero
    apply h.resolve_right
    simp [hzero]
  · rintro rfl
    rfl

/-- To move zeros into the exponent does not change the number. -/
theorem toRat_stripZeros (fuel digits : Nat) (exponent : Int) :
  (stripZeros fuel digits exponent).toRat = digits * 10 ^ exponent
  := by
  induction fuel generalizing digits exponent with
  | zero => rfl
  | succ fuel ih =>
    rw [stripZeros]
    split
    next h =>
      obtain ⟨n, rfl⟩ := Nat.dvd_of_mod_eq_zero h
      rw [ih, Nat.mul_div_cancel_left n (by norm_num), zpow_add_one₀ (by norm_num)]
      push_cast
      ring
    next => rfl

/-- As many steps as the number of the digits are enough to strip all zeros. -/
theorem stripZeros_mod_ne {fuel digits : Nat} (exponent : Int) (hpos : 0 < digits)
    (hle : digits ≤ fuel) :
  (stripZeros fuel digits exponent).digits % 10 ≠ 0
  := by
  induction fuel generalizing digits exponent with
  | zero => omega
  | succ fuel ih =>
    rw [stripZeros]
    split
    next h => apply ih <;> omega
    next h => apply h

/-- To move zeros into the exponent makes the digits no greater. -/
theorem stripZeros_digits_le (fuel digits : Nat) (exponent : Int) :
  (stripZeros fuel digits exponent).digits ≤ digits
  := by
  induction fuel generalizing digits exponent with
  | zero => apply le_rfl
  | succ fuel ih =>
    rw [stripZeros]
    split
    next => apply (ih _ _).trans (Nat.div_le_self digits 10)
    next => apply le_rfl

/-- The normal form stands for the same number. -/
theorem toRat_normal (d : Decimal) :
  d.normal.toRat = d.toRat
  := by
  rw [normal]
  split
  next h => simp [toRat, h]
  next => apply toRat_stripZeros

/-- The normal form is normal. There are zeros no more than the digits count, so that the fuel suffices. -/
theorem isNormal_normal (d : Decimal) :
  d.normal.IsNormal
  := by
  rw [normal]
  split
  next => exact .inl rfl
  next h => exact .inr (stripZeros_mod_ne d.exponent (Nat.pos_of_ne_zero h) le_rfl)

/-- The digits of the normal form are no greater. -/
theorem normal_digits_le (d : Decimal) :
  d.normal.digits ≤ d.digits
  := by
  rw [normal]
  split
  next => apply Nat.zero_le
  next => apply stripZeros_digits_le

/-- The greater of two exponents would leave a zero at the end of the other digits. -/
theorem exponent_le_of_toRat_eq {d d' : Decimal} (hd : d.digits % 10 ≠ 0)
    (h : d.toRat = d'.toRat) :
  d'.exponent ≤ d.exponent
  := by
  by_contra hlt
  obtain ⟨n, hn⟩ : ∃ n : Nat, d'.exponent = d.exponent + (n + 1 : Nat) := by
    use (d'.exponent - d.exponent - 1).toNat
    omega
  have hpos : (0 : ℚ) < 10 ^ d.exponent := by positivity
  have hdigits : d.digits = d'.digits * 10 ^ (n + 1) := by
    rw [toRat, toRat, hn, zpow_add₀ (by norm_num), zpow_natCast, mul_left_comm, mul_comm] at h
    exact_mod_cast mul_left_cancel₀ hpos.ne' h
  apply hd
  rw [hdigits, Nat.pow_succ, ← Nat.mul_assoc, Nat.mul_mod_left]

/-- Normal decimals that stand for the same number are the same. -/
theorem IsNormal.eq_of_toRat_eq {d d' : Decimal} (hd : d.IsNormal) (hd' : d'.IsNormal)
    (h : d.toRat = d'.toRat) :
  d = d'
  := by
  by_cases hzero : d.toRat = 0
  · rw [hd.digits_eq_zero_iff.mp (toRat_eq_zero_iff.mp hzero),
      hd'.digits_eq_zero_iff.mp (toRat_eq_zero_iff.mp (h ▸ hzero))]
  · have hmod : d.digits % 10 ≠ 0 := by
      apply hd.resolve_left
      rintro rfl
      apply hzero (toRat_eq_zero_iff.mpr rfl)
    have hmod' : d'.digits % 10 ≠ 0 := by
      apply hd'.resolve_left
      rintro rfl
      apply hzero (h ▸ toRat_eq_zero_iff.mpr rfl)
    have hexponent : d.exponent = d'.exponent := by
      apply le_antisymm
      · apply exponent_le_of_toRat_eq hmod' h.symm
      · apply exponent_le_of_toRat_eq hmod h
    have hpos : (10 : ℚ) ^ d'.exponent ≠ 0 := by positivity
    rw [toRat, toRat, hexponent] at h
    have hdigits : d.digits = d'.digits := by
      exact_mod_cast mul_right_cancel₀ hpos h
    cases d
    cases d'
    simp_all

/-- Decimals of the same number have the same normal form. -/
theorem normal_eq_of_toRat_eq {d d' : Decimal} (h : d.toRat = d'.toRat) :
  d.normal = d'.normal
  := by
  apply (isNormal_normal d).eq_of_toRat_eq (isNormal_normal d')
  rw [toRat_normal, toRat_normal, h]

/-- The nearest double of a decimal depends on its number only. -/
theorem toFloat_eq_of_toRat_eq {d d' : Decimal} (h : d.toRat = d'.toRat) :
  d.toFloat = d'.toFloat
  := by
  rw [toFloat, toFloat, normal_eq_of_toRat_eq h]

/-! ### The place of the point -/

/-- A number is below the power of ten with as many zeros as the number has digits. -/
theorem lt_pow_length_digitChars (d : Decimal) :
  d.digits < 10 ^ d.digitChars.length
  := by
  apply (Nat.length_toDigits_le_iff (by norm_num) Nat.length_toDigits_pos).mp
  apply le_rfl

/-- A number other than zero is not below the power of ten with as many digits. -/
theorem pow_length_digitChars_le {d : Decimal} (h : d.digits ≠ 0) :
  10 ^ (d.digitChars.length - 1) ≤ d.digits
  := by
  by_contra hlt
  rcases Nat.eq_zero_or_pos (d.digitChars.length - 1) with hzero | hpos
  · rw [hzero] at hlt
    omega
  · have hle := (Nat.length_toDigits_le_iff (by norm_num) hpos).mpr (Nat.lt_of_not_le hlt)
    change d.digitChars.length ≤ d.digitChars.length - 1 at hle
    omega

/-- A decimal is below the power of ten that its point gives. -/
theorem toRat_lt (d : Decimal) :
  d.toRat < 10 ^ d.point
  := by
  have hlt : (d.digits : ℚ) < 10 ^ d.digitChars.length := by
    exact_mod_cast lt_pow_length_digitChars d
  rw [toRat, point, zpow_add₀ (by norm_num), zpow_natCast]
  apply mul_lt_mul_of_pos_right hlt (by positivity)

/-- A decimal other than zero is not below the power of ten before that. -/
theorem le_toRat {d : Decimal} (h : d.digits ≠ 0) :
  10 ^ (d.point - 1) ≤ d.toRat
  := by
  have hle : (10 : ℚ) ^ (d.digitChars.length - 1) ≤ d.digits := by
    exact_mod_cast pow_length_digitChars_le h
  have hlength : 0 < d.digitChars.length := Nat.length_toDigits_pos
  have hpoint : d.point - 1 = (d.digitChars.length - 1 : Nat) + d.exponent := by
    rw [point]
    omega
  rw [toRat, hpoint, zpow_add₀ (by norm_num), zpow_natCast]
  apply mul_le_mul_of_nonneg_right hle (by positivity)

/-! ### The nearest double -/

/-- The ratio of a decimal other than zero is positive. -/
theorem positive_value {d : Decimal} (h : d.digits ≠ 0) :
  d.value.Positive
  := by
  have hpositive : (Ratio.mk d.digits 1).Positive := ⟨Nat.pos_of_ne_zero h, Nat.one_pos⟩
  apply hpositive.inPowersOfTen

/-- A decimal and its ratio stand for the same rational number. -/
theorem toRat_value (d : Decimal) :
  d.value.toRat = d.toRat
  := by
  rw [value, Ratio.toRat_inPowersOfTen, Ratio.toRat_mk_one, zpow_neg, div_inv_eq_mul, toRat]

/-- A comparison of natural numbers, in the rational numbers. -/
theorem two_zpow_lt {a b : Nat} (h : 2 ^ a < 10 ^ b) :
  (2 : ℚ) ^ (a : Int) < 10 ^ (b : Int)
  := by
  exact_mod_cast h

/-- Where the point is in the decimals that stand for finite doubles. -/
theorem point_bounds {m : Nat} {e : Int} {d : Decimal} (h : Double.IsParts m e)
    (hd : d.toRat = m * 2 ^ e) :
  d.point ≤ 309 ∧ -323 ≤ d.point
  := by
  have hpos : (1 : ℚ) ≤ m := by exact_mod_cast h.pos
  have hlt : (m : ℚ) < 2 ^ (53 : Int) := by exact_mod_cast h.lt
  have hdigits : d.digits ≠ 0 := by
    rw [ne_eq, ← toRat_eq_zero_iff, hd]
    positivity
  have habove : (10 : ℚ) ^ (d.point - 1) < 10 ^ (309 : Int) := calc
    (10 : ℚ) ^ (d.point - 1) ≤ m * 2 ^ e := hd ▸ le_toRat hdigits
    _ < 2 ^ (53 : Int) * 2 ^ e := mul_lt_mul_of_pos_right hlt (by positivity)
    _ ≤ 2 ^ (53 : Int) * 2 ^ Double.greatestExponent := by
      apply mul_le_mul_of_nonneg_left _ (by positivity)
      apply zpow_le_zpow_right₀ (by norm_num) h.le_greatest
    _ = 2 ^ (1024 : Int) := by
      rw [← zpow_add₀ (by norm_num)]
      rfl
    _ < 10 ^ (309 : Int) := two_zpow_lt (by decide +kernel)
  have hbelow : (10 : ℚ) ^ (-324 : Int) < 10 ^ d.point := calc
    (10 : ℚ) ^ (-324 : Int) < 2 ^ Double.leastExponent := by
      rw [Double.leastExponent, zpow_neg, zpow_neg]
      apply (inv_lt_inv₀ (by positivity) (by positivity)).mpr
      apply two_zpow_lt (by decide +kernel)
    _ ≤ 2 ^ e := zpow_le_zpow_right₀ (by norm_num) h.least_le
    _ ≤ m * 2 ^ e := le_mul_of_one_le_left (by positivity) hpos
    _ < 10 ^ d.point := hd ▸ toRat_lt d
  have hle := (zpow_lt_zpow_iff_right₀ (by norm_num)).mp habove
  have hge := (zpow_lt_zpow_iff_right₀ (by norm_num)).mp hbelow
  constructor <;> omega

/-- The nearest double of a decimal that stands for the number of a double is that double. -/
theorem toFloat_eq {x : Float} {m : Nat} {e : Int} {hm : 0 < m} {d : Decimal}
    (h : Double.unpack x = .finite .positive m e hm) (hd : d.toRat = m * 2 ^ e) :
  d.toFloat = x
  := by
  have hnormal : d.normal.toRat = m * 2 ^ e := by
    rw [toRat_normal, hd]
  have hdigits : d.normal.digits ≠ 0 := by
    rw [ne_eq, ← toRat_eq_zero_iff, hnormal]
    positivity
  have hle := (point_bounds (Double.isParts h) hnormal).1
  have hge := (point_bounds (Double.isParts h) hnormal).2
  rw [toFloat, if_neg hdigits, if_neg (by omega), if_neg (by omega)]
  apply Double.nearest_eq h (positive_value hdigits)
  rw [toRat_value, hnormal]

/-- The nearest double of a decimal is a number. -/
theorem isNaN_toFloat (d : Decimal) :
  d.toFloat.isNaN = false
  := by
  rw [toFloat]
  split
  next => decide +kernel
  next hdigits =>
    split
    next => decide +kernel
    next =>
      split
      next => decide +kernel
      next => apply Double.isNaN_nearest (positive_value hdigits)

/-! ### Decimals of finite doubles -/

/-- A normal decimal is its own normal form. -/
theorem normal_eq_self {d : Decimal} (h : d.IsNormal) :
  d.normal = d
  := by
  apply (isNormal_normal d).eq_of_toRat_eq h (toRat_normal d)

/-- If the nearest double of a decimal is finite and not zero, the decimal has digits and is not
too great. -/
theorem digits_ne_and_point_le {x : Float} {m : Nat} {e : Int} {hm : 0 < m} {d : Decimal}
    (h : Double.unpack x = .finite .positive m e hm) (hd : d.IsNormal) (hx : d.toFloat = x) :
  d.digits ≠ 0 ∧ d.point ≤ 309
  := by
  rw [toFloat, normal_eq_self hd] at hx
  split at hx
  next =>
    rw [← hx] at h
    cases h
  next hne =>
    use hne
    split at hx
    next =>
      rw [← hx] at h
      cases h
    next hle => omega

end PocketLisp.Decimal
