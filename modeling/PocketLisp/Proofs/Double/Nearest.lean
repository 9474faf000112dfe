import PocketLisp.Proofs.Double.Finite
import PocketLisp.Proofs.Double.Ratio

/-!
# The double nearest to a double

A positive finite double is the nearest one to the number that it stands for, whatever ratio that
number is given by.  The nearest double of a number is a number, if only infinity.
-/

namespace PocketLisp.Double

open Float.Model.UnpackedFloat

variable {x : Float} {m : Nat} {e : Int} {hm : 0 < m}

/-- The exponent of a double is chosen for its mantissa to have 53 bits, unless it is the
least. -/
theorem IsParts.exponent_eq (h : IsParts m e) :
  max ((m.log2 : Int) + e - 52) leastExponent = e
  := by
  have hle := h.least_le
  by_cases hnormal : 2 ^ 52 ≤ m
  · rw [h.log2_eq hnormal]
    omega
  · have hlog := h.log2_lt (Nat.lt_of_not_le hnormal)
    have hleast := h.normal.resolve_right hnormal
    omega

/-- A ratio that stands for the number of a double has its leading digit where the double has. -/
theorem log2_eq_of_toRat_eq {r : Ratio} (hr : r.Positive) (hm : 0 < m)
    (hvalue : r.toRat = m * 2 ^ e) :
  r.log2 = m.log2 + e
  := by
  have hle : (2 : ℚ) ^ m.log2 ≤ m := by
    exact_mod_cast Nat.log2_self_le hm.ne'
  have hlt : (m : ℚ) < 2 ^ (m.log2 + 1) := by
    exact_mod_cast Nat.lt_log2_self
  have hpos : (0 : ℚ) < 2 ^ e := by positivity
  apply Ratio.log2_eq hr
  · rw [hvalue, zpow_add₀ (by norm_num), zpow_natCast]
    apply mul_le_mul_of_nonneg_right hle hpos.le
  · rw [hvalue, add_right_comm, zpow_add₀ (by norm_num), ← Nat.cast_succ, zpow_natCast]
    apply mul_lt_mul_of_pos_right hlt hpos

/-- The nearest double of the number that a double stands for is that double. -/
theorem nearest_eq (h : unpack x = .finite .positive m e hm) {r : Ratio} (hr : r.Positive)
    (hvalue : r.toRat = m * 2 ^ e) :
  nearest r = x
  := by
  have hle := (isParts h).le_greatest
  have hround : (r.inPowersOfTwo e).round = m := by
    apply Ratio.round_eq (hr.inPowersOfTwo e)
    rw [Ratio.toRat_inPowersOfTwo, hvalue, mul_div_cancel_right₀ _ (by positivity)]
  rw [nearest, if_neg hr.numerator.ne']
  simp only [log2_eq_of_toRat_eq hr hm hvalue, (isParts h).exponent_eq]
  rw [if_neg (by omega), hround, ofParts_eq h]

/-- Rounding to 53 bits leads to `2 ^ 53` at most. -/
theorem round_inPowersOfTwo_le {r : Ratio} (hr : r.Positive) (he : r.log2 - 52 ≤ e) :
  (r.inPowersOfTwo e).round ≤ 2 ^ 53
  := by
  have hlt : r.toRat < 2 ^ (53 : Int) * 2 ^ e := by
    rw [← zpow_add₀ (by norm_num)]
    apply (Ratio.log2_spec hr).2.trans_le
    apply zpow_le_zpow_right₀ (by norm_num)
    omega
  have hfloor : (r.inPowersOfTwo e).floor < 2 ^ 53 := by
    rw [Ratio.floor_eq, Nat.floor_lt' (by norm_num), Ratio.toRat_inPowersOfTwo,
      div_lt_iff₀ (by positivity)]
    exact_mod_cast hlt
  apply (Ratio.round_le _).trans hfloor

/-- Rounding to 53 bits leads to `2 ^ 52` at least. -/
theorem le_round_inPowersOfTwo {r : Ratio} (hr : r.Positive) (he : e ≤ r.log2 - 52) :
  2 ^ 52 ≤ (r.inPowersOfTwo e).round
  := by
  have hle : 2 ^ (52 : Int) * 2 ^ e ≤ r.toRat := by
    rw [← zpow_add₀ (by norm_num)]
    apply le_trans _ (Ratio.log2_spec hr).1
    apply zpow_le_zpow_right₀ (by norm_num)
    omega
  have hfloor : 2 ^ 52 ≤ (r.inPowersOfTwo e).floor := by
    rw [Ratio.floor_eq, Nat.le_floor_iff' (by norm_num), Ratio.toRat_inPowersOfTwo,
      le_div_iff₀ (by positivity)]
    exact_mod_cast hle
  apply hfloor.trans (Ratio.floor_le_round _)

/-- Every number has a nearest double that is a number. -/
theorem isNaN_nearest {r : Ratio} (hr : r.Positive) :
  (nearest r).isNaN = false
  := by
  rw [nearest, if_neg hr.numerator.ne']
  simp only
  split
  next => decide +kernel
  next hle =>
    apply isNaN_ofParts
    · apply round_inPowersOfTwo_le hr (le_max_left _ _)
    · apply Int.not_lt.mp hle

end PocketLisp.Double
