import PocketLisp.Proofs.Double.Nearest

/-!
# The order of doubles

The bits of a double without its sign, read as a number, are its magnitude; with the sign they are
its rank.  Doubles other than not-a-number compare as their ranks do, so that their order is that of
the integers.  Rounding preserves the order: the double nearest to an integer has no smaller rank
than the double nearest to a smaller integer.
-/

namespace PocketLisp.Double

open Float.Model (UnpackedFloat Format)
open Float.Model.UnpackedFloat

variable {x y : Float} {s : Sign} {m n : Nat} {e f : Int} {hm : 0 < m}

/-- The place of a double in the order of doubles. -/
def rank (x : Float) : Int :=
  if x.toBits.toNat < 2 ^ 63 then x.toBits.toNat else 2 ^ 63 - (x.toBits.toNat : Int)

/-- The bits of a positive finite double. -/
def magnitude (m : Nat) (e : Int) : Nat :=
  (e - leastExponent).toNat * 2 ^ 52 + m

/-- The bits of positive infinity. -/
def infiniteMagnitude : Nat :=
  2047 * 2 ^ 52

/-! ### Ranks -/

/-- The magnitude of a finite double other than zero is positive. -/
theorem IsParts.magnitude_pos (h : IsParts m e) :
  0 < magnitude m e
  := by
  have hpos := h.pos
  rw [magnitude]
  omega

/-- The magnitude of a finite double is below that of infinity. -/
theorem IsParts.magnitude_lt (h : IsParts m e) :
  magnitude m e < infiniteMagnitude
  := by
  have hlt := h.lt
  have hbounds := h.bounds
  rw [magnitude, infiniteMagnitude, leastExponent]
  omega

/-- The rank of a finite double is its magnitude with its sign. -/
theorem rank_finite (h : unpack x = .finite s m e hm) :
  rank x = s.apply (magnitude m e)
  := by
  have hlt := (isParts h).magnitude_lt
  have hbits : x.toBits.toNat = s.toBitVec.toNat * 2 ^ 63 + magnitude m e := toBits_eq h
  rw [infiniteMagnitude] at hlt
  rw [rank, hbits]
  cases s with
  | positive =>
    have hsign : Sign.positive.toBitVec.toNat = 0 := rfl
    rw [hsign, Nat.zero_mul, Nat.zero_add, if_pos (by omega), Sign.apply]
  | negative =>
    have hsign : Sign.negative.toBitVec.toNat = 1 := rfl
    rw [hsign, if_neg (by omega), Sign.apply]
    omega

/-- Both zeros have rank zero. -/
theorem rank_zero (h : unpack x = .zero s) :
  rank x = 0
  := by
  cases s with
  | positive =>
    obtain rfl : x = 0.0 := eq_of_unpack_eq h
    decide +kernel
  | negative =>
    obtain rfl : x = -0.0 := eq_of_unpack_eq h
    decide +kernel

/-- The rank of infinity is the magnitude of infinity with its sign. -/
theorem rank_infinity (h : unpack x = .infinity s) :
  rank x = s.apply infiniteMagnitude
  := by
  cases s with
  | positive =>
    obtain rfl : x = 1.0 / 0.0 := eq_of_unpack_eq h
    decide +kernel
  | negative =>
    obtain rfl : x = -(1.0 / 0.0) := eq_of_unpack_eq h
    decide +kernel

/-! ### Comparisons -/

/-- With a greater exponent the magnitude is greater, whatever the mantissas are. -/
theorem magnitude_lt_magnitude (h : IsParts m e) (h' : IsParts n f) (hlt : e < f) :
  magnitude m e < magnitude n f
  := by
  have hm := h.lt
  have hn := h'.normal
  have hbounds := h.bounds
  rw [leastExponent] at hn
  rw [magnitude, magnitude, leastExponent]
  omega

/-- The exponents decide which of two magnitudes is greater, and the mantissas if the exponents are
equal. -/
theorem compare_parts (h : IsParts m e) (h' : IsParts n f) :
  (compare e f).then (compare m n) = compare (magnitude m e : Int) (magnitude n f)
  := by
  rcases lt_trichotomy e f with hlt | rfl | hgt
  · have hlt' := magnitude_lt_magnitude h h' hlt
    rw [Int.compare_eq_lt.mpr hlt, Int.compare_eq_lt.mpr (by omega)]
    rfl
  · rw [Int.compare_eq_eq.mpr rfl, Ordering.eq_then, Nat.compare_eq_ite_lt, Int.compare_eq_ite_lt,
      magnitude, magnitude]
    simp only [Nat.cast_add, add_lt_add_iff_left, Nat.cast_lt]
  · have hgt' := magnitude_lt_magnitude h' h hgt
    rw [Int.compare_eq_gt.mpr hgt, Int.compare_eq_gt.mpr (by omega)]
    rfl

/-- Negatives compare the other way round. -/
theorem compare_neg (a b : Int) :
  compare (-a) (-b) = (compare a b).swap
  := by
  rw [Int.compare_swap, Int.compare_eq_ite_lt, Int.compare_eq_ite_lt]
  simp only [neg_lt_neg_iff]

/-- How an integer compares with a greater one. -/
theorem lt_eq_compare {a b : Int} (h : a < b) :
  some Ordering.lt = some (compare a b)
  := congrArg some (Int.compare_eq_lt.mpr h).symm

/-- How an integer compares with a smaller one. -/
theorem gt_eq_compare {a b : Int} (h : b < a) :
  some Ordering.gt = some (compare a b)
  := congrArg some (Int.compare_eq_gt.mpr h).symm

/-- Finite doubles compare as their ranks do. -/
theorem compare_finite (h : IsParts m e) (h' : IsParts n f) {hn : 0 < n} (s t : Sign) :
  UnpackedFloat.compare (.finite s m e hm) (.finite t n f hn)
    = some (compare (s.apply (magnitude m e)) (t.apply (magnitude n f)))
  := by
  have hpos := h.magnitude_pos
  have hpos' := h'.magnitude_pos
  have hcompare := compare_parts h h'
  cases s with
  | positive =>
    rw [Sign.apply]
    cases t with
    | positive => exact congrArg some hcompare
    | negative =>
      apply gt_eq_compare
      rw [Sign.apply]
      omega
  | negative =>
    rw [Sign.apply]
    cases t with
    | positive =>
      apply lt_eq_compare
      rw [Sign.apply]
      omega
    | negative =>
      rw [Sign.apply, compare_neg, ← hcompare, UnpackedFloat.compare]

/-- The rank of a finite double other than zero has its sign and lies between those of the
infinities. -/
theorem IsParts.apply_magnitude_bounds (h : IsParts m e) (s : Sign) :
  Sign.apply .negative infiniteMagnitude < s.apply (magnitude m e) ∧
    s.apply (magnitude m e) < Sign.apply .positive infiniteMagnitude ∧
    (s = .positive → 0 < s.apply (magnitude m e)) ∧
    (s = .negative → s.apply (magnitude m e) < 0)
  := by
  have hpos := h.magnitude_pos
  have hlt := h.magnitude_lt
  cases s with
  | positive =>
    simp only [Sign.apply]
    exact ⟨by omega, by omega, fun _ => by omega, nofun⟩
  | negative =>
    simp only [Sign.apply]
    exact ⟨by omega, by omega, nofun, fun _ => by omega⟩

/-- Doubles compare as their ranks do. -/
theorem compare_unpack (hx : x.isNaN = false) (hy : y.isNaN = false) :
  (unpack x).compare (unpack y) = some (compare (rank x) (rank y))
  := by
  rw [← Bool.not_eq_true, isNaN_iff] at hx hy
  cases hx' : unpack x with
  | notANumber => contradiction
  | zero s =>
    rw [rank_zero hx']
    cases hy' : unpack y with
    | notANumber => contradiction
    | zero t =>
      rw [rank_zero hy']
      rfl
    | infinity t =>
      rw [rank_infinity hy']
      cases t <;> rfl
    | finite t n f hn =>
      rw [rank_finite hy']
      obtain ⟨-, -, hpositive, hnegative⟩ := (isParts hy').apply_magnitude_bounds t
      cases t with
      | positive => apply lt_eq_compare (hpositive rfl)
      | negative => apply gt_eq_compare (hnegative rfl)
  | infinity s =>
    rw [rank_infinity hx']
    cases hy' : unpack y with
    | notANumber => contradiction
    | zero t =>
      rw [rank_zero hy']
      cases s <;> rfl
    | infinity t =>
      rw [rank_infinity hy']
      cases s <;> cases t <;> rfl
    | finite t n f hn =>
      rw [rank_finite hy']
      obtain ⟨hbelow, habove, -⟩ := (isParts hy').apply_magnitude_bounds t
      cases s with
      | positive => apply gt_eq_compare habove
      | negative => apply lt_eq_compare hbelow
  | finite s m e hm =>
    rw [rank_finite hx']
    obtain ⟨hbelow, habove, hpositive, hnegative⟩ := (isParts hx').apply_magnitude_bounds s
    cases hy' : unpack y with
    | notANumber => contradiction
    | zero t =>
      rw [rank_zero hy']
      cases s with
      | positive => apply gt_eq_compare (hpositive rfl)
      | negative => apply lt_eq_compare (hnegative rfl)
    | infinity t =>
      rw [rank_infinity hy']
      cases t with
      | positive =>
        rw [← lt_eq_compare habove]
        cases s <;> rfl
      | negative =>
        rw [← gt_eq_compare hbelow]
        cases s <;> rfl
    | finite t n f hn =>
      rw [rank_finite hy']
      apply compare_finite (isParts hx') (isParts hy')

/-- One double is below another if its rank is, unless one of them is not-a-number. -/
theorem lt_iff (hx : x.isNaN = false) (hy : y.isNaN = false) :
  x < y ↔ rank x < rank y
  := by
  change decide ((unpack x).compare (unpack y) == some .lt) = true ↔ _
  rw [decide_eq_true_iff, compare_unpack hx hy, beq_iff_eq, Option.some_inj, compare_lt_iff_lt]

/-- The same for at most. -/
theorem le_iff (hx : x.isNaN = false) (hy : y.isNaN = false) :
  x ≤ y ↔ rank x ≤ rank y
  := by
  change decide (((unpack x).compare (unpack y)).any (·.isLE)) = true ↔ _
  rw [decide_eq_true_iff, compare_unpack hx hy, Option.any_some, Int.isLE_compare]

/-- Doubles compare equal if their ranks are equal. -/
theorem beq_iff_rank_eq (hx : x.isNaN = false) (hy : y.isNaN = false) :
  x == y ↔ rank x = rank y
  := by
  change ((unpack x).compare (unpack y) == some .eq) = true ↔ _
  rw [compare_unpack hx hy, beq_iff_eq, Option.some_inj, Int.compare_eq_eq]

/-! ### Rounding -/

/-- Bits up to those of infinity are the bits of the double that they make. -/
theorem toBits_ofBits {bits : UInt64} (h : bits.toNat ≤ infiniteMagnitude) :
  (Float.ofBits bits).toBits = bits
  := by
  change UInt64.ofBitVec (pack Format.binary64 (UnpackedFloat.unpack Format.binary64 bits.toBitVec))
    = bits
  rw [pack_unpack (valid_toBitVec h)]

/-- The rank of what rounding leads to.  The mantissa `2 ^ 53` counts two up in the exponent field,
and so leads from the greatest exponent to infinity. -/
theorem rank_ofParts (hm : m ≤ 2 ^ 53) (he : e ≤ greatestExponent) :
  rank (ofParts m e) = magnitude m e ∧ magnitude m e ≤ infiniteMagnitude
  := by
  have hle : magnitude m e ≤ infiniteMagnitude := by
    rw [greatestExponent] at he
    rw [magnitude, infiniteMagnitude, leastExponent]
    omega
  have hbits : (magnitude m e).toUInt64.toNat = magnitude m e := by
    rw [infiniteMagnitude] at hle
    rw [Nat.toUInt64_eq, UInt64.toNat_ofNat', Nat.mod_eq_of_lt (by omega)]
  refine ⟨?_, hle⟩
  have hparts : ofParts m e = Float.ofBits (magnitude m e).toUInt64 := by
    rw [ofParts, Nat.shiftLeft_eq, magnitude]
  rw [hparts, rank, toBits_ofBits (hbits.trans_le hle), hbits, if_pos]
  rw [infiniteMagnitude] at hle
  omega

/-- The exponent that a ratio is rounded with. -/
def nearestExponent (r : Ratio) : Int :=
  max (r.log2 - 52) leastExponent

/-- The bits of the nearest double. -/
def nearestMagnitude (r : Ratio) : Nat :=
  if greatestExponent < nearestExponent r then infiniteMagnitude
  else magnitude (r.inPowersOfTwo (nearestExponent r)).round (nearestExponent r)

/-- The double nearest to a positive ratio has the bits that are computed for it, up to
those of infinity. -/
theorem rank_nearest {r : Ratio} (hr : r.Positive) :
  rank (nearest r) = nearestMagnitude r ∧ nearestMagnitude r ≤ infiniteMagnitude
  := by
  have hround := round_inPowersOfTwo_le hr (le_max_left (r.log2 - 52) leastExponent)
  rw [nearest, if_neg hr.numerator.ne', nearestMagnitude, nearestExponent]
  simp only
  split
  next =>
    constructor
    · decide +kernel
    · rfl
  next hfinite => apply rank_ofParts hround (Int.not_lt.mp hfinite)

/-- Rounding preserves the order of ratios. By cases on whether the two are rounded with the
same exponent. -/
theorem nearestMagnitude_mono {r r' : Ratio} (hr : r.Positive) (hr' : r'.Positive)
    (hle : r.toRat ≤ r'.toRat) :
  nearestMagnitude r ≤ nearestMagnitude r'
  := by
  by_cases hinfinite' : greatestExponent < nearestExponent r'
  · rw [nearestMagnitude.eq_def r', if_pos hinfinite']
    apply (rank_nearest hr).2
  have hlog := Ratio.log2_mono hr hr' hle
  have hexponent : nearestExponent r ≤ nearestExponent r' := max_le_max_right _ (by omega)
  have hinfinite : ¬ greatestExponent < nearestExponent r := by
    omega
  rw [nearestMagnitude, nearestMagnitude, if_neg hinfinite, if_neg hinfinite']
  rcases hexponent.lt_or_eq with hlt | heq
  · -- The mantissa is at most `2 ^ 53` with the one exponent and at least `2 ^ 52` with the other.
    have hround := round_inPowersOfTwo_le hr (le_max_left (r.log2 - 52) leastExponent)
    have hleast : leastExponent ≤ nearestExponent r := le_max_right _ _
    have hround' : 2 ^ 52 ≤ (r'.inPowersOfTwo (nearestExponent r')).round := by
      apply le_round_inPowersOfTwo hr'
      have hlt := lt_max_iff.mp (hleast.trans_lt hlt)
      apply max_le le_rfl (hlt.resolve_right (lt_irrefl _)).le
    rw [← nearestExponent] at hround
    rw [magnitude, magnitude]
    omega
  · rw [heq, magnitude, magnitude]
    apply Nat.add_le_add_left
    apply Ratio.round_mono (hr.inPowersOfTwo _) (hr'.inPowersOfTwo _)
    rw [Ratio.toRat_inPowersOfTwo, Ratio.toRat_inPowersOfTwo]
    apply div_le_div_of_nonneg_right hle (by positivity)

/-- The nearest double of a greater number is no smaller. -/
theorem rank_nearest_mono {r r' : Ratio} (hr : r.Positive) (hr' : r'.Positive)
    (hle : r.toRat ≤ r'.toRat) :
  rank (nearest r) ≤ rank (nearest r')
  := by
  rw [(rank_nearest hr).1, (rank_nearest hr').1]
  exact_mod_cast nearestMagnitude_mono hr hr' hle

/-! ### Doubles of integers -/

/-- The negative of a double has the negative rank. -/
theorem rank_neg (x : Float) (hx : x.isNaN = false) :
  rank (-x) = - rank x
  := by
  have hneg : unpack (-x) = (unpack x).neg := unpack_neg x
  rw [← Bool.not_eq_true, isNaN_iff] at hx
  cases hx' : unpack x with
  | notANumber => contradiction
  | zero s =>
    rw [hx'] at hneg
    rw [rank_zero hneg, rank_zero hx', neg_zero]
  | infinity s =>
    rw [hx'] at hneg
    rw [rank_infinity hneg, rank_infinity hx']
    cases s <;> rfl
  | finite s m e hm =>
    rw [hx'] at hneg
    rw [rank_finite hneg, rank_finite hx']
    cases s with
    | positive => rfl
    | negative => exact (neg_neg _).symm

/-- A positive number over one is a positive ratio. -/
theorem positive_mk_one {n : Nat} (hn : 0 < n) :
  (Ratio.mk n 1).Positive
  := ⟨hn, Nat.one_pos⟩

/-- The double nearest to zero is zero. -/
theorem nearest_zero :
  nearest ⟨0, 1⟩ = 0.0
  := rfl

/-- The double nearest to a natural number is a number. -/
theorem isNaN_nearest_nat (n : Nat) :
  (nearest ⟨n, 1⟩).isNaN = false
  := by
  rcases n.eq_zero_or_pos with rfl | hn
  · rw [nearest_zero]
    decide +kernel
  · apply isNaN_nearest (positive_mk_one hn)

/-- An integer is rounded to a number. -/
theorem isNaN_ofInt (n : Int) :
  (ofInt n).isNaN = false
  := by
  rw [ofInt]
  split
  · exact (isNaN_neg _).trans (isNaN_nearest_nat _)
  · apply isNaN_nearest_nat

/-- Rounding preserves the order of natural numbers. -/
theorem rank_nearest_nat_mono {m n : Nat} (h : m ≤ n) :
  0 ≤ rank (nearest ⟨m, 1⟩) ∧ rank (nearest ⟨m, 1⟩) ≤ rank (nearest ⟨n, 1⟩)
  := by
  have hnonneg {n : Nat} : 0 ≤ rank (nearest ⟨n, 1⟩) := by
    rcases n.eq_zero_or_pos with rfl | hn
    · decide +kernel
    · rw [(rank_nearest (positive_mk_one hn)).1]
      apply Int.natCast_nonneg
  use hnonneg
  rcases m.eq_zero_or_pos with rfl | hm
  · rw [nearest_zero]
    apply hnonneg
  · apply rank_nearest_mono (positive_mk_one hm) (positive_mk_one (hm.trans_le h))
    rw [Ratio.toRat_mk_one, Ratio.toRat_mk_one]
    exact_mod_cast h

/-- The rank of the double nearest to an integer is that of its absolute value with its sign. -/
theorem rank_ofInt (n : Int) :
  rank (ofInt n) = if n < 0 then - rank (nearest ⟨n.natAbs, 1⟩) else rank (nearest ⟨n.natAbs, 1⟩)
  := by
  rw [ofInt]
  split
  · apply rank_neg _ (isNaN_nearest_nat _)
  · rfl

/-- The double of a greater integer is no smaller. -/
theorem rank_ofInt_mono {m n : Int} (h : m ≤ n) :
  rank (ofInt m) ≤ rank (ofInt n)
  := by
  rw [rank_ofInt, rank_ofInt]
  by_cases hn : n < 0
  · have hmono := (rank_nearest_nat_mono (m := n.natAbs) (n := m.natAbs) (by omega)).2
    rw [if_pos hn, if_pos (h.trans_lt hn)]
    omega
  · rw [if_neg hn]
    split
    next =>
      have hm := (rank_nearest_nat_mono (le_refl m.natAbs)).1
      have hn := (rank_nearest_nat_mono (le_refl n.natAbs)).1
      omega
    next hm => apply (rank_nearest_nat_mono (by omega)).2

end PocketLisp.Double
