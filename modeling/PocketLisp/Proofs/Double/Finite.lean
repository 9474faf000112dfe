import PocketLisp.Proofs.Double.Packing

/-!
# Finite doubles

A double is determined by what it is taken apart into.  For finite doubles other than zero this
section says what the operations on bits do to sign, mantissa and exponent; and none of these
operations makes a not-a-number of them.
-/

namespace PocketLisp.Double

open Float.Model (UnpackedFloat Format)
open Float.Model.UnpackedFloat

variable {x y : Float} {s : Sign} {m : Nat} {e : Int} {hm : 0 < m}

/-- A double that is taken apart and put together again is the same. -/
theorem ofModel_pack_unpack (x : Float) :
  Float.ofModel (Float.Model.pack (unpack x)) = x
  := by
  obtain ⟨⟨bits, hvalid⟩⟩ := x
  simp only [unpack, Float.Model.unpack, Float.Model.pack, pack_unpack hvalid]

/-- A double is determined by what it is taken apart into. -/
theorem eq_of_unpack_eq (h : unpack x = unpack y) :
  x = y
  := by
  rw [← ofModel_pack_unpack x, h, ofModel_pack_unpack]

/-- The mantissa and the exponent of a finite double satisfy what they have to. -/
theorem isParts (h : unpack x = .finite s m e hm) :
  IsParts m e
  := by
  apply isParts_of_unpack h

/-- The bits of a finite double, as a number, put together from its sign, its exponent and its mantissa. -/
theorem toBits_eq (h : unpack x = .finite s m e hm) :
  x.toBits.toNat = s.toBitVec.toNat * 2 ^ 63 + ((e - leastExponent).toNat * 2 ^ 52 + m)
  := by
  rw [← toNat_pack hm (isParts h), ← h]
  change x.toModel.toBits.toBitVec.toNat = (pack Format.binary64 x.toModel.unpack).toNat
  rw [Float.Model.unpack, pack_unpack x.toModel.valid]

/-- The mantissa and the exponent of a double are those that it is taken apart into. -/
theorem parts_eq (h : unpack x = .finite .positive m e hm) :
  parts x = (m, e)
  := by
  have hlt := (isParts h).lt
  have hle := (isParts h).least_le
  have hbits : x.toBits.toNat = (e - leastExponent).toNat * 2 ^ 52 + m := by
    rw [toBits_eq h]
    apply Nat.zero_add
  simp only [parts, hbits, Nat.shiftRight_eq_div_pow, Nat.one_shiftLeft, Int.ofNat_eq_natCast]
  by_cases hnormal : 2 ^ 52 ≤ m
  · rw [if_neg (by omega), Prod.mk.injEq]
    constructor <;> omega
  · have hleast := (isParts h).normal.resolve_right hnormal
    rw [if_pos (by omega), Prod.mk.injEq]
    constructor <;> omega

/-- A double is the double of its mantissa and its exponent. -/
theorem ofParts_eq (h : unpack x = .finite .positive m e hm) :
  ofParts m e = x
  := by
  have hbits : ((e - leastExponent).toNat <<< 52 + m).toUInt64 = x.toBits := by
    rw [Nat.shiftLeft_eq, ← Nat.zero_add (_ * _ + m)]
    have := toBits_eq h
    change x.toBits.toNat = 0 * 2 ^ 63 + _ at this
    rw [Nat.zero_mul] at this
    rw [← this]
    apply UInt64.ofNat_toNat
  rw [ofParts, hbits]
  apply ofModel_pack_unpack

/-- A double has the sign bit set exactly if it is negative. -/
theorem signBit_iff (h : unpack x = .finite s m e hm) :
  x.toBits >>> 63 = 1 ↔ s = .negative
  := by
  have hlt := (isParts h).lt
  have hbounds := (isParts h).bounds
  have hbits := toBits_eq h
  rw [leastExponent] at hbits
  rw [← UInt64.toNat_inj, UInt64.toNat_shiftRight]
  change x.toBits.toNat >>> 63 = 1 ↔ _
  rw [hbits, Nat.shiftRight_eq_div_pow]
  cases s with
  | negative =>
    change (1 * 2 ^ 63 + _) / 2 ^ 63 = 1 ↔ _
    simp only [iff_true]
    omega
  | positive =>
    change (0 * 2 ^ 63 + _) / 2 ^ 63 = 1 ↔ _
    simp only [reduceCtorEq, iff_false]
    omega

/-- The negative of a double has the other sign. -/
theorem unpack_neg (x : Float) :
  unpack x.neg = (unpack x).neg
  := by
  change UnpackedFloat.unpack Format.binary64 (pack Format.binary64 (unpack x).neg) = _
  cases hx : unpack x with
  | notANumber => rfl
  | infinity s => cases s <;> rfl
  | zero s => cases s <;> rfl
  | finite s m e hm => rw [UnpackedFloat.neg, unpack_pack hm (isParts hx)]

/-- The absolute value of a finite double has the positive sign and is otherwise the same. -/
theorem unpack_abs (h : unpack x = .finite s m e hm) :
  unpack x.abs = .finite .positive m e hm
  := by
  change UnpackedFloat.unpack Format.binary64 (pack Format.binary64 (unpack x).abs) = _
  rw [h, UnpackedFloat.abs, unpack_pack hm (isParts h)]

/-- Only a finite double other than zero itself is equal to it. -/
theorem eq_of_beq (h : unpack x = .finite s m e hm) (hbeq : y == x) :
  y = x
  := by
  rcases (beq_iff y x).mp hbeq with ⟨-, hzero⟩ | ⟨hunpack, -⟩
  · rw [h] at hzero
    cases hzero
  · apply eq_of_unpack_eq hunpack

/-- A finite double is one of the two zeros or has a mantissa and an exponent. -/
theorem cases_of_isFinite (h : x.isFinite) :
  x = 0.0 ∨ x = -0.0 ∨ ∃ s m e hm, unpack x = .finite s m e hm
  := by
  change (unpack x).isFinite at h
  cases hx : unpack x with
  | infinity s =>
    rw [hx] at h
    cases h
  | notANumber =>
    rw [hx] at h
    cases h
  | zero s =>
    cases s with
    | positive => exact .inl (eq_of_unpack_eq hx)
    | negative => exact .inr (.inl (eq_of_unpack_eq hx))
  | finite s m e hm => exact .inr (.inr ⟨s, m, e, hm, rfl⟩)

/-! ### Not-a-number -/

/-- A double is finite if it is neither not-a-number nor infinite. -/
theorem isFinite_iff (x : Float) :
  x.isFinite ↔ x.isNaN = false ∧ x.isInf = false
  := by
  change (unpack x).isFinite ↔ (unpack x).isNaN = false ∧ (unpack x).isInf = false
  cases unpack x <;>
    simp [UnpackedFloat.isFinite, UnpackedFloat.isNaN, UnpackedFloat.isInf]

/-- The negative of a double is not-a-number only if the double is. -/
theorem isNaN_neg (x : Float) :
  x.neg.isNaN = x.isNaN
  := by
  change (unpack x.neg).isNaN = (unpack x).isNaN
  rw [unpack_neg]
  cases unpack x <;> rfl

/-- Bits up to those of infinity are valid as they stand. -/
theorem valid_toBitVec {bits : UInt64} (h : bits.toNat ≤ 2047 * 2 ^ 52) :
  Format.binary64.Valid bits.toBitVec
  := by
  constructor
  intro hexponent hmantissa
  cases hmantissa (unpackMantissa_eq_zero h hexponent)

/-- Bits up to those of infinity are no not-a-number. -/
theorem isNaN_ofBits {bits : UInt64} (h : bits.toNat ≤ 2047 * 2 ^ 52) :
  (Float.ofBits bits).isNaN = false
  := by
  rw [← Bool.not_eq_true, isNaN_iff]
  change UnpackedFloat.unpack Format.binary64
    (pack Format.binary64 (UnpackedFloat.unpack Format.binary64 bits.toBitVec)) ≠ _
  rw [pack_unpack (valid_toBitVec h)]
  intro hunpack
  obtain ⟨hexponent, hmantissa⟩ := fields_of_notANumber hunpack
  apply hmantissa (unpackMantissa_eq_zero h hexponent)

/-- The greatest mantissa that rounding leads to, `2 ^ 53`, makes infinity of the greatest
exponent. -/
theorem isNaN_ofParts (hm : m ≤ 2 ^ 53) (he : e ≤ greatestExponent) :
  (ofParts m e).isNaN = false
  := by
  have hbits : (e - leastExponent).toNat <<< 52 + m ≤ 2047 * 2 ^ 52 := by
    rw [leastExponent, Nat.shiftLeft_eq]
    rw [greatestExponent] at he
    omega
  apply isNaN_ofBits
  rw [Nat.toUInt64_eq, UInt64.toNat_ofNat']
  apply (Nat.mod_le _ _).trans hbits

end PocketLisp.Double
