import PocketLisp.Double.Nearest
import PocketLisp.Proofs.Double.Comparison

/-!
# Doubles and their bits

A double is its bits: the sign, eleven bits of exponent and fifty-two of mantissa.  Taking the
bits apart and putting them together are inverse to each other, so that a double is known as soon
as it is known taken apart.  A finite double that is not zero is a mantissa and an exponent with
the properties `IsParts`, and a sign.
-/

namespace PocketLisp.Double

open Float.Model (UnpackedFloat Format)
open Float.Model.UnpackedFloat

/-! ### The fields -/

/-- The fields of a double, one behind the other, as a number. -/
theorem toNat_packComponents (s : Sign) (e : BitVec 11) (m : BitVec 52) :
  (packComponents Format.binary64 s e m).toNat
    = s.toBitVec.toNat * 2 ^ 63 + e.toNat * 2 ^ 52 + m.toNat
  := by
  change (s.toBitVec ++ e ++ m).toNat = _
  rw [BitVec.toNat_append, BitVec.toNat_append, ← Nat.shiftLeft_add_eq_or_of_lt e.isLt,
    ← Nat.shiftLeft_add_eq_or_of_lt m.isLt, Nat.shiftLeft_eq, Nat.shiftLeft_eq]
  omega

/-- The mantissa field is what the last fifty-two bits hold. -/
theorem toNat_unpackMantissa (b : BitVec Format.binary64.numBits) :
  (unpackMantissa b).toNat = b.toNat % 2 ^ 52
  := by
  simp [unpackMantissa]

/-- The exponent field is what the eleven bits before hold. -/
theorem toNat_unpackExponent (b : BitVec Format.binary64.numBits) :
  (unpackExponent b).toNat = b.toNat / 2 ^ 52 % 2 ^ 11
  := by
  simp [unpackExponent, Nat.shiftRight_eq_div_pow]

/-- The sign field is the first bit. -/
theorem toNat_unpackSign (b : BitVec Format.binary64.numBits) :
  (unpackSign b).toNat = b.toNat / 2 ^ 63
  := by
  have hlt : b.toNat < 2 ^ 64 := b.isLt
  simp only [unpackSign, BitVec.toNat_cast, BitVec.extractLsb_toNat, Nat.shiftRight_eq_div_pow]
  omega

/-- The bit of the sign that a bit stands for is the bit. -/
theorem toBitVec_ofBitVec (b : BitVec 1) :
  (Sign.ofBitVec b).toBitVec = b
  := by
  revert b
  decide

/-- The sign that the bit of a sign stands for is the sign. -/
theorem ofBitVec_toBitVec (s : Sign) :
  Sign.ofBitVec s.toBitVec = s
  := by
  cases s <;> rfl

/-- The three fields together are the bits. -/
theorem packComponents_unpack (b : BitVec Format.binary64.numBits) :
  packComponents Format.binary64 (Sign.ofBitVec (unpackSign b)) (unpackExponent b)
    (unpackMantissa b) = b
  := by
  apply BitVec.eq_of_toNat_eq
  rw [toNat_packComponents, toBitVec_ofBitVec, toNat_unpackSign, toNat_unpackExponent,
    toNat_unpackMantissa]
  omega

/-- The sign is taken apart again as it was put together. -/
theorem unpackSign_packComponents (s : Sign) (e : BitVec 11) (m : BitVec 52) :
  unpackSign (packComponents Format.binary64 s e m) = s.toBitVec
  := by
  apply BitVec.eq_of_toNat_eq
  rw [toNat_unpackSign, toNat_packComponents]
  have he := e.isLt
  have hm := m.isLt
  omega

/-! ### Finite doubles -/

/-- What the mantissa and the exponent of a finite double other than zero have to satisfy: the
mantissa has 53 bits unless the exponent is the least. -/
structure IsParts (mantissa : Nat) (exponent : Int) : Prop where
  pos : 0 < mantissa
  lt : mantissa < 2 ^ 53
  least_le : leastExponent ≤ exponent
  le_greatest : exponent ≤ greatestExponent
  normal : exponent = leastExponent ∨ 2 ^ 52 ≤ mantissa

/-- The exponents of finite doubles, in figures. -/
theorem IsParts.bounds {m : Nat} {e : Int} (h : IsParts m e) :
  -1074 ≤ e ∧ e ≤ 971
  := ⟨h.least_le, h.le_greatest⟩

/-- A mantissa that is not below `2 ^ 52` has its leading digit there. -/
theorem IsParts.log2_eq {m : Nat} {e : Int} (h : IsParts m e) (hm : 2 ^ 52 ≤ m) :
  m.log2 = 52
  := by
  apply (Nat.log2_eq_iff (Nat.ne_of_gt h.pos)).mpr
  use hm, h.lt

/-- A mantissa below `2 ^ 52` has its leading digit below. -/
theorem IsParts.log2_lt {m : Nat} {e : Int} (h : IsParts m e) (hm : m < 2 ^ 52) :
  m.log2 < 52
  := by
  apply (Nat.log2_lt (Nat.ne_of_gt h.pos)).mpr hm

/-- What the exponent field of a finite double holds. -/
def exponentField (m : Nat) (e : Int) : Nat :=
  if 2 ^ 52 ≤ m then (e - leastExponent).toNat + 1 else 0

/-- The exponent field of a finite double is not the one that infinity and not-a-number have. -/
theorem IsParts.exponentField_lt {m : Nat} {e : Int} (h : IsParts m e) :
  exponentField m e < 2 ^ 11 - 1
  := by
  have hbounds := h.bounds
  rw [exponentField, leastExponent]
  split <;> omega

/-- A finite double is put together from its sign, the exponent field and the last bits of the mantissa. -/
theorem pack_eq {s : Sign} {m : Nat} {e : Int} (hm : 0 < m) (h : IsParts m e) :
  pack Format.binary64 (.finite s m e hm)
    = packComponents Format.binary64 s (.ofNat 11 (exponentField m e)) (.ofNat 52 m)
  := by
  have hbounds := h.bounds
  have hbiased : (e + Format.binary64.exponentBias + Format.binary64.mantissaBitsWithoutImplicit)
      = e + 1075 := by
    change e + 1023 + 52 = _
    omega
  have hsmall : ¬ 2 ^ Format.binary64.exponentBits ≤ (e + 1075).toNat + 1 := by
    change ¬ 2 ^ 11 ≤ _
    omega
  simp only [pack, hbiased, if_neg hsmall]
  by_cases hnormal : 2 ^ 52 ≤ m
  · have hfield : exponentField m e = (e + 1075).toNat := by
      rw [exponentField, leastExponent, if_pos hnormal]
      omega
    rw [h.log2_eq hnormal, if_pos (by rfl), hfield]
  · have hlog := h.log2_lt (Nat.lt_of_not_le hnormal)
    have hne : m.log2 + 1 ≠ Format.binary64.mantissaBits := by
      change m.log2 + 1 ≠ 53
      omega
    have hfield : exponentField m e = 0 := if_neg hnormal
    rw [if_neg hne, hfield]

/-- The bits of a finite double: a mantissa of 53 bits counts one up in the exponent field. -/
theorem toNat_pack {s : Sign} {m : Nat} {e : Int} (hm : 0 < m) (h : IsParts m e) :
  (pack Format.binary64 (.finite s m e hm)).toNat
    = s.toBitVec.toNat * 2 ^ 63 + ((e - leastExponent).toNat * 2 ^ 52 + m)
  := by
  have hlt := h.lt
  have hnormal := h.normal
  have hfield := h.exponentField_lt
  rw [pack_eq hm h, toNat_packComponents, BitVec.toNat_ofNat, BitVec.toNat_ofNat,
    Nat.mod_eq_of_lt (by omega)]
  rw [exponentField]
  split <;> omega

/-- A mantissa with its leading bit before it, as a number. -/
theorem toNat_one_append (m : BitVec 52) :
  (1#1 ++ m).toNat = 2 ^ 52 + m.toNat
  := by
  rw [BitVec.toNat_append, ← Nat.shiftLeft_add_eq_or_of_lt m.isLt]
  rfl

/-- A finite double is taken apart again as it was put together. -/
theorem unpack_pack {s : Sign} {m : Nat} {e : Int} (hm : 0 < m) (h : IsParts m e) :
  UnpackedFloat.unpack Format.binary64 (pack Format.binary64 (.finite s m e hm))
    = .finite s m e hm
  := by
  have hlt := h.lt
  have hfield := h.exponentField_lt
  have hexponent : (BitVec.ofNat 11 (exponentField m e)).toNat = exponentField m e := by
    rw [BitVec.toNat_ofNat, Nat.mod_eq_of_lt (by omega)]
  have hne : BitVec.ofNat 11 (exponentField m e) ≠ -1#11 := by
    rw [BitVec.toNat_ne, hexponent]
    apply Nat.ne_of_lt hfield
  rw [pack_eq hm h, UnpackedFloat.unpack]
  simp only [unpackMantissa_packComponents, unpackExponent_packComponents,
    unpackSign_packComponents, ofBitVec_toBitVec]
  rw [if_neg hne]
  by_cases hnormal : 2 ^ 52 ≤ m
  · have hfield : exponentField m e = (e - leastExponent).toNat + 1 := if_pos hnormal
    have hbounds := h.bounds
    have hne : BitVec.ofNat 11 (exponentField m e) ≠ 0#11 := by
      rw [BitVec.toNat_ne, hexponent, hfield]
      apply Nat.succ_ne_zero
    rw [if_neg hne]
    simp only [finite.injEq, true_and]
    constructor
    · rw [toNat_one_append, BitVec.toNat_ofNat]
      omega
    · rw [hexponent, hfield]
      change _ - (1023 + 52) = _
      rw [leastExponent]
      omega
  · have hfield : exponentField m e = 0 := if_neg hnormal
    have hmantissa : (BitVec.ofNat 52 m).toNat = m := by
      rw [BitVec.toNat_ofNat]
      omega
    have hne : BitVec.ofNat 52 m ≠ 0#52 := by
      rw [BitVec.toNat_ne, hmantissa]
      apply Nat.ne_of_gt hm
    have hleast := h.normal.resolve_right hnormal
    rw [hfield, if_pos rfl, dif_neg hne]
    simp only [finite.injEq, true_and]
    use hmantissa
    rw [hleast]
    rfl

/-- Bits whose exponent field is not all ones, and which are not those of a zero, are a finite
double. -/
theorem unpack_eq_finite {b : BitVec Format.binary64.numBits} (hne : unpackExponent b ≠ -1#_)
    (hzero : unpackExponent b = 0#_ → unpackMantissa b ≠ 0#_) :
  ∃ m e hm, UnpackedFloat.unpack Format.binary64 b
      = .finite (Sign.ofBitVec (unpackSign b)) m e hm ∧
    IsParts m e ∧ unpackExponent b = .ofNat 11 (exponentField m e) ∧
    unpackMantissa b = .ofNat 52 m
  := by
  have hexponent : (unpackExponent b).toNat < 2 ^ 11 := (unpackExponent b).isLt
  have hmantissa : (unpackMantissa b).toNat < 2 ^ 52 := (unpackMantissa b).isLt
  have hne' : (unpackExponent b).toNat ≠ 2 ^ 11 - 1 := BitVec.toNat_ne.mp hne
  rw [UnpackedFloat.unpack]
  simp only [if_neg hne]
  by_cases hsub : unpackExponent b = 0#_
  · have hpos : 0 < (unpackMantissa b).toNat := by
      apply Nat.pos_of_ne_zero
      intro heq
      apply hzero hsub
      apply BitVec.eq_of_toNat_eq heq
    rw [if_pos hsub, dif_neg (hzero hsub)]
    use (unpackMantissa b).toNat, leastExponent, hpos
    constructor
    · simp only [finite.injEq, true_and]
      rw [hsub]
      rfl
    · have hfield : exponentField (unpackMantissa b).toNat leastExponent = 0 := by
        apply if_neg
        omega
      rw [hfield]
      use ⟨hpos, by omega, by decide, by decide, .inl rfl⟩, hsub
      simp
  · have hpos : 0 < (unpackExponent b).toNat := by
      apply Nat.pos_of_ne_zero
      intro heq
      apply hsub
      apply BitVec.eq_of_toNat_eq heq
    rw [if_neg hsub]
    have happend := toNat_one_append (unpackMantissa b)
    use (1#1 ++ unpackMantissa b).toNat,
      ((unpackExponent b).toNat : Int) - 1 + leastExponent, by omega
    constructor
    · simp only [finite.injEq, true_and]
      change _ - (1023 + 52) = _
      rw [leastExponent]
      omega
    · have hfield : exponentField (1#1 ++ unpackMantissa b).toNat
          (((unpackExponent b).toNat : Int) - 1 + leastExponent) = (unpackExponent b).toNat := by
        rw [exponentField, if_pos (by omega)]
        omega
      rw [hfield, happend]
      refine ⟨⟨by omega, by omega, ?_, ?_, .inr (by omega)⟩, ?_, ?_⟩
      · rw [leastExponent]
        omega
      · rw [leastExponent, greatestExponent]
        omega
      · simp
      · apply BitVec.eq_of_toNat_eq
        change _ = (2 ^ 52 + (unpackMantissa b).toNat) % 2 ^ 52
        omega

/-- Putting together what was taken apart leads back to the same bits. -/
theorem pack_unpack {b : BitVec Format.binary64.numBits} (h : Format.binary64.Valid b) :
  pack Format.binary64 (UnpackedFloat.unpack Format.binary64 b) = b
  := by
  have hfields := packComponents_unpack b
  by_cases hexponent : unpackExponent b = -1#_
  · rw [UnpackedFloat.unpack]
    simp only [if_pos hexponent]
    split
    next hmantissa =>
      rw [hexponent, hmantissa] at hfields
      apply hfields
    next hmantissa =>
      rw [h.eq_packedNaN hexponent hmantissa]
      rfl
  · by_cases hzero : unpackExponent b = 0#_ → unpackMantissa b ≠ 0#_
    · obtain ⟨m, e, hm, hunpack, hparts, hexponent', hmantissa⟩ := unpack_eq_finite hexponent hzero
      rw [hunpack, pack_eq hm hparts]
      rw [hexponent', hmantissa] at hfields
      apply hfields
    · push Not at hzero
      rw [UnpackedFloat.unpack]
      simp only [if_neg hexponent]
      rw [if_pos hzero.1, dif_pos hzero.2]
      rw [hzero.1, hzero.2] at hfields
      apply hfields

/-- What a finite double is taken apart into satisfies what it has to. -/
theorem isParts_of_unpack {b : BitVec Format.binary64.numBits} {s : Sign} {m : Nat} {e : Int}
    {hm : 0 < m} (h : UnpackedFloat.unpack Format.binary64 b = .finite s m e hm) :
  IsParts m e
  := by
  by_cases hexponent : unpackExponent b = -1#_
  · rw [UnpackedFloat.unpack] at h
    simp only [if_pos hexponent] at h
    split at h <;> cases h
  · by_cases hzero : unpackExponent b = 0#_ → unpackMantissa b ≠ 0#_
    · obtain ⟨m', e', hm', hunpack, hparts, -⟩ := unpack_eq_finite hexponent hzero
      rw [hunpack] at h
      cases h
      apply hparts
    · push Not at hzero
      rw [UnpackedFloat.unpack] at h
      simp only [if_neg hexponent] at h
      rw [if_pos hzero.1, dif_pos hzero.2] at h
      cases h

/-! ### Not-a-number -/

/-- Not-a-number has all ones in the exponent field, as infinity has, and a mantissa. -/
theorem fields_of_notANumber {b : BitVec Format.binary64.numBits}
    (h : UnpackedFloat.unpack Format.binary64 b = .notANumber) :
  unpackExponent b = -1#_ ∧ unpackMantissa b ≠ 0#_
  := by
  by_cases hexponent : unpackExponent b = -1#_
  · use hexponent
    intro hmantissa
    rw [UnpackedFloat.unpack] at h
    simp only [if_pos hexponent, if_pos hmantissa] at h
    cases h
  · by_cases hzero : unpackExponent b = 0#_ → unpackMantissa b ≠ 0#_
    · obtain ⟨m, e, hm, hunpack, -⟩ := unpack_eq_finite hexponent hzero
      rw [hunpack] at h
      cases h
    · push Not at hzero
      rw [UnpackedFloat.unpack] at h
      simp only [if_neg hexponent] at h
      rw [if_pos hzero.1, dif_pos hzero.2] at h
      cases h

/-- Up to infinity there is no mantissa where the exponent field is all ones. -/
theorem unpackMantissa_eq_zero {b : BitVec Format.binary64.numBits} (h : b.toNat ≤ 2047 * 2 ^ 52)
    (hexponent : unpackExponent b = -1#_) :
  unpackMantissa b = 0#_
  := by
  have hfield := congrArg BitVec.toNat hexponent
  rw [toNat_unpackExponent] at hfield
  change b.toNat / 2 ^ 52 % 2 ^ 11 = 2047 at hfield
  apply BitVec.eq_of_toNat_eq
  rw [toNat_unpackMantissa]
  change b.toNat % 2 ^ 52 = 0
  omega

end PocketLisp.Double
