import Mathlib.Data.List.TakeWhile
import PocketLisp.Decimal.Literal
import PocketLisp.Decimal.Layout
import PocketLisp.Proofs.Decimal.Shortest

/-!
# Reading numbers that were written

The digits of an integer read back as the integer.  A double written positionally reads back as
the double: the text has digits on both sides of a point, the decimal that it denotes stands for
the same number as the shortest decimal of the double, and it has few enough digits for all of
them to count.
-/

namespace PocketLisp

namespace Literal

/-! ### Digits -/

/-- What holds of the ten digits holds of every digit. -/
theorem of_isDigit {P : Char → Prop} (h : ∀ n < 10, P (Char.ofNat (48 + n))) {c : Char}
    (hc : c.isDigit) :
  P c
  := by
  have hrange : 48 ≤ c.toNat ∧ c.toNat ≤ 57 := by
    simpa [Char.isDigit, UInt32.le_iff_toNat_le] using hc
  have hdigit := h (c.toNat - 48) (by omega)
  rw [Nat.add_sub_cancel' hrange.1, Char.ofNat_toNat] at hdigit
  apply hdigit

/-- A digit is worth its distance from `0`. -/
theorem digit?_eq {c : Char} (h : c.isDigit) :
  digit? c = some (c.toNat - '0'.toNat)
  := if_pos h

/-- A number is written in digits. -/
theorem isDigit_of_mem_toDigits {n : Nat} {c : Char} (h : c ∈ Nat.toDigits 10 n) :
  c.isDigit
  := by
  apply Nat.isDigit_of_mem_toDigits (by norm_num) (by norm_num) h

/-- A number is written in at least one digit. -/
theorem exists_digit_toDigits (n : Nat) :
  ∃ c rest, Nat.toDigits 10 n = c :: rest ∧ c.isDigit
  := by
  obtain ⟨c, rest, htext⟩ := List.exists_cons_of_ne_nil (Nat.toDigits_ne_nil (n := n) (b := 10))
  use c, rest, htext, isDigit_of_mem_toDigits (htext ▸ List.mem_cons_self)

/-- With more digits a number does not become smaller. -/
theorem le_ofDigitChars (digits : List Char) (n : Nat) :
  n ≤ Nat.ofDigitChars 10 digits n
  := by
  rw [Nat.ofDigitChars_eq_ofDigitChars_zero]
  apply le_add_right
  apply Nat.le_mul_of_pos_left
  positivity

/-- Zeros before the other digits do not count. -/
theorem ofDigitChars_dropWhile (digits : List Char) :
  Nat.ofDigitChars 10 (digits.dropWhile (· == '0')) 0 = Nat.ofDigitChars 10 digits 0
  := by
  induction digits with
  | nil => rfl
  | cons c digits ih =>
    rw [List.dropWhile_cons]
    split
    next h =>
      rw [beq_iff_eq.mp h, ih]
      rfl
    next => rfl

/-! ### Integers -/

/-- A number with a sign. -/
def signed (negative : Bool) (n : Nat) : Int :=
  if negative then -n else n

/-- Whether a number is in the range of the integers. -/
def InRange (n : Int) : Prop :=
  Int64.minValue.toInt ≤ n ∧ n ≤ Int64.maxValue.toInt

/-- With a number of one sign all that are nearer to zero are in the range. -/
theorem InRange.of_le {negative : Bool} {n k : Nat} (hle : n ≤ k)
    (h : InRange (signed negative k)) :
  InRange (signed negative n)
  := by
  obtain ⟨hmin, hmax⟩ := h
  have hneg : Int64.minValue.toInt ≤ 0 := by decide
  have hpos : 0 ≤ Int64.maxValue.toInt := by decide
  cases negative with
  | false =>
    change (k : Int) ≤ _ at hmax
    constructor
    · change _ ≤ (n : Int)
      omega
    · change (n : Int) ≤ _
      omega
  | true =>
    change _ ≤ -(k : Int) at hmin
    constructor
    · change _ ≤ -(n : Int)
      omega
    · change -(n : Int) ≤ _
      omega

/-- On the way to a number in the range no digit leaves the range. -/
theorem integerFrom_eq {negative : Bool} {value : Nat} {digits : List Char}
    (hdigits : ∀ c ∈ digits, c.isDigit)
    (hrange : InRange (signed negative (Nat.ofDigitChars 10 digits value))) :
  integerFrom negative (signed negative value) digits
    = .ok (signed negative (Nat.ofDigitChars 10 digits value))
  := by
  induction digits generalizing value with
  | nil => rfl
  | cons c digits ih =>
    obtain ⟨hc, hdigits⟩ := List.forall_mem_cons.mp hdigits
    rw [Nat.ofDigitChars_cons] at hrange ⊢
    have hle := le_ofDigitChars digits (10 * value + (c.toNat - '0'.toNat))
    have hnext : (if negative then signed negative value * 10 - ((c.toNat - '0'.toNat : Nat) : Int)
        else signed negative value * 10 + ((c.toNat - '0'.toNat : Nat) : Int))
        = signed negative (10 * value + (c.toNat - '0'.toNat)) := by
      unfold signed
      split <;> omega
    obtain ⟨hmin, hmax⟩ := hrange.of_le hle
    rw [integerFrom, digit?_eq hc]
    simp only [hnext]
    rw [if_neg (Int.not_lt_of_ge hmin), if_neg (Int.not_lt_of_ge hmax), ih hdigits hrange]

/-- No digit is a sign. -/
theorem ne_sign_of_isDigit {c : Char} (h : c.isDigit) :
  c ≠ '+' ∧ c ≠ '-'
  := by
  constructor <;> rintro rfl <;> cases h

/-- A text that begins with a digit is read as an integer without sign. -/
theorem integer?_cons {c : Char} (h : c.isDigit) (text : List Char) :
  integer? (c :: text) = (integerFrom false 0 (c :: text)).map Int64.ofInt
  := by
  obtain ⟨hplus, hminus⟩ := ne_sign_of_isDigit h
  unfold integer?
  split
  next heq => cases heq
  next heq => cases hplus (List.cons.inj heq).1
  next heq => cases hminus (List.cons.inj heq).1
  next heq => cases hplus (List.cons.inj heq).1
  next heq => cases hminus (List.cons.inj heq).1
  next => rfl

/-- A text that begins with a minus is read as a negative integer, unless that is all there is. -/
theorem integer?_negative {digits : List Char} (hne : digits ≠ []) :
  integer? ('-' :: digits) = (integerFrom true 0 digits).map Int64.ofInt
  := by
  obtain ⟨c, digits, rfl⟩ := List.exists_cons_of_ne_nil hne
  rfl

/-- The digits of a number read back, with either sign. -/
theorem integerFrom_toDigits {negative : Bool} {n : Nat} (hrange : InRange (signed negative n)) :
  integerFrom negative 0 (Nat.toDigits 10 n) = .ok (signed negative n)
  := by
  have hvalue : Nat.ofDigitChars 10 (Nat.toDigits 10 n) 0 = n := Nat.ofDigitChars_ten_toDigits
  have hzero : signed negative 0 = 0 := by
    cases negative <;> rfl
  rw [← hzero, integerFrom_eq (fun c h => isDigit_of_mem_toDigits h) (hvalue.symm ▸ hrange),
    hvalue]

/-- The text of an integer. -/
theorem toList_toString (n : Int) :
  (toString n).toList = if 0 ≤ n then Nat.toDigits 10 n.toNat else '-' :: Nat.toDigits 10 (-n).toNat
  := by
  rw [Int.toString_eq_repr, Int.repr_eq_if]
  split <;> simp

/-- A written integer reads back. -/
theorem integer?_toString (n : Int64) :
  integer? (toString n.toInt).toList = .ok n
  := by
  have hrange : InRange n.toInt := ⟨Int64.minValue_le_toInt n, Int64.toInt_le n⟩
  rw [toList_toString]
  split
  next hpos =>
    have hn : signed false n.toInt.toNat = n.toInt := Int.toNat_of_nonneg hpos
    obtain ⟨c, digits, hdigits, hc⟩ := exists_digit_toDigits n.toInt.toNat
    rw [hdigits, integer?_cons hc, ← hdigits, integerFrom_toDigits (hn.symm ▸ hrange), hn]
    exact congrArg Except.ok n.ofInt_toInt
  next hneg =>
    have hn : signed true (-n.toInt).toNat = n.toInt := by
      change -((-n.toInt).toNat : Int) = _
      omega
    rw [integer?_negative Nat.toDigits_ne_nil, integerFrom_toDigits (hn.symm ▸ hrange), hn]
    exact congrArg Except.ok n.ofInt_toInt

/-- Whatever contains a point is no integer. -/
theorem integerFrom_point (negative : Bool) (value : Int) (whole fraction : List Char) :
  ∃ fault, integerFrom negative value (whole ++ '.' :: fraction) = .error fault
  := by
  induction whole generalizing value with
  | nil => exact ⟨.invalidDigit, rfl⟩
  | cons c whole ih =>
    rw [List.cons_append, integerFrom]
    split
    next => exact ⟨_, rfl⟩
    next d _ =>
      simp only
      generalize (if negative then value * 10 - (d : Int) else value * 10 + d) = next
      split
      next => exact ⟨_, rfl⟩
      next =>
        split
        next => exact ⟨_, rfl⟩
        next => apply ih

/-! ### Floats -/

/-- A text that begins with a digit is read as a float without sign. -/
theorem float?_cons {c : Char} (h : c.isDigit) (text : List Char) :
  float? (c :: text) = (unsigned? (c :: text)).elim (.error .invalid) .ok
  := by
  obtain ⟨hplus, hminus⟩ := ne_sign_of_isDigit h
  unfold float?
  split
  next heq => cases hminus (List.cons.inj heq).1
  next heq => cases hplus (List.cons.inj heq).1
  next => cases unsigned? (c :: text) <;> rfl

/-- A plus before a float may as well be missing. -/
theorem float?_positive (text : List Char) :
  float? ('+' :: text) = (unsigned? text).elim (.error .invalid) .ok
  := by
  simp only [float?]
  cases unsigned? text <;> rfl

/-- A minus before a float makes it negative. -/
theorem float?_negative (text : List Char) :
  float? ('-' :: text) = (unsigned? text).elim (.error .invalid) fun x => .ok x.neg
  := by
  simp only [float?]
  cases unsigned? text <;> rfl

/-- No name begins with a digit. -/
theorem named?_eq_none {c : Char} (h : c.isDigit) (text : List Char) :
  named? (c :: text) = none
  := by
  have hlower : c.toLower = c := of_isDigit (P := fun c => c.toLower = c) (by decide) h
  have hne {d : Char} (hd : d.isDigit = false) (name : List Char) :
      String.ofList (c :: text.map Char.toLower) ≠ String.ofList (d :: name) := by
    intro heq
    obtain ⟨rfl, -⟩ := List.cons.inj (String.ofList_injective heq)
    rw [hd] at h
    cases h
  rw [named?, List.map_cons, hlower]
  split
  next heq => cases hne (d := 'i') rfl ['n', 'f'] heq
  next heq => cases hne (d := 'i') rfl ['n', 'f', 'i', 'n', 'i', 't', 'y'] heq
  next heq => cases hne (d := 'n') rfl ['a', 'n'] heq
  next => rfl

/-- A text that begins with a digit is not read as not-a-number, which only a name can stand for. -/
theorem isNaN_of_unsigned? {c : Char} (hc : c.isDigit) {text : List Char} {x : Float}
    (h : unsigned? (c :: text) = some x) :
  x.isNaN = false
  := by
  rw [unsigned?] at h
  split at h
  next =>
    cases h
    apply Decimal.isNaN_toFloat
  next =>
    rw [named?_eq_none hc] at h
    cases h

/-- A float is a number if its text begins with a digit, be it after a sign. -/
theorem isNaN_of_float? {c : Char} (hc : c.isDigit) {text rest : List Char}
    (htext : text = c :: rest ∨ text = '+' :: c :: rest ∨ text = '-' :: c :: rest) {x : Float}
    (h : float? text = .ok x) :
  x.isNaN = false
  := by
  cases hy : unsigned? (c :: rest) with
  | none =>
    rcases htext with rfl | rfl | rfl <;>
      simp [float?_cons hc, float?_positive, float?_negative, hy] at h
  | some y =>
    have hnan := isNaN_of_unsigned? hc hy
    rcases htext with rfl | rfl | rfl
    · rw [float?_cons hc, hy] at h
      cases h
      apply hnan
    · rw [float?_positive, hy] at h
      cases h
      apply hnan
    · rw [float?_negative, hy] at h
      cases h
      rw [Double.isNaN_neg, hnan]

/-! ### Decimals with a point -/

/-- Up to the limit all digits are kept. -/
theorem ofSignificant_eq {digits : List Char} (exponent : Int)
    (hlength : (digits.dropWhile (· == '0')).length ≤ significantLimit) :
  ofSignificant digits exponent = ⟨Nat.ofDigitChars 10 digits 0, exponent⟩
  := by
  rw [ofSignificant]
  simp only [List.drop_of_length_le hlength, List.take_of_length_le hlength,
    ofDigitChars_dropWhile]

/-- A text of digits with a point among them, and at least one digit before the point. -/
structure Pointed (text whole fraction : List Char) : Prop where
  text_eq : text = whole ++ '.' :: fraction
  whole_ne : whole ≠ []
  whole_digits : ∀ c ∈ whole, c.isDigit
  fraction_digits : ∀ c ∈ fraction, c.isDigit

namespace Pointed

variable {text whole fraction : List Char}

/-- The text begins with a digit. -/
theorem exists_digit (h : Pointed text whole fraction) :
  ∃ c rest, text = c :: rest ∧ c.isDigit
  := by
  obtain ⟨c, digits, rfl⟩ := List.exists_cons_of_ne_nil h.whole_ne
  use c, digits ++ '.' :: fraction, h.text_eq, h.whole_digits c List.mem_cons_self

/-- A decimal with few enough digits is read with all of them. -/
theorem decimal?_eq (h : Pointed text whole fraction)
    (hlength : ((whole ++ fraction).dropWhile (· == '0')).length ≤ significantLimit) :
  decimal? text = some ⟨Nat.ofDigitChars 10 (whole ++ fraction) 0, -fraction.length⟩
  := by
  have htake : text.takeWhile Char.isDigit = whole := by
    rw [h.text_eq, List.takeWhile_append_of_pos h.whole_digits]
    apply List.append_nil
  have hdrop : text.dropWhile Char.isDigit = '.' :: fraction := by
    rw [h.text_eq, List.dropWhile_append_of_pos h.whole_digits]
    rfl
  have htakeFraction : fraction.takeWhile Char.isDigit = fraction :=
    List.takeWhile_eq_self_iff.mpr h.fraction_digits
  have hdropFraction : fraction.dropWhile Char.isDigit = [] :=
    List.dropWhile_eq_nil_iff.mpr h.fraction_digits
  have hne : (whole.isEmpty && fraction.isEmpty) = false := by
    simp [h.whole_ne]
  rw [decimal?]
  simp only [htake, hdrop, htakeFraction, hdropFraction, hne]
  simp only [exponent?, ofSignificant_eq _ hlength, Bool.false_eq_true, if_false, Option.map_some,
    zero_sub]

/-- The text is no integer, because of the point. -/
theorem integer?_eq (h : Pointed text whole fraction) :
  ∃ fault, integer? text = .error fault
  := by
  obtain ⟨fault, hfault⟩ := integerFrom_point false 0 whole fraction
  obtain ⟨c, rest, rfl, hc⟩ := h.exists_digit
  use fault
  rw [integer?_cons hc, h.text_eq, hfault]
  rfl

/-- Nor is it one behind a minus. -/
theorem integer?_negative_eq (h : Pointed text whole fraction) :
  ∃ fault, integer? ('-' :: text) = .error fault
  := by
  obtain ⟨fault, hfault⟩ := integerFrom_point true 0 whole fraction
  use fault
  rw [h.text_eq, integer?_negative (List.append_ne_nil_of_left_ne_nil h.whole_ne _), hfault]
  rfl

end Pointed

/-! ### The characters of numbers -/

/-- A text that begins as a number does, with a digit or a sign and a digit, and consists of
digits, points and signs. -/
structure IsNumeral (text : List Char) : Prop where
  starts : ∃ c rest, c.isDigit ∧ (text = c :: rest ∨ text = '-' :: c :: rest)
  chars : ∀ c ∈ text, c.isDigit ∨ c = '.' ∨ c = '-'

/-- A sign may stand before a digit. -/
theorem IsNumeral.negative {text : List Char} (h : IsNumeral text)
    (hdigit : ∃ c rest, text = c :: rest ∧ c.isDigit) :
  IsNumeral ('-' :: text)
  := by
  obtain ⟨c, rest, rfl, hc⟩ := hdigit
  constructor
  · use c, rest, hc, .inr rfl
  · intro c' hc'
    rcases List.mem_cons.mp hc' with rfl | hc'
    · exact .inr (.inr rfl)
    · apply h.chars c' hc'

/-- The digits of a natural number have the characters of numbers. -/
theorem isNumeral_toDigits (n : Nat) :
  IsNumeral (Nat.toDigits 10 n)
  := by
  constructor
  · obtain ⟨c, rest, htext, hc⟩ := exists_digit_toDigits n
    use c, rest, hc, .inl htext
  · intro c hc
    exact .inl (isDigit_of_mem_toDigits hc)

/-- An integer as it is written has the characters of numbers. -/
theorem isNumeral_toString (n : Int) :
  IsNumeral (toString n).toList
  := by
  rw [toList_toString]
  split
  next => apply isNumeral_toDigits
  next => apply (isNumeral_toDigits _).negative (exists_digit_toDigits _)

/-- A text of digits with a point has the characters of numbers. -/
theorem Pointed.isNumeral {text whole fraction : List Char} (h : Pointed text whole fraction) :
  IsNumeral text
  := by
  constructor
  · obtain ⟨c, rest, htext, hc⟩ := h.exists_digit
    use c, rest, hc, .inl htext
  · intro c hc
    rw [h.text_eq] at hc
    rcases List.mem_append.mp hc with hc | hc
    · exact .inl (h.whole_digits c hc)
    · rcases List.mem_cons.mp hc with rfl | hc
      · exact .inr (.inl rfl)
      · exact .inl (h.fraction_digits c hc)

end Literal

namespace Decimal

/-- The digits of a decimal are digits. -/
theorem isDigit_of_mem_digitChars {d : Decimal} {c : Char} (h : c ∈ d.digitChars) :
  c.isDigit
  := by
  apply Literal.isDigit_of_mem_toDigits h

/-- Zeros are digits. -/
theorem isDigit_of_mem_zeros {n : Nat} {c : Char} (h : c ∈ List.replicate n '0') :
  c.isDigit
  := by
  rw [List.eq_of_mem_replicate h]
  rfl

/-- The digits of a decimal read back as their number. -/
theorem ofDigitChars_digitChars (d : Decimal) :
  Nat.ofDigitChars 10 d.digitChars 0 = d.digits
  := by
  apply Nat.ofDigitChars_ten_toDigits

/-- The text has digits on both sides of a point that stand for the number of the decimal, and
at most `count` of them after leading zeros. -/
def Spells (text : List Char) (d : Decimal) (count : Nat) : Prop :=
  ∃ whole fraction, Literal.Pointed text whole fraction ∧
    toRat ⟨Nat.ofDigitChars 10 (whole ++ fraction) 0, -fraction.length⟩ = d.toRat ∧
    ((whole ++ fraction).dropWhile (· == '0')).length ≤ count

/-- A bound on the digits may be raised. -/
theorem Spells.mono {text : List Char} {d : Decimal} {count count' : Nat}
    (h : Spells text d count) (hle : count ≤ count') :
  Spells text d count'
  := by
  obtain ⟨whole, fraction, hpointed, hvalue, hlength⟩ := h
  use whole, fraction, hpointed, hvalue, hlength.trans hle

/-- A decimal below one is spelt with zeros before its digits, which do not count. -/
theorem spells_zeros_before {d : Decimal} (h : d.point ≤ 0) :
  Spells ('0' :: '.' :: List.replicate d.point.natAbs '0' ++ d.digitChars) d d.digitChars.length
  := by
  have hpoint : d.point = d.digitChars.length + d.exponent := rfl
  have hexponent : -((List.replicate d.point.natAbs '0' ++ d.digitChars).length : Int)
      = d.exponent := by
    rw [List.length_append, List.length_replicate]
    omega
  have hzeros : ∀ c ∈ '0' :: List.replicate d.point.natAbs '0', c = '0' := by
    intro c hc
    rw [← List.replicate_succ] at hc
    apply List.eq_of_mem_replicate hc
  use ['0'], List.replicate d.point.natAbs '0' ++ d.digitChars
  refine ⟨⟨rfl, List.cons_ne_nil _ _, ?_, ?_⟩, ?_, ?_⟩
  · intro c hc
    rw [List.mem_singleton.mp hc]
    rfl
  · intro c hc
    rcases List.mem_append.mp hc with hc | hc
    · apply isDigit_of_mem_zeros hc
    · apply isDigit_of_mem_digitChars hc
  · rw [hexponent, Nat.ofDigitChars_append, Nat.ofDigitChars_append,
      Nat.ofDigitChars_replicate_zero]
    change toRat ⟨Nat.ofDigitChars 10 d.digitChars 0, d.exponent⟩ = _
    rw [ofDigitChars_digitChars]
  · change (('0' :: List.replicate d.point.natAbs '0' ++ d.digitChars).dropWhile _).length ≤ _
    rw [List.dropWhile_append_of_pos (fun c hc => beq_iff_eq.mpr (hzeros c hc))]
    apply List.length_dropWhile_le

/-- A whole number is spelt with zeros behind its digits, which count, and one more behind the point. -/
theorem spells_zeros_after {d : Decimal} (h : d.digitChars.length ≤ d.point) :
  Spells (d.digitChars ++ List.replicate (d.point.toNat - d.digitChars.length) '0' ++ ['.', '0']) d
    (d.point.toNat + 1)
  := by
  have hpoint : d.point = d.digitChars.length + d.exponent := rfl
  have hlength : 0 < d.digitChars.length := Nat.length_toDigits_pos
  have hexponent : d.exponent = (d.point.toNat - d.digitChars.length : Nat) := by
    omega
  use d.digitChars ++ List.replicate (d.point.toNat - d.digitChars.length) '0', ['0']
  refine ⟨⟨rfl, ?_, ?_, ?_⟩, ?_, ?_⟩
  · apply List.append_ne_nil_of_left_ne_nil
    apply List.ne_nil_of_length_pos hlength
  · intro c hc
    rcases List.mem_append.mp hc with hc | hc
    · apply isDigit_of_mem_digitChars hc
    · apply isDigit_of_mem_zeros hc
  · intro c hc
    rw [List.mem_singleton.mp hc]
    rfl
  · rw [Nat.ofDigitChars_append, Nat.ofDigitChars_append, Nat.ofDigitChars_replicate_zero,
      ofDigitChars_digitChars]
    change toRat ⟨10 * (10 ^ _ * d.digits), -1⟩ = _
    rw [toRat, toRat, hexponent, zpow_natCast, zpow_neg_one]
    push_cast
    ring
  · apply (List.length_dropWhile_le _ _).trans
    rw [List.length_append, List.length_append, List.length_replicate, List.length_singleton]
    omega

/-- Any other decimal is spelt with the point among its digits. -/
theorem spells_among {d : Decimal} (h : 0 < d.point) (hlt : d.point < d.digitChars.length) :
  Spells (d.digitChars.take d.point.toNat ++ '.' :: d.digitChars.drop d.point.toNat) d
    d.digitChars.length
  := by
  have hpoint : d.point = d.digitChars.length + d.exponent := rfl
  have hexponent : -((d.digitChars.drop d.point.toNat).length : Int) = d.exponent := by
    rw [List.length_drop]
    omega
  use d.digitChars.take d.point.toNat, d.digitChars.drop d.point.toNat
  refine ⟨⟨rfl, ?_, ?_, ?_⟩, ?_, ?_⟩
  · apply List.ne_nil_of_length_pos
    rw [List.length_take]
    omega
  · intro c hc
    apply isDigit_of_mem_digitChars (List.mem_of_mem_take hc)
  · intro c hc
    apply isDigit_of_mem_digitChars (List.mem_of_mem_drop hc)
  · rw [hexponent, List.take_append_drop, ofDigitChars_digitChars]
  · rw [List.take_append_drop]
    apply List.length_dropWhile_le

/-- The positional text of a decimal spells it. -/
theorem spells_positional (d : Decimal) :
  Spells d.positional d (max d.digitChars.length (d.point.toNat + 1))
  := by
  rw [positional]
  split
  next hle => apply (spells_zeros_before hle).mono (le_max_left _ _)
  next hpos =>
    split
    next hle => apply (spells_zeros_after hle).mono (le_max_right _ _)
    next hlt =>
      apply (spells_among (Int.lt_of_not_ge hpos) (Int.lt_of_not_ge hlt)).mono (le_max_left _ _)

/-- What the text of a decimal denotes has the same nearest double, if the digits are few
enough. -/
theorem Spells.unsigned?_eq {text : List Char} {d : Decimal} {count : Nat}
    (h : Spells text d count) (hcount : count ≤ Literal.significantLimit) :
  Literal.unsigned? text = some d.toFloat
  := by
  obtain ⟨whole, fraction, hpointed, hvalue, hlength⟩ := h
  rw [Literal.unsigned?, hpointed.decimal?_eq (hlength.trans hcount)]
  exact congrArg some (toFloat_eq_of_toRat_eq hvalue)

end Decimal

namespace FloatFormat

open Float.Model (UnpackedFloat)
open Float.Model.UnpackedFloat (Sign)

variable {x : Float} {m : Nat} {e : Int} {hm : 0 < m}

/-- The plain format writes everything positionally. -/
theorem isPositional_plain (d : Decimal) :
  plain.isPositional d
  := rfl

/-- The plain format writes the shortest decimal. -/
theorem digitsOf_plain (x : Float) :
  plain.digitsOf x = (Decimal.shortest x).positional
  := by
  rw [digitsOf, isPositional_plain, if_pos rfl]

/-- The digits of a positive finite double read back. -/
theorem spells_digitsOf (h : Double.unpack x = .finite .positive m e hm) :
  Decimal.Spells (plain.digitsOf x) (Decimal.shortest x) Literal.significantLimit
  := by
  obtain ⟨hdigits, hpoint⟩ :=
    Decimal.digits_ne_and_point_le h (Decimal.isNormal_shortest x) (Decimal.toFloat_shortest h)
  have hlength : (Decimal.shortest x).digitChars.length ≤ 769 := by
    apply (Nat.length_toDigits_le_iff (by norm_num) (by norm_num)).mpr
    apply (Decimal.shortest_digits_le h).trans_lt
    apply Nat.pow_lt_pow_right <;> norm_num
  rw [digitsOf_plain]
  apply (Decimal.spells_positional _).mono
  rw [Literal.significantLimit]
  omega

/-- The digits written for a positive finite double read back as the double. -/
theorem unsigned?_digitsOf (h : Double.unpack x = .finite .positive m e hm) :
  Literal.unsigned? (plain.digitsOf x) = some x
  := by
  rw [(spells_digitsOf h).unsigned?_eq le_rfl, Decimal.toFloat_shortest h]

/-- The text of a finite double other than zero: a sign if it is negative, and digits. -/
theorem toList_write {s : Sign} (h : Double.unpack x = .finite s m e hm) :
  (plain.write x).toList
    = (match s with | .negative => ['-'] | .positive => []) ++ plain.digitsOf x.abs
  := by
  have habs := Double.unpack_abs h
  have hnan : x.isNaN = false := by
    rw [← Bool.not_eq_true, Double.isNaN_iff, h]
    apply UnpackedFloat.noConfusion
  have hinf : x.abs.isInf = false := by
    change (Double.unpack x.abs).isInf = false
    rw [habs]
    rfl
  have hzero : (x.abs == 0.0) = false := by
    rw [← Bool.not_eq_true]
    intro hbeq
    rw [Double.beq_comm] at hbeq
    rw [← Double.eq_of_beq habs hbeq] at habs
    cases habs
  rw [write]
  simp only [hnan, hinf, hzero, Bool.false_eq_true, if_false, String.toList_append,
    String.toList_ofList]
  cases s with
  | negative =>
    rw [if_pos ((Double.signBit_iff h).mpr rfl)]
    rfl
  | positive =>
    rw [if_neg]
    · rfl
    · intro hsign
      cases (Double.signBit_iff h).mp hsign

/-- A written finite double reads back. -/
theorem float?_write (h : x.isFinite) :
  Literal.float? (plain.write x).toList = .ok x
  := by
  rcases Double.cases_of_isFinite h with rfl | rfl | ⟨s, m, e, hm, hx⟩
  · rfl
  · decide +kernel
  · have habs := Double.unpack_abs hx
    have hread := unsigned?_digitsOf habs
    rw [toList_write hx]
    cases s with
    | negative =>
      have hneg : x.abs.neg = x := by
        apply Double.eq_of_unpack_eq
        rw [Double.unpack_neg, habs, hx]
        rfl
      have hvalue := Literal.float?_negative (plain.digitsOf x.abs)
      rw [hread] at hvalue
      exact hvalue.trans (congrArg Except.ok hneg)
    | positive =>
      have heq : x.abs = x := by
        apply Double.eq_of_unpack_eq
        rw [habs, hx]
      obtain ⟨whole, fraction, hpointed, -⟩ := spells_digitsOf habs
      obtain ⟨c, rest, htext, hc⟩ := hpointed.exists_digit
      rw [htext, heq] at hread
      rw [List.nil_append, htext]
      rw [Literal.float?_cons hc, hread]
      rfl

/-- The text of a finite double is digits with a point among them, after a sign if need be. -/
theorem pointed_write (h : x.isFinite) :
  ∃ text whole fraction, Literal.Pointed text whole fraction ∧
    ((plain.write x).toList = text ∨ (plain.write x).toList = '-' :: text)
  := by
  have hzero : Literal.Pointed ['0', '.', '0'] ['0'] ['0'] :=
    ⟨rfl, List.cons_ne_nil _ _, List.all_eq_true.mp rfl, List.all_eq_true.mp rfl⟩
  rcases Double.cases_of_isFinite h with rfl | rfl | ⟨s, m, e, hm, hx⟩
  · refine ⟨_, _, _, hzero, .inl ?_⟩
    decide +kernel
  · refine ⟨_, _, _, hzero, .inr ?_⟩
    decide +kernel
  · obtain ⟨whole, fraction, hpointed, -⟩ := spells_digitsOf (Double.unpack_abs hx)
    use plain.digitsOf x.abs, whole, fraction, hpointed
    rw [toList_write hx]
    cases s with
    | negative => exact .inr (List.singleton_append)
    | positive => exact .inl (List.nil_append _)

/-- A finite double as it is written is no integer. -/
theorem integer?_write (h : x.isFinite) :
  ∃ fault, Literal.integer? (plain.write x).toList = .error fault
  := by
  obtain ⟨text, whole, fraction, hpointed, htext | htext⟩ := pointed_write h
  · rw [htext]
    apply hpointed.integer?_eq
  · rw [htext]
    apply hpointed.integer?_negative_eq

/-- A finite double as it is written has the characters of numbers. -/
theorem isNumeral_write (h : x.isFinite) :
  Literal.IsNumeral (plain.write x).toList
  := by
  obtain ⟨text, whole, fraction, hpointed, htext | htext⟩ := pointed_write h
  · rw [htext]
    apply hpointed.isNumeral
  · rw [htext]
    apply hpointed.isNumeral.negative hpointed.exists_digit

end FloatFormat

end PocketLisp
