import PocketLisp.Decimal.Shortest
import PocketLisp.Proofs.Decimal.Basic

/-!
# The shortest decimal reads back

The shortest decimal of a positive finite double has that double as the nearest, because the
candidates are tried for just that and the exact value, which is taken if there is no other, has
that property.
-/

namespace PocketLisp.Decimal

variable {x : Float} {m : Nat} {e : Int} {hm : 0 < m}

/-! ### The exact value -/

/-- The exact decimal of a double stands for the number of the double. -/
theorem toRat_exact (h : Double.unpack x = .finite .positive m e hm) :
  (exact x).toRat = m * 2 ^ e
  := by
  rw [exact, Double.parts_eq h]
  simp only
  split
  next he =>
    obtain ⟨n, rfl⟩ := Int.eq_ofNat_of_zero_le he
    simp [toRat, Nat.shiftLeft_eq]
  next he =>
    obtain ⟨n, rfl⟩ := Int.eq_negSucc_of_lt_zero (Int.lt_of_not_ge he)
    have hten : (10 : ℚ) = 5 * 2 := by norm_num
    simp only [toRat, zpow_negSucc, Int.natAbs_negSucc, Nat.pow_eq]
    rw [hten, mul_pow, mul_inv]
    push_cast
    field_simp

/-- The exact decimal of a double reads back as the double. -/
theorem toFloat_exact (h : Double.unpack x = .finite .positive m e hm) :
  (exact x).toFloat = x
  := by
  apply toFloat_eq h (toRat_exact h)

/-- How many digits the exact value of a double may have. -/
theorem exact_digits_le (h : Double.unpack x = .finite .positive m e hm) :
  (exact x).digits ≤ 10 ^ 768
  := by
  have hlt := (Double.isParts h).lt.le
  have hbounds := (Double.isParts h).bounds
  rw [exact, Double.parts_eq h]
  simp only
  split
  next he =>
    rw [Nat.shiftLeft_eq]
    calc
      m * 2 ^ e.toNat ≤ 2 ^ 53 * 2 ^ 971 := by
        apply Nat.mul_le_mul hlt
        apply Nat.pow_le_pow_right (by norm_num)
        omega
      _ ≤ 10 ^ 768 := by decide +kernel
  next he =>
    calc
      m * 5 ^ e.natAbs ≤ 2 ^ 53 * 5 ^ 1074 := by
        apply Nat.mul_le_mul hlt
        apply Nat.pow_le_pow_right (by norm_num)
        omega
      _ ≤ 10 ^ 768 := by decide +kernel

/-! ### The candidates -/

/-- A candidate reads back as the double. -/
theorem toFloat_onGrid? (h : Double.unpack x = .finite .positive m e hm) {exponent : Int}
    {d : Decimal} (hd : onGrid? x exponent = some d) :
  d.toFloat = x
  := by
  apply Double.eq_of_beq h
  simp only [onGrid?] at hd
  split at hd
  next hbelow =>
    cases hd
    rw [Bool.and_eq_true] at hbelow
    apply hbelow.1
  next =>
    split at hd
    next habove =>
      cases hd
      apply habove
    next => cases hd

/-- The digits of a candidate are at most the whole number next above the double, in units of the grid. -/
theorem onGrid?_digits_le {exponent : Int} {d : Decimal} (hd : onGrid? x exponent = some d) :
  d.digits ≤ ((Double.value x).inPowersOfTen exponent).floor + 1
  := by
  simp only [onGrid?] at hd
  split at hd
  next =>
    cases hd
    apply Nat.le_succ
  next =>
    split at hd
    next =>
      cases hd
      apply le_rfl
    next => cases hd

/-- On the grid whose exponent is so many places below that of the leading digit, there are so
many digits after the first. -/
theorem floor_lt_pow (r : Ratio) (places : Nat) :
  (r.inPowersOfTen (r.log10 - places)).floor < 10 ^ (places + 1)
  := by
  have hlt := r.lt_log10
  have hexponent : r.log10 + 1 = (places + 1 : Nat) + (r.log10 - places) := by
    push_cast
    ring
  rw [hexponent, zpow_add₀ (by norm_num), zpow_natCast] at hlt
  rw [Ratio.floor_eq, Nat.floor_lt' (by positivity), Ratio.toRat_inPowersOfTen,
    div_lt_iff₀ (by positivity)]
  exact_mod_cast hlt

/-! ### The shortest decimal -/

/-- The shortest decimal is the normal form of a candidate or of the exact value. -/
theorem shortest_cases (x : Float) :
  (∃ places < 17, ∃ d, onGrid? x ((Double.value x).log10 - (places : Nat)) = some d ∧
    shortest x = d.normal) ∨ shortest x = (exact x).normal
  := by
  rw [shortest]
  cases hfind : (List.range 17).findSome? fun (places : Nat) =>
      onGrid? x ((Double.value x).log10 - places) with
  | none => exact .inr rfl
  | some d =>
    obtain ⟨places, hmem, hd⟩ := List.exists_of_findSome?_eq_some hfind
    exact .inl ⟨places, List.mem_range.mp hmem, d, hd, rfl⟩

/-- The shortest decimal is normal. -/
theorem isNormal_shortest (x : Float) :
  (shortest x).IsNormal
  := by
  apply isNormal_normal

/-- The shortest decimal of a positive finite double reads back as the double. -/
theorem toFloat_shortest (h : Double.unpack x = .finite .positive m e hm) :
  (shortest x).toFloat = x
  := by
  rcases shortest_cases x with ⟨places, -, d, hd, hshortest⟩ | hshortest
  · rw [hshortest, toFloat_eq_of_toRat_eq (toRat_normal d), toFloat_onGrid? h hd]
  · rw [hshortest, toFloat_eq_of_toRat_eq (toRat_normal (exact x)), toFloat_exact h]

/-- The shortest decimal of a positive finite double has few enough digits for all of them to be read. -/
theorem shortest_digits_le (h : Double.unpack x = .finite .positive m e hm) :
  (shortest x).digits ≤ 10 ^ 768
  := by
  rcases shortest_cases x with ⟨places, hplaces, d, hd, hshortest⟩ | hshortest
  · have hcandidate : d.digits ≤ 10 ^ (places + 1) :=
      (onGrid?_digits_le hd).trans (floor_lt_pow _ places)
    rw [hshortest]
    apply ((normal_digits_le d).trans hcandidate).trans
    apply Nat.pow_le_pow_right (by norm_num)
    omega
  · rw [hshortest]
    apply (normal_digits_le (exact x)).trans (exact_digits_le h)

end PocketLisp.Decimal
