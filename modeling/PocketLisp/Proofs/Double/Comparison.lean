import Mathlib

/-!
# Equality of doubles

Doubles compare equal as numbers: the two zeros are equal, not-a-number differs from everything
and also from itself, and any other double is equal to itself only.  Therefore equality is
symmetric and transitive, and it is reflexive except at not-a-number.
-/

namespace PocketLisp.Double

open Float.Model (UnpackedFloat)

/-- Whether an unpacked double is one of the two zeros. -/
def IsZero : UnpackedFloat → Prop
  | .zero _ => True
  | _ => False

/-- Unpacked doubles compare equal if both are zeros, or if they are the same and not not-a-number. -/
theorem beq_unpacked_iff (a b : UnpackedFloat) :
  a.beq b ↔ (IsZero a ∧ IsZero b) ∨ (a = b ∧ a ≠ .notANumber)
  := by
  cases a with
  | notANumber => simp [UnpackedFloat.beq, UnpackedFloat.compare, IsZero]
  | zero s =>
    cases b with
    | infinity t => cases t <;> simp [UnpackedFloat.beq, UnpackedFloat.compare, IsZero]
    | finite t => cases t <;> simp [UnpackedFloat.beq, UnpackedFloat.compare, IsZero]
    | _ => simp [UnpackedFloat.beq, UnpackedFloat.compare, IsZero]
  | infinity s =>
    cases b with
    | infinity t =>
      cases s <;> cases t <;> simp [UnpackedFloat.beq, UnpackedFloat.compare, IsZero, compare]
    | _ => cases s <;> simp [UnpackedFloat.beq, UnpackedFloat.compare, IsZero]
  | finite s m e hm =>
    cases b with
    | infinity t => cases t <;> simp [UnpackedFloat.beq, UnpackedFloat.compare, IsZero]
    | finite t n f hn =>
      cases s <;> cases t <;> simp [UnpackedFloat.beq, UnpackedFloat.compare, IsZero, and_comm]
    | _ => cases s <;> simp [UnpackedFloat.beq, UnpackedFloat.compare, IsZero]

/-- A double, taken apart. -/
def unpack (x : Float) : UnpackedFloat :=
  x.toModel.unpack

/-- So do doubles. -/
theorem beq_iff (x y : Float) :
  x == y ↔ (IsZero (unpack x) ∧ IsZero (unpack y)) ∨ (unpack x = unpack y ∧ unpack x ≠ .notANumber)
  := by
  apply beq_unpacked_iff

/-- Not-a-number is known by what it is taken apart into. -/
theorem isNaN_iff (x : Float) :
  x.isNaN ↔ unpack x = .notANumber
  := by
  change UnpackedFloat.isNaN (unpack x) ↔ _
  cases unpack x <;> simp [UnpackedFloat.isNaN]

/-- Equality of doubles is symmetric. -/
theorem beq_comm (x y : Float) :
  (x == y) = (y == x)
  := by
  rw [Bool.eq_iff_iff, beq_iff, beq_iff]
  constructor
  · rintro (⟨hx, hy⟩ | ⟨h, hne⟩)
    · exact .inl ⟨hy, hx⟩
    · exact .inr ⟨h.symm, h ▸ hne⟩
  · rintro (⟨hx, hy⟩ | ⟨h, hne⟩)
    · exact .inl ⟨hy, hx⟩
    · exact .inr ⟨h.symm, h ▸ hne⟩

/-- Equality of doubles is transitive. -/
theorem beq_trans {x y z : Float} (hxy : x == y) (hyz : y == z) :
  x == z
  := by
  rw [beq_iff] at hxy hyz ⊢
  rcases hxy with ⟨hx, hy⟩ | ⟨hxy, hx⟩
  · rcases hyz with ⟨_, hz⟩ | ⟨hyz, _⟩
    · exact .inl ⟨hx, hz⟩
    · exact .inl ⟨hx, hyz ▸ hy⟩
  · rw [hxy]
    apply hyz

/-- A double is equal to itself unless it is not-a-number. -/
theorem beq_self_iff (x : Float) :
  x == x ↔ x.isNaN = false
  := by
  rw [beq_iff, ← Bool.not_eq_true, isNaN_iff]
  constructor
  · rintro (⟨hx, _⟩ | ⟨_, hx⟩) hnan
    · rw [hnan] at hx
      apply hx
    · apply hx hnan
  · intro h
    exact .inr ⟨rfl, h⟩

end PocketLisp.Double
