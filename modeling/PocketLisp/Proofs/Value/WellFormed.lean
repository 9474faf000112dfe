import PocketLisp.Proofs.Value.Equality
import PocketLisp.Proofs.Value.Part

/-!
# Well-formed values

In a well-formed value no key of a map is equal to one before it, and every procedure has distinct
parameters and captured a scope that there is.  This concerns all that occurs in the value, be it in
the body of a procedure; whether there is a scope depends on the number of scopes in the store.
-/

namespace PocketLisp.Value

/-- What has to hold of each value that occurs in a well-formed one. -/
def Sound (scopes : Nat) : Value → Prop
  | map entries => Entries.KeysUnequal entries
  | procedure p => p.params.Nodup ∧ p.scope.index < scopes
  | _ => True

/-- All maps and procedures in the value are sound in a store with a number of scopes. -/
def WellFormed (scopes : Nat) (v : Value) : Prop :=
  Every (Sound scopes) v

variable {m n : Nat} {v w : Value}

/-- Only maps and procedures can fail to be sound. -/
theorem sound_of_isPlain (n : Nat) (h : v.isPlain) :
  Sound n v
  := by
  cases v <;> trivial

/-- What is sound with some scopes is so with more. -/
theorem Sound.mono (hle : m ≤ n) (h : Sound m v) :
  Sound n v
  := by
  cases v with
  | map entries => apply h
  | procedure p => exact ⟨h.1, h.2.trans_le hle⟩
  | _ => trivial

namespace WellFormed

/-- A plain value with no parts is well formed. -/
theorem of_isPlain (hparts : v.parts = []) (h : v.isPlain) :
  WellFormed n v
  := (every_iff_of_parts_eq_nil hparts).mpr (sound_of_isPlain n h)

/-- What is well formed is built by insertions. -/
theorem built (h : WellFormed n v) :
  Built v
  := by
  induction v using partsInduction with
  | h v ih =>
    obtain ⟨hv, hparts⟩ := every_iff.mp h
    have hbuilt : ∀ u ∈ v.parts, Built u := fun u hu => ih u hu (hparts u hu)
    cases v with
    | list items => apply Built.list hbuilt
    | vector items => apply Built.vector hbuilt
    | map entries =>
      have hentries : Entries.ofList entries = entries := Entries.KeysUnequal.ofList_eq_self hv
      rw [← hentries]
      apply Built.map
      · intro entry hentry
        apply hbuilt _ (mem_parts_map hentry).1
      · intro entry hentry
        apply hbuilt _ (mem_parts_map hentry).2
    | _ => apply Built.other rfl

/-- No two keys of a map are equal, whichever comes first in the comparison. -/
theorem pairwise_unequal {entries : Entries} (h : WellFormed n (map entries)) :
  entries.Pairwise fun entry later =>
    entry.1.equal later.1 = false ∧ later.1.equal entry.1 = false
  := Value.pairwise_unequal (fun _ hentry => (h.built.of_mem_map hentry).1) h.self

end WellFormed

end PocketLisp.Value
