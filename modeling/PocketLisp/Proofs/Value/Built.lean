import PocketLisp.Value.Entries

/-!
# Values built by insertion

The entries of a map come from insertions, so that no key of a map is equal to one before it.
This is the only way to come by a map; `Value.Built` says it of all maps in a value.  What is
in the body of a procedure is left out, for procedures are compared by identity.
-/

namespace PocketLisp

namespace Entries

/-- No key is equal to one before it. -/
def KeysUnequal (entries : Entries) : Prop :=
  entries.Pairwise fun entry later => entry.1.equal later.1 = false

/-- Of two entries whose keys are equal to each other only one can be there. -/
theorem KeysUnequal.eq_of_equal {entries : Entries} (h : KeysUnequal entries)
    {entry entry' : Value × Value} (hentry : entry ∈ entries) (hentry' : entry' ∈ entries)
    (hequal : entry.1.equal entry'.1) (hequal' : entry'.1.equal entry.1) :
  entry = entry'
  := by
  induction entries with
  | nil => cases hentry
  | cons first entries ih =>
    obtain ⟨hfirst, hrest⟩ := List.pairwise_cons.mp h
    rcases List.mem_cons.mp hentry with rfl | hmem
    · rcases List.mem_cons.mp hentry' with rfl | hmem'
      · rfl
      · rw [hfirst entry' hmem'] at hequal
        cases hequal
    · rcases List.mem_cons.mp hentry' with rfl | hmem'
      · rw [hfirst entry hmem] at hequal'
        cases hequal'
      · apply ih hrest hmem hmem'

/-- What holds of the keys and of the values that are there, and of those inserted, holds of the
keys and of the values afterwards. -/
theorem forall_insert {P Q : Value → Prop} {entries : Entries} {key value : Value}
    (hentries : ∀ entry ∈ entries, P entry.1 ∧ Q entry.2) (hkey : P key) (hvalue : Q value) :
  ∀ entry ∈ insert entries key value, P entry.1 ∧ Q entry.2
  := by
  induction entries with
  | nil =>
    intro entry h
    obtain rfl := List.mem_singleton.mp h
    exact ⟨hkey, hvalue⟩
  | cons first entries ih =>
    have hfirst := hentries first List.mem_cons_self
    have hrest := fun entry h => hentries entry (List.mem_cons_of_mem first h)
    rw [insert]
    split
    · intro entry h
      rcases List.mem_cons.mp h with rfl | h
      · exact ⟨hfirst.1, hvalue⟩
      · apply hrest entry h
    · intro entry h
      rcases List.mem_cons.mp h with rfl | h
      · apply hfirst
      · apply ih hrest entry h

/-- To insert a pair keeps keys unequal to those before them. -/
theorem KeysUnequal.insert {entries : Entries} (h : KeysUnequal entries) (key value : Value) :
  KeysUnequal (Entries.insert entries key value)
  := by
  induction entries with
  | nil => apply List.pairwise_singleton
  | cons first entries ih =>
    obtain ⟨hfirst, hrest⟩ := List.pairwise_cons.mp h
    rw [Entries.insert]
    split
    next => exact List.pairwise_cons.mpr ⟨hfirst, hrest⟩
    next hkey =>
      apply List.pairwise_cons.mpr
      constructor
      · intro entry hentry
        apply (forall_insert (P := fun k => first.1.equal k = false) (Q := fun _ => True)
          (fun e he => ⟨hfirst e he, trivial⟩) (by simpa using hkey) trivial entry hentry).1
      · apply ih hrest

/-- A key that is equal to none before it goes to the end. -/
theorem insert_eq_append {before : Entries} {key : Value} (value : Value)
    (h : ∀ entry ∈ before, entry.1.equal key = false) :
  insert before key value = before ++ [(key, value)]
  := by
  induction before with
  | nil => rfl
  | cons entry before ih =>
    obtain ⟨hentry, hbefore⟩ := List.forall_mem_cons.mp h
    rw [insert, hentry, if_neg Bool.false_ne_true, ih hbefore, List.cons_append]

/-- What no insertion changes holds of all that comes from insertions. -/
theorem ofList_induction {motive : Entries → Prop} {pairs : List (Value × Value)}
    (nil : motive [])
    (insert : ∀ entries pair, pair ∈ pairs → motive entries →
      motive (Entries.insert entries pair.1 pair.2)) :
  motive (ofList pairs)
  := by
  rw [ofList]
  apply List.foldlRecOn
  · apply nil
  · intro entries h pair hpair
    apply insert entries pair hpair h

/-- Entries collected from pairs have keys unequal to those before them. -/
theorem keysUnequal_ofList (pairs : List (Value × Value)) :
  KeysUnequal (ofList pairs)
  := by
  apply ofList_induction
  · apply List.Pairwise.nil
  · intro entries pair _ h
    apply h.insert

/-- To insert entries one after the other whose keys are unequal to all before them puts them at the end. -/
theorem KeysUnequal.foldl_insert {before entries : Entries}
    (h : KeysUnequal (before ++ entries)) :
  entries.foldl (fun entries pair => Entries.insert entries pair.1 pair.2) before
    = before ++ entries
  := by
  induction entries generalizing before with
  | nil =>
    rw [List.append_nil]
    rfl
  | cons entry entries ih =>
    have hkey : ∀ entry' ∈ before, entry'.1.equal entry.1 = false := by
      intro entry' hentry'
      apply (List.pairwise_append.mp h).2.2 entry' hentry' entry List.mem_cons_self
    rw [← List.singleton_append, ← List.append_assoc] at h ⊢
    rw [List.singleton_append, List.foldl_cons, insert_eq_append _ hkey]
    apply ih h

/-- Entries without equal keys come from inserting them one after the other. -/
theorem KeysUnequal.ofList_eq_self {entries : Entries} (h : KeysUnequal entries) :
  ofList entries = entries
  := @foldl_insert [] entries h

/-- What holds of all keys and of all values in the pairs holds of those in the entries collected
from them. -/
theorem forall_ofList {P Q : Value → Prop} {pairs : List (Value × Value)}
    (h : ∀ pair ∈ pairs, P pair.1 ∧ Q pair.2) :
  ∀ entry ∈ ofList pairs, P entry.1 ∧ Q entry.2
  := by
  apply ofList_induction (motive := fun entries => ∀ entry ∈ entries, P entry.1 ∧ Q entry.2)
  · intro entry hentry
    cases hentry
  · intro entries pair hpair ih
    apply forall_insert ih (h pair hpair).1 (h pair hpair).2

end Entries

namespace Value

/-- Whether a value is a list, a vector or a map. -/
def isCollection : Value → Bool
  | list _ | vector _ | map _ => true
  | _ => false

/-- Every map in the value comes from inserting pairs one after the other. -/
inductive Built : Value → Prop
  | list {items : List Value} (h : ∀ v ∈ items, Built v) : Built (.list items)
  | vector {items : List Value} (h : ∀ v ∈ items, Built v) : Built (.vector items)
  | map {pairs : List (Value × Value)} (hkeys : ∀ pair ∈ pairs, Built pair.1)
      (hvalues : ∀ pair ∈ pairs, Built pair.2) : Built (.map (Entries.ofList pairs))
  | other {v : Value} (h : v.isCollection = false) : Built v

namespace Built

/-- The maps in an item of a list come from insertions if those in the list do. -/
theorem of_mem_list {items : List Value} (h : Built (.list items)) {v : Value} (hv : v ∈ items) :
  Built v
  := by
  cases h with
  | list h => apply h v hv
  | other h => cases h

/-- The maps in an item of a vector come from insertions if those in the vector do. -/
theorem of_mem_vector {items : List Value} (h : Built (.vector items)) {v : Value}
    (hv : v ∈ items) :
  Built v
  := by
  cases h with
  | vector h => apply h v hv
  | other h => cases h

/-- The maps in a key or a value of a map come from insertions if those in the whole map do. -/
theorem of_mem_map {entries : Entries} (h : Built (.map entries)) {entry : Value × Value}
    (hentry : entry ∈ entries) :
  Built entry.1 ∧ Built entry.2
  := by
  cases h with
  | map hkeys hvalues =>
    apply Entries.forall_ofList _ entry hentry
    intro pair hpair
    exact ⟨hkeys pair hpair, hvalues pair hpair⟩
  | other h => cases h

/-- In a map that comes from insertions no key is equal to one before it. -/
theorem keysUnequal {entries : Entries} (h : Built (.map entries)) :
  Entries.KeysUnequal entries
  := by
  cases h with
  | map => apply Entries.keysUnequal_ofList
  | other h => cases h

end Built

end Value

end PocketLisp
