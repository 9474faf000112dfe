import PocketLisp.Value.Equality

/-!
# Entries of a map

Keys need no order and no hash: an entry is found by comparing its key, and the first one that
is equal counts.  Entries keep the order in which their keys were first inserted.
-/

namespace PocketLisp

/-- The entries of a map in insertion order. -/
abbrev Entries := List (Value × Value)

namespace Entries

/-- The value of the first entry with an equal key. -/
def get? (entries : Entries) (key : Value) : Option Value :=
  (entries.find? fun entry => entry.1.equal key).map Prod.snd

/-- Whether there is an entry with an equal key. -/
def contains (entries : Entries) (key : Value) : Bool :=
  (get? entries key).isSome

/-- Binds a key to a value: the first entry with an equal key keeps its key and its place and
takes the value; if there is none, the pair goes to the end. -/
def insert : Entries → (key value : Value) → Entries
  | [], key, value => [(key, value)]
  | entry :: entries, key, value =>
    if entry.1.equal key then (entry.1, value) :: entries else entry :: insert entries key value

/-- Binds a key to a value as `insert` does, and gives the value to which an equal key was bound
before. -/
def exchange : Entries → (key value : Value) → Option Value × Entries
  | [], key, value => (none, [(key, value)])
  | entry :: entries, key, value =>
    if entry.1.equal key then (some entry.2, (entry.1, value) :: entries)
    else
      let (previous, entries) := exchange entries key value
      (previous, entry :: entries)

/-- The entries that come from inserting pairs one after the other. -/
def ofList (pairs : List (Value × Value)) : Entries :=
  pairs.foldl (fun entries pair => insert entries pair.1 pair.2) []

/-- Without entries there is no value for a key. -/
@[simp]
theorem get?_nil (key : Value) :
  get? [] key = none
  := rfl

/-- The first entry with an equal key decides. -/
theorem get?_cons (entry : Value × Value) (entries : Entries) (key : Value) :
  get? (entry :: entries) key = if entry.1.equal key then some entry.2 else get? entries key
  := by
  by_cases h : entry.1.equal key <;> simp [get?, h]

/-- There is no value for a key that no entry has. -/
theorem get?_eq_none_iff {entries : Entries} {key : Value} :
  get? entries key = none ↔ ∀ entry ∈ entries, entry.1.equal key = false
  := by
  simp [get?]

/-- Without entries there is no key. -/
@[simp]
theorem contains_nil (key : Value) :
  contains [] key = false
  := rfl

/-- The keys are the first and those of the other entries. -/
theorem contains_cons (entry : Value × Value) (entries : Entries) (key : Value) :
  contains (entry :: entries) key = (entry.1.equal key || contains entries key)
  := by
  by_cases h : entry.1.equal key <;> simp [contains, get?_cons, h]

/-- A key is missing if it is equal to none. -/
theorem contains_eq_false_iff {entries : Entries} {key : Value} :
  contains entries key = false ↔ ∀ entry ∈ entries, entry.1.equal key = false
  := by
  rw [contains, Option.isSome_eq_false_iff, Option.isNone_iff_eq_none, get?_eq_none_iff]

/-- What `exchange` gives beside the entries is what was found before. -/
theorem exchange_eq (entries : Entries) (key value : Value) :
  exchange entries key value = (get? entries key, insert entries key value)
  := by
  induction entries with
  | nil => rfl
  | cons entry entries ih =>
    by_cases h : entry.1.equal key <;> simp [exchange, insert, get?_cons, h, ih]

/-- Binding a key adds an entry exactly if the key was not found. -/
theorem length_insert (entries : Entries) (key value : Value) :
  (insert entries key value).length = entries.length + (!contains entries key).toNat
  := by
  induction entries with
  | nil => simp [insert, contains]
  | cons entry entries ih =>
    by_cases h : entry.1.equal key
    · simp [insert, contains_cons, h]
    · simp [insert, contains_cons, h, ih, Nat.add_right_comm]

end Entries

end PocketLisp
