import PocketLisp.Proofs.Value.Equality

/-!
# Maps as dictionaries

Equal keys are one key to a map.  After a key was bound to a value, this value is found under all
keys that are equal to it, and what is found under other keys has not changed.  A key stays where it
was first bound.  What comes from a row of pairs is therefore determined by the row alone: for each
class of equal keys the first of them in its place, with the value that comes last.

A key with not-a-number in it is equal to none, not even to itself.  It is never found, and goes to
the end each time it is bound.

The keys of the maps are built by insertions, so that equality is symmetric and transitive on them.
-/

namespace PocketLisp

open Value (Built HasNaN equal_symm equal_trans equal_self_iff)

namespace Value

variable {a k k' : Value}

/-- Equal keys are equal to the same keys. -/
theorem equal_congr_right (ha : Built a) (hk : Built k) (hk' : Built k') (h : equal k k') :
  equal a k = equal a k'
  := by
  rw [Bool.eq_iff_iff]
  constructor
  · intro hak
    apply equal_trans ha hk hk' hak h
  · intro hak'
    apply equal_trans ha hk' hk hak' (equal_symm hk hk' h)

/-- Nothing is equal to what has not-a-number in it. -/
theorem equal_eq_false_of_hasNaN (ha : Built a) (hk : Built k) (h : HasNaN k) :
  equal a k = false
  := by
  by_contra hequal
  rw [Bool.not_eq_false] at hequal
  apply (equal_self_iff hk).mp _ h
  apply equal_self_of_equal hk ha (equal_symm ha hk hequal)

end Value

namespace Entries

variable {entries : Entries} {key key' value : Value}

/-! ### Looking up and binding -/

/-- What is found after binding a key. -/
theorem get?_insert (hentries : ∀ entry ∈ entries, Built entry.1) (hkey : Built key)
    (hkey' : Built key') (value : Value) :
  get? (insert entries key value) key'
    = if key.equal key' then some value else get? entries key'
  := by
  induction entries with
  | nil => rw [insert, get?_cons]
  | cons entry entries ih =>
    obtain ⟨hentry, hentries⟩ := List.forall_mem_cons.mp hentries
    rw [insert]
    by_cases hequal : key.equal key'
    · have hsame := Value.equal_congr_right hentry hkey hkey' hequal
      rw [if_pos hequal]
      split
      next h => rw [get?_cons, ← hsame, if_pos h]
      next h => rw [get?_cons, ← hsame, if_neg h, ih hentries, if_pos hequal]
    · rw [if_neg hequal]
      split
      next h =>
        have hother : ¬ entry.1.equal key' := by
          intro h'
          apply hequal (equal_trans hkey hentry hkey' (equal_symm hentry hkey h) h')
        rw [get?_cons, get?_cons, if_neg hother, if_neg hother]
      next h => rw [get?_cons, get?_cons, ih hentries, if_neg hequal]

/-- After an insertion there are the keys that are equal to the inserted one, and those from before. -/
theorem contains_insert (hentries : ∀ entry ∈ entries, Built entry.1) (hkey : Built key)
    (hkey' : Built key') (value : Value) :
  contains (insert entries key value) key' = (key.equal key' || contains entries key')
  := by
  rw [contains, contains, get?_insert hentries hkey hkey']
  cases key.equal key' <;> rfl

/-- Under equal keys the same entry is found. -/
theorem find?_congr (hentries : ∀ entry ∈ entries, Built entry.1) (hkey : Built key)
    (hkey' : Built key') (h : key.equal key') :
  (entries.find? fun entry => entry.1.equal key) = entries.find? fun entry => entry.1.equal key'
  := by
  apply List.find?_congr
  intro entry hentry
  apply Value.equal_congr_right (hentries entry hentry) hkey hkey' h

/-- Binding a key changes the value of the equal key; if there is none, the pair goes to the end. -/
theorem insert_eq_map (hentries : ∀ entry ∈ entries, Built entry.1) (hunequal : KeysUnequal entries)
    (hkey : Built key) (value : Value) :
  insert entries key value
    = entries.map (fun entry => (entry.1, if entry.1.equal key then value else entry.2)) ++
      if contains entries key then [] else [(key, value)]
  := by
  induction entries with
  | nil => rfl
  | cons entry entries ih =>
    obtain ⟨hentry, hentries⟩ := List.forall_mem_cons.mp hentries
    obtain ⟨hfirst, hrest⟩ := List.pairwise_cons.mp hunequal
    rw [insert, contains_cons]
    by_cases h : entry.1.equal key
    · -- No key behind the equal one is equal as well.
      have hothers : ∀ later ∈ entries, later.1.equal key = false := by
        intro later hlater
        by_contra hequal
        rw [Bool.not_eq_false] at hequal
        have hlaterBuilt := hentries later hlater
        have hboth := equal_trans hentry hkey hlaterBuilt h (equal_symm hlaterBuilt hkey hequal)
        rw [hfirst later hlater] at hboth
        cases hboth
      have hmap : entries.map (fun entry => (entry.1, if entry.1.equal key then value else entry.2))
          = entries := by
        apply (List.map_congr_left _).trans (List.map_id entries)
        intro later hlater
        rw [hothers later hlater, if_neg Bool.false_ne_true]
        rfl
      simp [h, hmap]
    · simp [h, ih hentries hrest]

/-- A key with not-a-number in it is not found, and goes to the end. -/
theorem get?_and_insert_of_hasNaN (hentries : ∀ entry ∈ entries, Built entry.1) (hkey : Built key)
    (h : HasNaN key) (value : Value) :
  get? entries key = none ∧ insert entries key value = entries ++ [(key, value)]
  := by
  have hunequal : ∀ entry ∈ entries, entry.1.equal key = false := by
    intro entry hentry
    apply Value.equal_eq_false_of_hasNaN (hentries entry hentry) hkey h
  use get?_eq_none_iff.mpr hunequal
  apply insert_eq_append _ hunequal

/-! ### Collecting pairs -/

variable {pairs : List (Value × Value)}

/-- The pairs whose key is not equal to the key of one before. -/
def firsts : List (Value × Value) → List (Value × Value)
  | [] => []
  | pair :: pairs => pair :: (firsts pairs).filter fun later => !pair.1.equal later.1

/-- The value of the last pair whose key is equal to that of `pair`, or of `pair` itself if there is
none. -/
def lastValue (pairs : List (Value × Value)) (pair : Value × Value) : Value :=
  (get? pairs.reverse pair.1).getD pair.2

/-- A pair at the end is among the first with their keys if no key before it is equal to its own. -/
theorem firsts_concat (pairs : List (Value × Value)) (pair : Value × Value) :
  firsts (pairs ++ [pair]) = firsts pairs ++ if contains pairs pair.1 then [] else [pair]
  := by
  induction pairs with
  | nil => rfl
  | cons first pairs ih =>
    rw [List.cons_append, firsts, firsts, ih, List.filter_append, List.cons_append, contains_cons]
    cases contains pairs pair.1 <;> cases h : first.1.equal pair.1 <;> simp [h]

/-- The first pairs with their keys are in the order of all pairs. -/
theorem firsts_sublist (pairs : List (Value × Value)) :
  (firsts pairs).Sublist pairs
  := by
  induction pairs with
  | nil => apply List.Sublist.slnil
  | cons pair pairs ih =>
    rw [firsts]
    apply List.Sublist.cons_cons
    apply List.filter_sublist.trans ih

/-- To collect one more pair is to insert it last. -/
theorem ofList_concat (pairs : List (Value × Value)) (pair : Value × Value) :
  ofList (pairs ++ [pair]) = insert (ofList pairs) pair.1 pair.2
  := List.foldl_concat _ _ _ _

/-- The keys of collected entries are keys of the pairs. -/
theorem built_ofList (hpairs : ∀ pair ∈ pairs, Built pair.1) :
  ∀ entry ∈ ofList pairs, Built entry.1
  := by
  intro entry hentry
  apply (forall_ofList (Q := fun _ => True) (fun pair hpair => ⟨hpairs pair hpair, trivial⟩) entry
    hentry).1

/-- One more pair adds its own key. -/
theorem contains_concat (pairs : List (Value × Value)) (pair : Value × Value) (key : Value) :
  contains (pairs ++ [pair]) key = (contains pairs key || pair.1.equal key)
  := by
  induction pairs with
  | nil => rw [List.nil_append, contains_cons, contains_nil, Bool.or_comm]
  | cons first pairs ih => rw [List.cons_append, contains_cons, contains_cons, ih, Bool.or_assoc]

/-- The collected entries have the keys of the pairs. -/
theorem contains_ofList (hpairs : ∀ pair ∈ pairs, Built pair.1) (hkey : Built key) :
  contains (ofList pairs) key = contains pairs key
  := by
  induction pairs using List.reverseRecOn with
  | nil => rfl
  | append_singleton pairs pair ih =>
    obtain ⟨hpairs, hpair⟩ := List.forall_mem_append.mp hpairs
    have hpair := hpair pair (List.mem_singleton_self pair)
    rw [ofList_concat, contains_insert (built_ofList hpairs) hpair hkey, ih hpairs, contains_concat,
      Bool.or_comm]

/-- A last pair gives its value to the keys that are equal to its own. -/
theorem lastValue_concat (pairs : List (Value × Value)) (last pair : Value × Value) :
  lastValue (pairs ++ [last]) pair
    = if last.1.equal pair.1 then last.2 else lastValue pairs pair
  := by
  rw [lastValue, lastValue, List.reverse_append, List.reverse_singleton, List.singleton_append,
    get?_cons]
  split <;> rfl

/-- For each class of equal keys there is the first key in its place, with the last value. -/
theorem ofList_eq_map (hpairs : ∀ pair ∈ pairs, Built pair.1) :
  ofList pairs = (firsts pairs).map fun pair => (pair.1, lastValue pairs pair)
  := by
  induction pairs using List.reverseRecOn with
  | nil => rfl
  | append_singleton pairs last ih =>
    obtain ⟨hpairs, hlast⟩ := List.forall_mem_append.mp hpairs
    have hlast := hlast last (List.mem_singleton_self last)
    rw [ofList_concat, insert_eq_map (built_ofList hpairs) (keysUnequal_ofList pairs) hlast,
      contains_ofList hpairs hlast, ih hpairs, firsts_concat, List.map_append, List.map_map]
    congr 1
    · apply List.map_congr_left
      intro pair hpair
      have hbuilt := hpairs pair ((firsts_sublist pairs).mem hpair)
      rw [lastValue_concat, Value.equal_comm hlast hbuilt]
      rfl
    · cases hcontains : contains pairs last.1 with
      | true => rfl
      | false =>
        have hown : lastValue pairs last = last.2 := by
          rw [lastValue, get?_eq_none_iff.mpr]
          · rfl
          · simpa [contains_eq_false_iff] using hcontains
        rw [if_neg Bool.false_ne_true, List.map_singleton, lastValue_concat, hown, ite_self]

/-! ### The laws -/

/-- Binding a key gives the value found under it before, which is replaced in its place; a key that
is not found is added at the end.  Afterwards the value is found under the keys that are equal to
the one bound, and under all others what was found before. -/
theorem exchange_dictionary {pairs : List (Value × Value)} (hentries : Built (.map entries))
    (hkey : Built key) (hkey' : Built key') (value : Value)
    (hpairs : ∀ pair ∈ pairs, Built pair.1) :
  exchange entries key value = (get? entries key, insert entries key value) ∧
  get? (insert entries key value) key'
    = (if key.equal key' then some value else get? entries key') ∧
  (insert entries key value).length = entries.length + (get? entries key).isNone.toNat ∧
  insert entries key value
    = entries.map (fun entry => (entry.1, if entry.1.equal key then value else entry.2)) ++
      (if contains entries key then [] else [(key, value)]) ∧
  (key.equal key' → (entries.find? fun entry => entry.1.equal key)
    = entries.find? fun entry => entry.1.equal key') ∧
  contains entries key = (get? entries key).isSome ∧
  (HasNaN key → get? entries key = none ∧ insert entries key value = entries ++ [(key, value)]) ∧
  ofList pairs = (firsts pairs).map fun pair => (pair.1, lastValue pairs pair)
  := by
  have hkeys : ∀ entry ∈ entries, Built entry.1 := fun entry h => (hentries.of_mem_map h).1
  refine ⟨exchange_eq entries key value, get?_insert hkeys hkey hkey' value, ?_,
    insert_eq_map hkeys hentries.keysUnequal hkey value, find?_congr hkeys hkey hkey', rfl,
    fun h => get?_and_insert_of_hasNaN hkeys hkey h value, ofList_eq_map hpairs⟩
  rw [length_insert, contains, Option.not_isSome]

/-- Two maps that are equal as values are one key; not-a-number is none. -/
theorem exchange_dictionary_keyedByMap :
  ∃ key key' nan : Value, ∃ entries : Entries,
    entries = ofList [(key, .integer 1), (nan, .integer 2), (key', .integer 3), (nan, .integer 4)] ∧
    entries = [(key, .integer 3), (nan, .integer 2), (nan, .integer 4)] ∧
    (entries.find? fun entry => entry.1.equal key)
      = (entries.find? fun entry => entry.1.equal key') ∧
    get? (insert entries key .nil) key' = some .nil ∧
    insert entries nan .nil = entries ++ [(nan, .nil)]
  := by
  obtain ⟨key, hkey⟩ : ∃ key, key = Value.keyedByMap (.integer 1) (.float 0) := ⟨_, rfl⟩
  obtain ⟨key', hkey'⟩ : ∃ key', key' = Value.keyedByMap (.float 0) (.integer 1) := ⟨_, rfl⟩
  obtain ⟨nan, hnan⟩ : ∃ nan, nan = Value.float (0 / 0) := ⟨_, rfl⟩
  obtain ⟨pairs, hpairs⟩ : ∃ pairs, pairs = [(key, Value.integer 1), (nan, .integer 2),
    (key', .integer 3), (nan, .integer 4)] := ⟨_, rfl⟩
  have hbuiltKey : Built key :=
    hkey ▸ Value.built_keyedByMap (.other rfl) (.other rfl)
  have hbuiltKey' : Built key' :=
    hkey' ▸ Value.built_keyedByMap (.other rfl) (.other rfl)
  have hbuiltNan : Built nan := hnan ▸ .other rfl
  have hbuilt : ∀ pair ∈ pairs, Built pair.1 := by
    simp [hpairs, hbuiltKey, hbuiltKey', hbuiltNan]
  have hinteger (n : Int64) : Built (.integer n) := .other rfl
  have hvalues : ∀ pair ∈ pairs, Built pair.2 := by
    simp [hpairs, hinteger]
  have hequal : key.equal key' := by
    rw [hkey, hkey']
    decide +kernel
  have hhasNaN : HasNaN nan := by
    rw [hnan]
    apply HasNaN.float
    decide +kernel
  have hentries : Built (.map (ofList pairs)) := .map hbuilt hvalues
  obtain ⟨-, hget, -, -, hfind, -, -, hofList⟩ :=
    exchange_dictionary hentries hbuiltKey hbuiltKey' .nil hbuilt
  obtain ⟨-, -, -, -, -, -, hinsert, -⟩ :=
    exchange_dictionary hentries hbuiltNan hbuiltNan .nil hbuilt
  refine ⟨key, key', nan, ofList pairs, hpairs ▸ rfl, ?_, hfind hequal, ?_,
    (hinsert hhasNaN).2⟩
  · rw [hofList, hpairs, hkey, hkey', hnan]
    rfl
  · rw [hget, if_pos hequal]

end Entries

end PocketLisp
