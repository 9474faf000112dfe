import PocketLisp.Proofs.Read.Induction
import PocketLisp.Proofs.Value.Built
import PocketLisp.Read.Reader

/-!
# Printed data reads back

The printed form of data reads back as the same data unless it is nested too deeply, and then the
error says so.  Reading a form is looked at with any text behind it that may follow, and at any
depth of nesting; the induction is on the value.  The items of a collection stand one after
the other in a `Row`, whether a list, a vector or a map is printed.
-/

namespace PocketLisp

namespace Value

/-! ### Data -/

/-- The names of symbols that read back: those of a token that is neither a number, nor a keyword,
nor a reserved word. -/
structure IsSymbolName (name : String) : Prop where
  nonempty : name.toList ≠ []
  chars : ∀ c ∈ name.toList, Read.isNameChar c
  not_keyword : name.toList.head? ≠ some ':'
  not_number : Read.startsNumber name.toList = false
  not_reserved : name ∉ ["nil", "true", "false"]

/-- The values whose printed form stands for them.  The keys of a map are all different. -/
inductive Printable : Value → Prop
  | integer (n : Int64) : Printable (.integer n)
  | float {x : Float} (h : x.isFinite) : Printable (.float x)
  | string (s : String) : Printable (.string s)
  | boolean (b : Bool) : Printable (.boolean b)
  | nil : Printable .nil
  | keyword {name : String} (h : ∀ c ∈ name.toList, Read.isNameChar c) : Printable (.keyword name)
  | symbol {name : String} (h : IsSymbolName name) : Printable (.symbol name)
  | list {items : List Value} (h : ∀ v ∈ items, Printable v) : Printable (.list items)
  | vector {items : List Value} (h : ∀ v ∈ items, Printable v) : Printable (.vector items)
  | map {entries : Entries} (hkeys : ∀ entry ∈ entries, Printable entry.1)
      (hvalues : ∀ entry ∈ entries, Printable entry.2) (h : Entries.KeysUnequal entries) :
    Printable (.map entries)

mutual

/-- How deeply collections are nested in a value. -/
def nesting : Value → Nat
  | list items => itemsNesting items + 1
  | vector items => itemsNesting items + 1
  | map entries => entriesNesting entries + 1
  | _ => 0

/-- How deeply collections are nested in the deepest of the elements. -/
def itemsNesting : List Value → Nat
  | [] => 0
  | item :: items => max (nesting item) (itemsNesting items)

/-- How deeply collections are nested in the deepest of the keys and values. -/
def entriesNesting : List (Value × Value) → Nat
  | [] => 0
  | (key, value) :: entries => max (nesting key) (max (nesting value) (entriesNesting entries))

end

end Value

namespace Read

open Value (Printable itemsNesting entriesNesting IsSymbolName)

/-! ### Reading with a text behind -/

/-- Reading yields a value and the text behind it, unless more nesting is needed than the limit
allows. -/
structure ReadsWithin {α : Type} (limit needed : Nat) (result : Result α) (value : α)
    (rest : List Char) : Prop where
  ok : needed ≤ limit → result = .ok (value, rest)
  too_deep : limit < needed →
    ∃ failure, result = .error failure ∧ failure.fault.kind = .tooDeeplyNested

namespace ReadsWithin

variable {α β : Type} {limit needed further : Nat} {result : Result α} {value : α}
  {rest rest' : List Char}

/-- A reading that is within the limit yields its result. -/
theorem of_ok (hle : needed ≤ limit) (h : result = .ok (value, rest)) :
  ReadsWithin limit needed result value rest
  := by
  constructor
  · intro _
    apply h
  · intro hlt
    cases Nat.not_lt_of_le hle hlt

/-- Two readings one after the other need as much nesting as the one that needs more. -/
theorem bind (h : ReadsWithin limit needed result value rest)
    {next : α × List Char → Result β} {value' : β}
    (hnext : ReadsWithin limit further (next (value, rest)) value' rest') :
  ReadsWithin limit (max needed further) (result.bind next) value' rest'
  := by
  constructor
  · intro hle
    obtain ⟨hneeded, hfurther⟩ := max_le_iff.mp hle
    rw [h.ok hneeded]
    apply hnext.ok hfurther
  · intro hlt
    by_cases hneeded : needed ≤ limit
    · rw [h.ok hneeded]
      apply hnext.too_deep
      apply (lt_max_iff.mp hlt).resolve_left (Nat.not_lt_of_le hneeded)
    · obtain ⟨failure, hfailure, hkind⟩ := h.too_deep (Nat.lt_of_not_le hneeded)
      rw [hfailure]
      use failure, rfl, hkind

end ReadsWithin

/-- Whether a form can begin with a character: it is not skipped, and it closes no collection. -/
def beginsForm (c : Char) : Bool :=
  !isSeparator c && c != ';' && !isClosing c

/-- The printed form of a value reads back, whatever follows it. -/
structure ReadsBack (v : Value) : Prop where
  begins : ∃ c tail, v.text.toList = c :: tail ∧ beginsForm c
  reads : ∀ {limit fuel depth : Nat} {rest : List Char}, depth ≤ limit → Follows rest →
    2 * (v.text.toList ++ rest).length + 1 ≤ fuel →
    ReadsWithin limit (depth + v.nesting) (formAt limit fuel depth (v.text.toList ++ rest)) v rest

/-! ### Values that are no collections -/

/-- What does not end a token begins a form that is no collection. -/
theorem beginsForm_of_endsToken {c : Char} (h : endsToken c = false) :
  beginsForm c ∧ Collection.ofOpening? c = none
  := by
  constructor
  · have hsemicolon : c ≠ ';' := ne_of_endsToken h rfl
    have hclosing := isClosing_eq_false (isDelimiter_eq_false h)
    simp only [endsToken, Bool.or_eq_false_iff] at h
    simp [beginsForm, h.1, hsemicolon, hclosing]
  · apply ofOpening?_eq_none (isDelimiter_eq_false h)

/-- The printed form of a value that is no collection reads back if it is read as an atom. -/
theorem readsBack_atom {v : Value} {c : Char} {tail : List Char} (hnesting : v.nesting = 0)
    (htext : v.text.toList = c :: tail) (hc : endsToken c = false ∨ c = '"')
    (hatom : ∀ rest, Follows rest → atom (v.text.toList ++ rest) = .ok (v, rest)) :
  ReadsBack v
  := by
  have hbegins : beginsForm c ∧ Collection.ofOpening? c = none := by
    rcases hc with hc | rfl
    · apply beginsForm_of_endsToken hc
    · exact ⟨rfl, rfl⟩
  constructor
  · use c, tail, htext, hbegins.1
  · intro limit fuel depth rest hdepth hrest hfuel
    obtain ⟨fuel, rfl⟩ := Nat.exists_eq_succ_of_ne_zero (Nat.ne_zero_of_lt hfuel)
    rw [hnesting]
    apply ReadsWithin.of_ok hdepth
    rw [← hatom rest hrest, htext, List.cons_append, formAt]
    simp only [hbegins.2]

/-- A word reads back if it is the word for the value. -/
theorem readsBack_word {v : Value} (hnesting : v.nesting = 0) (hne : v.text.toList ≠ [])
    (hchars : ∀ c ∈ v.text.toList, isNameChar c) (hnumber : startsNumber v.text.toList = false)
    (hvalue : wordValue v.text.toList = v) :
  ReadsBack v
  := by
  obtain ⟨c, tail, htext⟩ := List.exists_cons_of_ne_nil hne
  apply readsBack_atom hnesting htext
  · apply Or.inl (isNameChar_iff.mp (hchars c (htext ▸ List.mem_cons_self))).1
  · intro rest hrest
    rw [atom_word hne hchars hnumber hrest, hvalue]

/-- A number reads back if its text has the characters of numbers. -/
theorem readsBack_numeral {v : Value} (hnesting : v.nesting = 0)
    (h : Literal.IsNumeral v.text.toList)
    (hatom : ∀ rest, Follows rest → atom (v.text.toList ++ rest) = .ok (v, rest)) :
  ReadsBack v
  := by
  obtain ⟨c, tail, -, htext | htext⟩ := h.starts
  · apply readsBack_atom hnesting htext (.inl _) hatom
    apply endsToken_eq_false h c (htext ▸ List.mem_cons_self)
  · apply readsBack_atom hnesting htext (.inl rfl) hatom

/-- Integers read back. -/
theorem readsBack_integer (n : Int64) :
  ReadsBack (.integer n)
  := by
  have htext : (Value.integer n).text = toString n.toInt := by
    rw [Value.text]
  apply readsBack_numeral rfl
  · rw [htext]
    apply Literal.isNumeral_toString
  · intro rest hrest
    rw [htext]
    apply atom_integer n hrest

/-- Finite floats read back. -/
theorem readsBack_float {x : Float} (hx : x.isFinite) :
  ReadsBack (.float x)
  := by
  have htext : (Value.float x).text = FloatFormat.plain.write x := by
    rw [Value.text]
  apply readsBack_numeral rfl
  · rw [htext]
    apply FloatFormat.isNumeral_write hx
  · intro rest hrest
    rw [htext]
    apply atom_float hx hrest

/-- Strings read back. -/
theorem readsBack_string (s : String) :
  ReadsBack (.string s)
  := by
  have htext : (Value.string s).text = Text.quoted s := by
    rw [Value.text]
  apply readsBack_atom rfl
  · rw [htext, Text.toList_quoted, List.cons_append]
  · exact .inr rfl
  · intro rest _
    rw [htext]
    apply atom_string

/-- The name of a symbol is the word for the symbol. -/
theorem wordValue_symbol {name : String} (h : IsSymbolName name) :
  wordValue name.toList = .symbol name
  := by
  have hkeyword := h.not_keyword
  have hreserved := h.not_reserved
  unfold wordValue
  split
  next heq =>
    rw [heq] at hkeyword
    cases hkeyword rfl
  next =>
    rw [String.ofList_toList]
    split
    · cases hreserved (by decide)
    · cases hreserved (by decide)
    · cases hreserved (by decide)
    · rfl

/-- Booleans read back. -/
theorem readsBack_boolean (b : Bool) :
  ReadsBack (.boolean b)
  := by
  apply readsBack_word rfl
  · cases b <;> apply List.cons_ne_nil
  · cases b <;> exact List.all_eq_true.mp rfl
  · cases b <;> rfl
  · cases b <;> rfl

/-- Keywords read back. -/
theorem readsBack_keyword {name : String} (h : ∀ c ∈ name.toList, isNameChar c) :
  ReadsBack (.keyword name)
  := by
  have htext : (Value.keyword name).text.toList = ':' :: name.toList := by
    simp [Value.text]
  apply readsBack_word rfl
  · rw [htext]
    apply List.cons_ne_nil
  · intro c hc
    rw [htext] at hc
    rcases List.mem_cons.mp hc with rfl | hc
    · rfl
    · apply h c hc
  · rw [htext]
    apply startsNumber_cons <;> decide
  · rw [htext, wordValue, String.ofList_toList]

/-- The empty value reads back. -/
theorem readsBack_nil :
  ReadsBack .nil
  := by
  apply readsBack_word rfl
  · apply List.cons_ne_nil
  · exact List.all_eq_true.mp rfl
  · rfl
  · rfl

/-- Symbols read back. -/
theorem readsBack_symbol {name : String} (h : IsSymbolName name) :
  ReadsBack (.symbol name)
  := by
  have htext : (Value.symbol name).text = name := by
    rw [Value.text]
  apply readsBack_word rfl
  · rw [htext]
    apply h.nonempty
  · rw [htext]
    apply h.chars
  · rw [htext]
    apply h.not_number
  · rw [htext]
    apply wordValue_symbol h

/-! ### Rows of values -/

/-- A text in which values stand one after the other, with separators between them. -/
inductive Row : List Value → List Char → Prop
  | nil : Row [] []
  | cons {v : Value} {items : List Value} {gap text : List Char} (hgap : ∀ c ∈ gap, isSeparator c)
      (hfollows : Follows text) (h : Row items text) :
    Row (v :: items) (gap ++ v.text.toList ++ text)

/-- A row may begin with more separators. -/
theorem Row.append {items : List Value} {gap text : List Char} (hgap : ∀ c ∈ gap, isSeparator c)
    (hne : items ≠ []) (h : Row items text) :
  Row items (gap ++ text)
  := by
  cases h with
  | nil => contradiction
  | @cons v items gap' text hgap' hfollows h =>
    rw [List.append_assoc gap', ← List.append_assoc gap, ← List.append_assoc]
    apply Row.cons _ hfollows h
    intro c hc
    rcases List.mem_append.mp hc with hc | hc
    · apply hgap c hc
    · apply hgap' c hc

/-- Items are printed in a row. -/
theorem row_itemsText (items : List Value) :
  Row items (Value.itemsText items).toList
  := by
  have hspace : ∀ c ∈ [' '], isSeparator c := List.all_eq_true.mp rfl
  have hnil : ∀ c ∈ [], isSeparator c := List.forall_mem_nil _
  induction items with
  | nil => apply Row.nil
  | cons v items ih =>
    cases items with
    | nil =>
      have h := Row.cons (v := v) hnil follows_nil Row.nil
      simpa [Value.itemsText] using h
    | cons w items =>
      have h := Row.cons (v := v) hnil (follows_cons rfl _)
        (Row.append hspace (List.cons_ne_nil w items) ih)
      simpa [Value.itemsText] using h

/-- The forms of which a map literal consists: keys and values in turn. -/
def forms (entries : Entries) : List Value :=
  entries.flatMap fun entry => [entry.1, entry.2]

/-- Entries are printed in a row, keys and values in turn. -/
theorem row_entriesText (entries : Entries) :
  Row (forms entries) (Value.entriesText entries).toList
  := by
  have hspace : ∀ c ∈ [' '], isSeparator c := List.all_eq_true.mp rfl
  have hcomma : ∀ c ∈ [',', ' '], isSeparator c := List.all_eq_true.mp rfl
  have hnil : ∀ c ∈ [], isSeparator c := List.forall_mem_nil _
  induction entries with
  | nil => apply Row.nil
  | cons entry entries ih =>
    obtain ⟨key, value⟩ := entry
    cases entries with
    | nil =>
      have h := Row.cons (v := key) hnil (follows_cons rfl _)
        (Row.cons (v := value) hspace follows_nil Row.nil)
      simpa [Value.entriesText, forms] using h
    | cons entry' entries =>
      have h := Row.cons (v := key) hnil (follows_cons rfl _)
        (Row.cons (v := value) hspace (follows_cons rfl _)
          (Row.append hcomma (by simp [forms]) ih))
      simpa [Value.entriesText, forms] using h

/-- Keys and values are nested as the forms in the literal are. -/
theorem itemsNesting_forms (entries : Entries) :
  itemsNesting (forms entries) = entriesNesting entries
  := by
  induction entries with
  | nil => rfl
  | cons entry entries ih =>
    change max _ (max _ (itemsNesting (forms entries))) = _
    rw [ih, entriesNesting]

/-! ### Collections -/

/-- Separators before a text are skipped. -/
theorem skipAtmosphere_append {gap : List Char} (hgap : ∀ c ∈ gap, isSeparator c)
    (text : List Char) :
  skipAtmosphere (gap ++ text) = skipAtmosphere text
  := by
  induction gap with
  | nil => rfl
  | cons c gap ih =>
    obtain ⟨hc, hgap⟩ := List.forall_mem_cons.mp hgap
    rw [List.cons_append, skipAtmosphere, skipAtmosphereFrom, if_pos hc]
    apply ih hgap

/-- Where a form can begin there is nothing to be skipped. -/
theorem skipAtmosphere_cons {c : Char} (h : beginsForm c) (text : List Char) :
  skipAtmosphere (c :: text) = c :: text
  := by
  simp only [beginsForm, Bool.and_eq_true, Bool.not_eq_true', bne_iff_ne] at h
  apply skipAtmosphere_eq_self
  rintro _ ⟨⟩
  exact h.1

/-- A closing delimiter ends a token. -/
theorem endsToken_closing (collection : Collection) :
  endsToken collection.closing
  := by
  cases collection <;> rfl

/-- What can begin a form closes no collection. -/
theorem ne_closing {c : Char} (h : beginsForm c) (collection : Collection) :
  c ≠ collection.closing
  := by
  rintro rfl
  cases collection <;> cases h

/-- Before a closing delimiter a token ends. -/
theorem follows_append {text : List Char} (h : Follows text) (collection : Collection)
    (rest : List Char) :
  Follows (text ++ collection.closing :: rest)
  := by
  cases text with
  | nil => apply follows_cons (endsToken_closing collection)
  | cons c text => apply h

/-- At the closing delimiter the items are those before. -/
theorem itemsAt_closing (limit fuel depth : Nat) (collection : Collection) (start : List Char)
    (before : List Value) (rest : List Char) :
  itemsAt limit (fuel + 1) depth collection start before (collection.closing :: rest)
    = .ok (before.reverse, rest)
  := by
  apply itemsAt_of_closing
  cases collection <;> rfl

/-- Behind separators the next item is what reads back there. -/
theorem itemsAt_item {v : Value} (hv : ReadsBack v) {gap : List Char}
    (hgap : ∀ c ∈ gap, isSeparator c) (limit fuel depth : Nat) (collection : Collection)
    (start : List Char) (before : List Value) (rest : List Char) :
  itemsAt limit (fuel + 1) depth collection start before (gap ++ (v.text.toList ++ rest))
    = (formAt limit fuel depth (v.text.toList ++ rest)).bind fun result =>
        itemsAt limit fuel depth collection start (result.1 :: before) result.2
  := by
  obtain ⟨c, tail, htext, hc⟩ := hv.begins
  rw [htext, List.cons_append]
  apply itemsAt_of_item _ _ _ _ _ _ _ (ne_closing hc collection)
  rw [skipAtmosphere_append hgap, skipAtmosphere_cons hc]

/-- The items of a collection read back, one after the other. -/
theorem itemsAt_row {items : List Value} {text : List Char} (hrow : Row items text)
    (hitems : ∀ w ∈ items, ReadsBack w) {limit fuel depth : Nat} {collection : Collection}
    {start rest : List Char} {before : List Value} (hdepth : depth ≤ limit)
    (hfuel : 2 * (text ++ collection.closing :: rest).length + 2 ≤ fuel) :
  ReadsWithin limit (depth + itemsNesting items)
    (itemsAt limit fuel depth collection start before (text ++ collection.closing :: rest))
    (before.reverse ++ items) rest
  := by
  induction hrow generalizing fuel before with
  | nil =>
    obtain ⟨fuel, rfl⟩ := Nat.exists_eq_succ_of_ne_zero (Nat.ne_zero_of_lt hfuel)
    apply ReadsWithin.of_ok hdepth
    rw [List.nil_append, itemsAt_closing, List.append_nil]
  | @cons v items gap text hgap hfollows h ih =>
    obtain ⟨hv, hitems⟩ := List.forall_mem_cons.mp hitems
    obtain ⟨fuel, rfl⟩ := Nat.exists_eq_succ_of_ne_zero (Nat.ne_zero_of_lt hfuel)
    have hne : 0 < v.text.toList.length := by
      obtain ⟨c, tail, htext, -⟩ := hv.begins
      rw [htext]
      apply Nat.succ_pos
    simp only [List.length_append] at hfuel
    rw [itemsNesting, ← Nat.add_max_add_left, List.append_assoc, List.append_assoc,
      itemsAt_item hv hgap]
    have hread : ReadsWithin limit (depth + v.nesting)
        (formAt limit fuel depth (v.text.toList ++ (text ++ collection.closing :: rest))) v
        (text ++ collection.closing :: rest) := by
      apply hv.reads hdepth (follows_append hfollows collection rest)
      simp only [List.length_append]
      omega
    apply hread.bind
    rw [List.append_cons before.reverse, ← List.reverse_cons]
    apply ih hitems
    simp only [List.length_append]
    omega

/-- A collection is read within a limit if there is room for it and its items are read. -/
theorem readsWithin_collection {limit fuel depth : Nat} {collection : Collection}
    {text rest : List Char} {items : List Value} {v : Value}
    (hvalue : collection.value items = .ok v) (hnesting : v.nesting = itemsNesting items + 1)
    (hitems : depth < limit →
      ReadsWithin limit (depth + 1 + itemsNesting items)
        (itemsAt limit fuel (depth + 1) collection (collection.opening :: text) [] text) items rest) :
  ReadsWithin limit (depth + v.nesting)
    (formAt limit (fuel + 1) depth (collection.opening :: text)) v rest
  := by
  rw [hnesting, formAt_collection]
  split
  next hle =>
    constructor
    · intro hneeded
      omega
    · intro _
      exact ⟨_, rfl, rfl⟩
  next hlt =>
    rw [Nat.add_comm (itemsNesting items), ← Nat.add_assoc, ← Nat.max_zero (_ + _)]
    apply (hitems (Nat.lt_of_not_le hlt)).bind
    apply ReadsWithin.of_ok (Nat.zero_le limit)
    rw [hvalue]
    rfl

/-- A collection reads back if its items do. -/
theorem readsBack_collection {v : Value} {items : List Value} {text : List Char}
    (collection : Collection)
    (htext : v.text.toList = collection.opening :: text ++ [collection.closing])
    (hrow : Row items text) (hitems : ∀ w ∈ items, ReadsBack w)
    (hvalue : collection.value items = .ok v) (hnesting : v.nesting = itemsNesting items + 1) :
  ReadsBack v
  := by
  constructor
  · use collection.opening, text ++ [collection.closing], htext
    cases collection <;> rfl
  · intro limit fuel depth rest hdepth hrest hfuel
    obtain ⟨fuel, rfl⟩ := Nat.exists_eq_succ_of_ne_zero (Nat.ne_zero_of_lt hfuel)
    rw [htext, List.append_assoc, List.cons_append, List.singleton_append] at hfuel ⊢
    simp only [List.length_cons, List.length_append] at hfuel
    apply readsWithin_collection hvalue hnesting
    intro hlt
    apply itemsAt_row hrow hitems hlt
    simp only [List.length_append, List.length_cons]
    omega

/-! ### Maps -/

/-- No key of a map is a duplicate of one before it. -/
theorem mapEntries_forms {before entries : Entries}
    (h : Entries.KeysUnequal (before ++ entries)) :
  mapEntries before (forms entries) = .ok (before ++ entries)
  := by
  induction entries generalizing before with
  | nil =>
    rw [List.append_nil]
    rfl
  | cons entry entries ih =>
    have hkey : ∀ entry' ∈ before, entry'.1.equal entry.1 = false := by
      intro entry' hentry'
      apply (List.pairwise_append.mp h).2.2 entry' hentry' entry List.mem_cons_self
    rw [← List.singleton_append, ← List.append_assoc] at h ⊢
    change mapEntries before (entry.1 :: entry.2 :: forms entries) = _
    rw [mapEntries, Entries.contains_eq_false_iff.mpr hkey, if_neg Bool.false_ne_true,
      Entries.insert_eq_append _ hkey]
    apply ih h

/-- There are two forms to each entry of a map literal. -/
theorem length_forms (entries : Entries) :
  (forms entries).length = 2 * entries.length
  := by
  induction entries with
  | nil => rfl
  | cons entry entries ih =>
    change (forms entries).length + 1 + 1 = _
    rw [ih, List.length_cons]
    ring

/-- The forms of entries with unequal keys are a map literal for the map. -/
theorem mapOfItems_forms {entries : Entries} (h : Entries.KeysUnequal entries) :
  mapOfItems (forms entries) = .ok (.map entries)
  := by
  have hentries : mapEntries [] (forms entries) = .ok entries := mapEntries_forms h
  rw [mapOfItems, length_forms, if_pos (Nat.mul_mod_right 2 _), hentries]
  rfl

/-! ### The round trip -/

/-- What can be printed reads back. By induction on the value. -/
theorem readsBack {v : Value} (h : Printable v) :
  ReadsBack v
  := by
  induction h with
  | integer n => apply readsBack_integer
  | float h => apply readsBack_float h
  | string s => apply readsBack_string
  | boolean b => apply readsBack_boolean
  | nil => apply readsBack_nil
  | keyword h => apply readsBack_keyword h
  | symbol h => apply readsBack_symbol h
  | @list items h ih =>
    apply readsBack_collection .list _ (row_itemsText items) ih rfl rfl
    simp [Value.text, Collection.opening, Collection.closing]
  | @vector items h ih =>
    apply readsBack_collection .vector _ (row_itemsText items) ih rfl rfl
    simp [Value.text, Collection.opening, Collection.closing]
  | @map entries hkeys hvalues h ihkeys ihvalues =>
    apply readsBack_collection .map _ (row_entriesText entries) _ (mapOfItems_forms h)
    · rw [itemsNesting_forms, Value.nesting]
    · simp [Value.text, Collection.opening, Collection.closing]
    · intro w hw
      obtain ⟨entry, hentry, hw⟩ := List.mem_flatMap.mp hw
      rcases List.mem_pair.mp hw with rfl | rfl
      · apply ihkeys entry hentry
      · apply ihvalues entry hentry

/-- The printed form of a value is read as the value and nothing behind it. -/
theorem form_text {v : Value} (h : Printable v) (limit : Nat) :
  ReadsWithin limit v.nesting (form limit v.text.toList) v []
  := by
  have hread : ReadsWithin limit (0 + v.nesting) (form limit (v.text.toList ++ [])) v [] := by
    apply (readsBack h).reads (Nat.zero_le limit) follows_nil
    apply le_rfl
  rw [List.append_nil, Nat.zero_add] at hread
  apply hread

/-- Reading undoes printing, for data that is not nested too deeply; otherwise the error says that
it is. -/
theorem readOne_text {v : Value} (h : Printable v) :
  (v.nesting ≤ nestingLimit → Reader.readOne v.text = .ok v) ∧
  (nestingLimit < v.nesting →
    ∃ e, Reader.readOne v.text = .error e ∧ e.kind = .tooDeeplyNested)
  := by
  have hread := form_text h nestingLimit
  obtain ⟨c, tail, htext, hc⟩ := (readsBack h).begins
  have hskip : skipAtmosphere v.text.toList = c :: tail := by
    rw [htext, skipAtmosphere_cons hc]
  rw [htext] at hread
  constructor
  · intro hle
    simp only [Reader.readOne, Reader.next, Reader.ofSource, hskip, hread.ok hle]
    rfl
  · intro hlt
    obtain ⟨failure, hfailure, hkind⟩ := hread.too_deep hlt
    simp only [Reader.readOne, Reader.next, Reader.ofSource, hskip, hfailure]
    use Reader.locate v.text.toList failure, rfl, hkind

/-- A map from a keyword to a list and from a string to an empty vector. -/
def mixedMap : Value :=
  .map [(.keyword "k", .list [.float 0.1, .symbol "-"]), (.string "\"\n", .vector [])]

/-- The map can be printed. -/
theorem printable_mixedMap :
  Printable mixedMap
  := by
  have hsymbol : IsSymbolName "-" :=
    ⟨List.cons_ne_nil _ _, List.all_eq_true.mp rfl, by decide, rfl, by decide⟩
  apply Printable.map
  · intro entry hentry
    rcases List.mem_pair.mp hentry with rfl | rfl
    · apply Printable.keyword (List.all_eq_true.mp rfl)
    · apply Printable.string
  · intro entry hentry
    rcases List.mem_pair.mp hentry with rfl | rfl
    · apply Printable.list
      intro v hv
      rcases List.mem_pair.mp hv with rfl | rfl
      · apply Printable.float (by decide +kernel)
      · apply Printable.symbol hsymbol
    · apply Printable.vector
      intro v hv
      cases hv
  · apply List.pairwise_pair.mpr
    rfl

/-- Its printed form reads back. -/
theorem readOne_text_mixedMap :
  Printable mixedMap ∧ Reader.readOne mixedMap.text = .ok mixedMap
  := by
  use printable_mixedMap
  apply (readOne_text printable_mixedMap).1
  decide

end Read

end PocketLisp
