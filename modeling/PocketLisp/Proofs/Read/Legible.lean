import PocketLisp.Proofs.Read.Items
import PocketLisp.Proofs.Read.RoundTrip
import PocketLisp.Proofs.Value.WellFormed

/-!
# What is read can be printed and read again

A form that is read contains neither a callable nor not-a-number; its keywords and symbols have the
names that tokens can give them, a map literal with two equal keys is refused, and collections are
nested no deeper than the limit.  That is all that the printed form needs to read back as the same
form, but for characters and infinite floats, which are printed otherwise than they are written.

What has to be shown of a token is shown of its characters; a number comes in digits, which
not-a-number does not.  What has to be shown of a collection is shown of its parts, and these are
just the forms between its delimiters.
-/

namespace PocketLisp

namespace Value

/-- What holds of each value that occurs in one that was read.  A keyword is known by its colon,
and its name may be that of a number or of a reserved word. -/
def Legible : Value → Prop
  | integer _ | string _ | char _ | boolean _ | nil => True
  | float x => x.isNaN = false
  | symbol name => IsSymbolName name
  | keyword name => ∀ c ∈ name.toList, Read.isNameChar c
  | list _ | vector _ => True
  | map entries => Entries.KeysUnequal entries
  | procedure _ | primitive _ | specialForm _ | native _ => False

/-- All that occurs in the value is legible, and collections are nested in it only so deeply. -/
structure LegibleWithin (room : Nat) (v : Value) : Prop where
  every : Every Legible v
  nesting_le : v.nesting ≤ room

variable {room : Nat} {v : Value}

/-- Items are nested within a bound if each of them is. -/
theorem itemsNesting_le_iff {items : List Value} :
  itemsNesting items ≤ room ↔ ∀ v ∈ items, v.nesting ≤ room
  := by
  induction items with
  | nil => simp [itemsNesting]
  | cons v items ih => rw [itemsNesting, max_le_iff, ih, List.forall_mem_cons]

/-- What is legible is well formed, in whatever store. -/
theorem Legible.sound (h : Legible v) (scopes : Nat) :
  Sound scopes v
  := by
  cases v with
  | map entries => apply h
  | procedure p => cases h
  | _ => trivial

namespace LegibleWithin

/-- A legible value that is no collection is legible within any room. -/
theorem of_atom (h : Legible v) (hparts : v.parts = []) (hnesting : v.nesting = 0) :
  LegibleWithin room v
  := by
  use (every_iff_of_parts_eq_nil hparts).mpr h
  rw [hnesting]
  apply Nat.zero_le

/-- A collection takes up room for one more level than its parts. -/
theorem of_parts (h : Legible v) (hnesting : v.nesting = itemsNesting v.parts + 1)
    (hparts : ∀ u ∈ v.parts, LegibleWithin room u) :
  LegibleWithin (room + 1) v
  := by
  constructor
  · apply every_iff.mpr ⟨h, fun u hu => (hparts u hu).every⟩
  · rw [hnesting]
    apply Nat.succ_le_succ
    apply itemsNesting_le_iff.mpr fun u hu => (hparts u hu).nesting_le

end LegibleWithin

/-! ### What can be printed -/

/-- The parts of what can be printed can be printed. -/
theorem Printable.of_mem_parts {u : Value} (h : Printable v) (hu : u ∈ v.parts) :
  Printable u
  := by
  cases h with
  | list h => apply h u hu
  | vector h => apply h u hu
  | map hkeys hvalues =>
    obtain ⟨entry, hentry, hu⟩ := List.mem_flatMap.mp hu
    rcases List.mem_pair.mp hu with rfl | rfl
    · apply hkeys entry hentry
    · apply hvalues entry hentry
  | _ => cases hu

/-- What occurs in something that can be printed can be printed. -/
theorem Printable.of_occursIn {w : Value} (h : Printable v) (hw : w.OccursIn v) :
  Printable w
  := by
  induction hw with
  | self => apply h
  | part hu _ ih => apply ih (h.of_mem_parts hu)

/-- What is legible can be printed, unless a character or an infinite float occurs in it. -/
theorem printable_iff_of_legible (h : Every Legible v) :
  Printable v ↔ (∀ c, ¬ (char c).OccursIn v) ∧ ∀ x, (float x).OccursIn v → ¬ x.isInf
  := by
  constructor
  · intro hprintable
    constructor
    · intro c hc
      cases hprintable.of_occursIn hc
    · intro x hx
      cases hprintable.of_occursIn hx with
      | float hfinite => apply Bool.not_eq_true _ ▸ ((Double.isFinite_iff x).mp hfinite).2
  · rintro ⟨hchar, hfloat⟩
    induction v using partsInduction with
    | h v ih =>
      obtain ⟨hv, hparts⟩ := every_iff.mp h
      have hprintable : ∀ u ∈ v.parts, Printable u := by
        intro u hu
        apply ih u hu (hparts u hu)
        · intro c hc
          apply hchar c (.part hu hc)
        · intro x hx
          apply hfloat x (.part hu hx)
      cases v with
      | integer n => apply Printable.integer
      | float x =>
        have hinf : x.isInf = false := Bool.not_eq_true _ ▸ hfloat x .self
        apply Printable.float ((Double.isFinite_iff x).mpr ⟨hv, hinf⟩)
      | string s => apply Printable.string
      | char c => cases hchar c .self
      | boolean b => apply Printable.boolean
      | nil => apply Printable.nil
      | symbol name => apply Printable.symbol hv
      | keyword name => apply Printable.keyword hv
      | list items => apply Printable.list hprintable
      | vector items => apply Printable.vector hprintable
      | map entries =>
        apply Printable.map _ _ hv
        · intro entry hentry
          apply hprintable _ (mem_parts_map hentry).1
        · intro entry hentry
          apply hprintable _ (mem_parts_map hentry).2
      | procedure p => cases hv
      | primitive p => cases hv
      | specialForm form => cases hv
      | native n => cases hv

end Value

namespace Read

open Value

variable {room limit depth : Nat} {token : List Char} {v : Value}

/-! ### Tokens -/

/-- A token that begins like a number begins with a digit, or with a sign and a digit. -/
theorem startsNumber_cases (h : startsNumber token) :
  ∃ c rest, c.isDigit ∧ (token = c :: rest ∨ token = '+' :: c :: rest ∨ token = '-' :: c :: rest)
  := by
  unfold startsNumber at h
  split at h
  next c rest => exact ⟨c, rest, h, .inr (.inl rfl)⟩
  next c rest => exact ⟨c, rest, h, .inr (.inr rfl)⟩
  next c rest _ _ => exact ⟨c, rest, h, .inl rfl⟩
  next => cases h

/-- A float that is written in digits is a number; the name of not-a-number is a symbol. -/
theorem legibleWithin_of_numeralVerdict (hnumber : startsNumber token)
    (h : numeralVerdict token = .ok v) :
  LegibleWithin room v
  := by
  rw [numeralVerdict] at h
  split at h
  next =>
    cases h
    exact .of_atom trivial rfl rfl
  next =>
    split at h
    next x hx =>
      cases h
      obtain ⟨c, rest, hc, htoken⟩ := startsNumber_cases hnumber
      exact .of_atom (Literal.isNaN_of_float? hc htoken hx) rfl rfl
    next => cases h

/-- The value of a word is legible, since its characters can stand in a name. -/
theorem legibleWithin_wordValue (hne : token ≠ []) (hchars : ∀ c ∈ token, isNameChar c)
    (hnumber : startsNumber token = false) :
  LegibleWithin room (wordValue token)
  := by
  unfold wordValue
  split
  next name =>
    apply LegibleWithin.of_atom _ rfl rfl
    intro c hc
    rw [String.toList_ofList] at hc
    apply hchars c (List.mem_cons_of_mem _ hc)
  next hcolon =>
    split
    next => exact .of_atom trivial rfl rfl
    next => exact .of_atom trivial rfl rfl
    next => exact .of_atom trivial rfl rfl
    next hnil htrue hfalse =>
      have hsymbol : IsSymbolName (String.ofList token) := by
        have htext : (String.ofList token).toList = token := String.toList_ofList
        constructor
        · rwa [htext]
        · rwa [htext]
        · rw [htext]
          intro hhead
          obtain ⟨name, htoken⟩ := List.head?_eq_some_iff.mp hhead
          apply hcolon name htoken
        · rwa [htext]
        · simp only [List.mem_cons, List.not_mem_nil, or_false, not_or]
          exact ⟨hnil, htrue, hfalse⟩
      exact .of_atom hsymbol rfl rfl

/-- The value of a token is legible, if it has one. -/
theorem legibleWithin_of_tokenVerdict (hne : token ≠ [])
    (hchars : ∀ c ∈ token, endsToken c = false) (h : tokenVerdict token = .ok v) :
  LegibleWithin room v
  := by
  rw [tokenVerdict] at h
  split at h
  next hnumber => apply legibleWithin_of_numeralVerdict hnumber h
  next hnumber =>
    split at h
    next => cases h
    next =>
      rw [wordVerdict] at h
      split at h
      next => cases h
      next hfind =>
        cases h
        apply legibleWithin_wordValue hne _ (Bool.not_eq_true _ ▸ hnumber)
        intro c hc
        have hreserved := List.find?_eq_none.mp hfind c hc
        apply isNameChar_iff.mpr ⟨hchars c hc, Bool.not_eq_true _ ▸ hreserved⟩

/-- The value of a character literal is legible, if it has one. -/
theorem legibleWithin_of_charVerdict {first : Char} {tail : List Char}
    (h : charVerdict first tail = .ok v) :
  LegibleWithin room v
  := by
  unfold charVerdict at h
  split at h
  next =>
    cases h
    exact .of_atom trivial rfl rfl
  next => cases h
  next =>
    split at h
    next =>
      cases h
      exact .of_atom trivial rfl rfl
    next => cases h

/-! ### Collections -/

/-- The entries of a map literal are its forms, two by two.  A key that is equal to one before it
is refused, and so there is none in a map. -/
theorem forms_of_mapEntries {entries entries' : Entries} {items : List Value}
    (hkeys : Entries.KeysUnequal entries) (h : mapEntries entries items = .ok entries') :
  forms entries' = forms entries ++ items ∧ Entries.KeysUnequal entries'
  := by
  fun_induction mapEntries entries items with
  | case1 entries =>
    cases h
    use (List.append_nil _).symm, hkeys
  | case2 => cases h
  | case3 entries key value items hcontains ih =>
    obtain ⟨hforms, hkeys'⟩ := ih (hkeys.insert key value) h
    have hnew := Entries.contains_eq_false_iff.mp (Bool.not_eq_true _ ▸ hcontains)
    refine ⟨?_, hkeys'⟩
    rw [hforms, Entries.insert_eq_append _ hnew, forms, List.flatMap_append, List.append_assoc]
    rfl
  | case4 => cases h

/-- The items of a collection are its parts. -/
theorem parts_of_value {collection : Collection} {items : List Value}
    (h : collection.value items = .ok v) :
  v.parts = items ∧ Legible v ∧ v.nesting = itemsNesting v.parts + 1
  := by
  cases collection with
  | list =>
    cases h
    exact ⟨rfl, trivial, rfl⟩
  | vector =>
    cases h
    exact ⟨rfl, trivial, rfl⟩
  | map =>
    rw [Collection.value, mapOfItems] at h
    split at h
    next =>
      obtain ⟨entries, hentries, rfl⟩ := exists_of_map_eq_ok h
      obtain ⟨hforms, hkeys⟩ := forms_of_mapEntries .nil hentries
      refine ⟨hforms, hkeys, ?_⟩
      rw [nesting, ← itemsNesting_forms]
      rfl
    next => cases h

/-! ### The walk -/

/-- The form that a reading at a depth results in, if it does, is legible and has room within the
limit. -/
def FormLegible (limit depth : Nat) (result : Result Value) : Prop :=
  ∀ v rest, result = .ok (v, rest) → LegibleWithin (limit - depth) v

/-- The items that a reading at a depth results in are so if those before are. -/
def ItemsLegible (limit depth : Nat) (before : List Value) (result : Result (List Value)) : Prop :=
  (∀ v ∈ before, LegibleWithin (limit - depth) v) →
    ∀ items rest, result = .ok (items, rest) → ∀ v ∈ items, LegibleWithin (limit - depth) v

namespace FormLegible

/-- There is no form in a failure. -/
theorem of_error (failure : Failure) :
  FormLegible limit depth (.error failure)
  := nofun

/-- A verdict on what was read is to be legible. -/
theorem conclude {start rest : List Char} {verdict : Except ReadFault Value}
    (h : ∀ v, verdict = .ok v → LegibleWithin (limit - depth) v) :
  FormLegible limit depth (conclude start rest verdict)
  := by
  intro v rest' hv
  apply h v (conclude_eq_ok hv).1

/-- A string is legible. -/
theorem stringFrom (start read text : List Char) :
  FormLegible limit depth (stringFrom start read text)
  := by
  fun_induction Read.stringFrom start read text with
  | case1 => apply of_error
  | case2 =>
    rintro _ _ ⟨⟩
    exact .of_atom trivial rfl rfl
  | case3 => apply of_error
  | case4 _ _ _ _ _ ih => apply ih
  | case5 => apply of_error
  | case6 _ _ _ _ _ _ ih => apply ih

/-- A token is legible, if it is read. -/
theorem of_token {c : Char} (hc : endsToken c = false) (text : List Char) :
  FormLegible limit depth
    (Read.conclude (c :: text) (splitToken (c :: text)).2 (tokenVerdict (splitToken (c :: text)).1))
  := by
  apply conclude
  intro v
  apply legibleWithin_of_tokenVerdict
  · rw [splitToken_cons hc]
    apply List.cons_ne_nil
  · intro d
    apply endsToken_of_mem_splitToken

/-- A character is legible, if it is read. -/
theorem charAfter (start text : List Char) :
  FormLegible limit depth (charAfter start text)
  := by
  cases text with
  | nil => apply of_error
  | cons first text =>
    rw [charAfter_cons]
    apply conclude fun _ => legibleWithin_of_charVerdict

end FormLegible

/-- To be legible is closed under the rules of reading. -/
theorem closedUnderReading_legible (limit : Nat) :
  ClosedUnderReading limit (fun depth _ => FormLegible limit depth)
    (fun depth _ _ before _ => ItemsLegible limit depth before)
  where
  empty _ := .of_error _
  token hc _ text := .of_token hc text
  string _ _ := .stringFrom _ _ _
  character _ _ := .charAfter _ _
  stray _ _ _ := .of_error _
  tooDeep _ _ _ := .of_error _
  collection {depth} hdepth {collection text items} hitems := by
    cases items with
    | error failure => apply FormLegible.of_error
    | ok read =>
      apply FormLegible.conclude
      intro v hv
      obtain ⟨hparts, hlegible, hnesting⟩ := parts_of_value hv
      -- The items are read one level deeper, and there is a level left.
      have hroom : limit - depth = limit - (depth + 1) + 1 := by omega
      rw [hroom]
      apply LegibleWithin.of_parts hlegible hnesting
      rw [hparts]
      apply hitems nofun read.1 read.2 rfl
  unclosed _ _ _ _ _ _ := nofun
  closed _ _ _ before _ _ _ := by
    rintro hbefore _ _ ⟨⟩ v hv
    apply hbefore v (List.mem_reverse.mp hv)
  item {_ _ _ before _ _ _} _ _ {form} hform _ {next} hnext := by
    intro hbefore items rest hitems
    cases form with
    | error failure => cases hitems
    | ok read =>
      obtain ⟨v, rest'⟩ := read
      apply hnext v rest' rfl _ items rest hitems
      apply List.forall_mem_cons.mpr ⟨hform v rest' rfl, hbefore⟩

end Read

namespace Reader

open Value

variable {reader reader' : Reader} {v : Value}

/-- The forms of a reader are legible within its limit. -/
theorem legibleWithin_of_next (h : reader.next = (.ok (some v), reader')) :
  LegibleWithin reader.limit v
  := by
  obtain ⟨rest, hform⟩ := exists_form h
  have hread := (Read.closedUnderReading_legible reader.limit).form
    (Read.startsForm_skipAtmosphere reader.rest)
  apply hread v rest hform

/-- Every form that a reader gives is well formed, whatever scopes there are. -/
theorem wellFormed_of_next (h : reader.next = (.ok (some v), reader')) (scopes : Nat) :
  v.WellFormed scopes
  := (legibleWithin_of_next h).every.mono fun _ hw => hw.sound scopes

/-- Whatever a reader gives, wherever it stands, is legible and nested within the limit; and it can
be printed and read again, unless a character or an infinite float occurs in it. -/
theorem readOne_text_of_next (hlimit : reader.limit = Read.nestingLimit)
    (h : reader.next = (.ok (some v), reader')) :
  Every Legible v ∧ v.nesting ≤ Read.nestingLimit ∧
  ((∀ c, ¬ (char c).OccursIn v) → (∀ x, (float x).OccursIn v → ¬ x.isInf) →
    readOne v.text = .ok v)
  := by
  obtain ⟨hlegible, hnesting⟩ := legibleWithin_of_next h
  rw [hlimit] at hnesting
  refine ⟨hlegible, hnesting, ?_⟩
  intro hchar hfloat
  have hprintable := (printable_iff_of_legible hlegible).mpr ⟨hchar, hfloat⟩
  obtain ⟨c, tail, htext, hc⟩ := (Read.readsBack hprintable).begins
  have hform := (Read.form_text hprintable Read.nestingLimit).ok hnesting
  rw [← String.ofList_toList (s := v.text)]
  apply readOne_of_form _ hform
  rw [htext, Read.skipAtmosphere_cons hc]

/-- After a form that fails comes one that is read. -/
theorem readOne_text_of_next_mixedMap :
  ∃ start reader : Reader,
    start = ofSource "@ \x7b:k (0.1 -), \"\\\"\\n\" []\x7d" Read.nestingLimit ∧
    start.next.1.isOk = false ∧
    start.next.2.next = (.ok (some Read.mixedMap), reader) ∧
    readOne Read.mixedMap.text = .ok Read.mixedMap
  := by
  obtain ⟨start, hstart⟩ :
      ∃ start, start = ofSource "@ \x7b:k (0.1 -), \"\\\"\\n\" []\x7d" Read.nestingLimit :=
    ⟨_, rfl⟩
  have hfails : start.next.1.isOk = false := by
    rw [hstart]
    decide +kernel
  have hlimit : start.next.2.limit = Read.nestingLimit := by
    rw [hstart]
    decide +kernel
  have hrest : start.next.2.rest = ' ' :: Read.mixedMap.text.toList := by
    rw [hstart]
    decide +kernel
  obtain ⟨c, tail, htext, hc⟩ := (Read.readsBack Read.printable_mixedMap).begins
  have hskip : Read.skipAtmosphere start.next.2.rest = Read.mixedMap.text.toList := by
    rw [hrest, htext, ← List.singleton_append, Read.skipAtmosphere_append,
      Read.skipAtmosphere_cons hc]
    exact List.all_eq_true.mp rfl
  have hform : Read.form start.next.2.limit (Read.skipAtmosphere start.next.2.rest)
      = .ok (Read.mixedMap, []) := by
    rw [hlimit, hskip]
    apply (Read.form_text Read.printable_mixedMap Read.nestingLimit).ok (by decide)
  have hnext := next_of_form hform
  refine ⟨start, _, hstart, hfails, hnext, ?_⟩
  have hlegible := (legibleWithin_of_next hnext).every
  obtain ⟨hchar, hfloat⟩ := (printable_iff_of_legible hlegible).mp Read.printable_mixedMap
  apply (readOne_text_of_next hlimit hnext).2.2 hchar hfloat

end Reader

end PocketLisp
