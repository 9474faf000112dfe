import PocketLisp.Proofs.Read.Token

/-!
# Induction along a reading

Reading what is no string ends in a verdict on the characters that were read; the verdict does not
depend on the text behind them.  What is left of a text after a form is a part of its end, and so
is the text from the place of a fault on.  A form that begins with neither a separator nor a
comment takes at least one character, so that the fuel of a reading lasts.

`ClosedUnderReading` says of two predicates, one on the results of reading a form and one on those
of reading the items of a collection, that they are closed under the rules by which forms and
items are read.  Such predicates hold of all readings; the fuel does not occur in the rules.
-/

namespace PocketLisp.Read

/-! ### Verdicts -/

/-- The result of a reading that began at `start` and has come to `rest`, with a verdict on what it
read. -/
def conclude (start rest : List Char) : Except ReadFault Value → Result Value
  | .ok v => .ok (v, rest)
  | .error fault => .error ⟨fault, start⟩

/-- A reading that ends in a verdict succeeds if the verdict does. -/
theorem conclude_eq_ok {start rest rest' : List Char} {verdict : Except ReadFault Value} {v : Value}
    (h : conclude start rest verdict = .ok (v, rest')) :
  verdict = .ok v ∧ rest = rest'
  := by
  cases verdict with
  | ok w =>
    cases h
    exact ⟨rfl, rfl⟩
  | error fault => cases h

/-- What a token stands for that begins like a number. -/
def numeralVerdict (token : List Char) : Except ReadFault Value :=
  match Literal.integer? token with
  | .ok n => .ok (.integer n)
  | .error _ =>
    match Literal.float? token with
    | .ok x => .ok (.float x)
    | .error _ => .error (.invalidNumber (String.ofList token))

/-- What a token stands for that does not begin like a number. -/
def wordVerdict (token : List Char) : Except ReadFault Value :=
  match token.find? isReserved with
  | some c => .error (.invalidConstituent c (String.ofList token))
  | none => .ok (wordValue token)

/-- What a token stands for. -/
def tokenVerdict (token : List Char) : Except ReadFault Value :=
  if startsNumber token then numeralVerdict token
  else
    match token.head?.filter isReserved with
    | some c => .error (.invalidLeading c)
    | none => wordVerdict token

/-- What a character stands for after a backslash, with the characters behind it up to the end of
a token. -/
def charVerdict (first : Char) (tail : List Char) : Except ReadFault Value :=
  match tail, tail.find? isReserved with
  | [], _ => .ok (.char first)
  | _, some c => .error (.invalidConstituent c (String.ofList (first :: tail)))
  | _, none =>
    match namedChar? (String.ofList (first :: tail)) with
    | some c => .ok (.char c)
    | none => .error (.unsupportedCharacter (String.ofList (first :: tail)))

/-! ### The parts of a text -/

/-- A token goes up to the first character that ends one. -/
theorem splitToken_eq_takeWhile (text : List Char) :
  splitToken text = (text.takeWhile fun c => !endsToken c, text.dropWhile fun c => !endsToken c)
  := List.span_eq_takeWhile_dropWhile _ _

/-- A token and what is behind it are the text. -/
theorem splitToken_append (text : List Char) :
  (splitToken text).1 ++ (splitToken text).2 = text
  := by
  rw [splitToken_eq_takeWhile]
  apply List.takeWhile_append_dropWhile

/-- In a token there is no character that ends one. -/
theorem endsToken_of_mem_splitToken {text : List Char} {c : Char} (h : c ∈ (splitToken text).1) :
  endsToken c = false
  := by
  rw [splitToken_eq_takeWhile] at h
  simpa using List.mem_takeWhile_imp h

/-- Behind a token is the end of the text, or a character that ends a token. -/
theorem follows_splitToken (text : List Char) :
  Follows (splitToken text).2
  := by
  intro c hc
  rw [splitToken_eq_takeWhile] at hc
  have hhead := List.head?_dropWhile_not (fun c => !endsToken c) text
  rw [Option.mem_def.mp hc] at hhead
  simpa using hhead

/-- What is behind a token is a part of the end of the text. -/
theorem splitToken_suffix (text : List Char) :
  (splitToken text).2 <:+ text
  := ⟨_, splitToken_append text⟩

/-- A token has its first character. -/
theorem splitToken_cons {c : Char} (h : endsToken c = false) (text : List Char) :
  splitToken (c :: text) = (c :: (splitToken text).1, (splitToken text).2)
  := by
  simp [splitToken_eq_takeWhile, h]

/-- Whether a number begins is seen from the token. -/
theorem startsNumber_splitToken (text : List Char) :
  startsNumber (splitToken text).1 = startsNumber text
  := by
  rw [← startsNumber_append_of_follows (splitToken text).1 (follows_splitToken text),
    splitToken_append]

/-! ### Forms that are no collections -/

/-- To read a number is to read a token and to give a verdict on it. -/
theorem number_eq_conclude (text : List Char) :
  number text = conclude text (splitToken text).2 (numeralVerdict (splitToken text).1)
  := by
  rw [number, numeralVerdict]
  obtain ⟨token, rest⟩ := splitToken text
  simp only
  cases Literal.integer? token with
  | ok n => rfl
  | error _ => cases Literal.float? token <;> rfl

/-- To read a word is to read a token and to give a verdict on it. -/
theorem word_eq_conclude (text : List Char) :
  word text = conclude text (splitToken text).2 (wordVerdict (splitToken text).1)
  := by
  rw [word, wordVerdict]
  obtain ⟨token, rest⟩ := splitToken text
  simp only
  cases token.find? isReserved <;> rfl

/-- To read a character is to read what it begins with up to the end of a token, and to give a
verdict on that. -/
theorem charAfter_cons (start : List Char) (first : Char) (text : List Char) :
  charAfter start (first :: text)
    = conclude start (splitToken text).2 (charVerdict first (splitToken text).1)
  := by
  rw [charAfter, charVerdict.eq_def]
  obtain ⟨tail, rest⟩ := splitToken text
  cases tail with
  | nil => rfl
  | cons c tail =>
    simp only
    cases (c :: tail).find? isReserved with
    | some _ => rfl
    | none => cases namedChar? (String.ofList (first :: c :: tail)) <;> rfl

/-- What begins with a quote is a string. -/
theorem atom_quote (text : List Char) :
  atom ('"' :: text) = stringFrom ('"' :: text) [] text
  := rfl

/-- What begins with a backslash is a character. -/
theorem atom_backslash (text : List Char) :
  atom ('\\' :: text) = charAfter ('\\' :: text) text
  := rfl

/-- A closing delimiter opens nothing that it could close. -/
theorem atom_closing (collection : Collection) (text : List Char) :
  atom (collection.closing :: text)
    = .error ⟨.unmatchedDelimiter collection.closing, collection.closing :: text⟩
  := by
  cases collection <;> rfl

/-- What begins with no delimiter is a token, whether it is a number or a word. -/
theorem atom_token {c : Char} (h : endsToken c = false) (text : List Char) :
  atom (c :: text)
    = conclude (c :: text) (splitToken (c :: text)).2 (tokenVerdict (splitToken (c :: text)).1)
  := by
  rw [tokenVerdict, startsNumber_splitToken, atom.eq_def]
  split
  · apply number_eq_conclude
  · split
    next heq => cases heq
    next heq => cases ne_of_endsToken h (d := '"') rfl (List.cons.inj heq).1
    next heq => cases ne_of_endsToken h (d := '\\') rfl (List.cons.inj heq).1
    next heq =>
      obtain ⟨rfl, -⟩ := List.cons.inj heq
      rw [isClosing_eq_false (isDelimiter_eq_false h), if_neg Bool.false_ne_true,
        word_eq_conclude, splitToken_cons h]
      cases hreserved : isReserved c <;> simp [hreserved, Option.filter, conclude]

/-! ### The first character of a form -/

/-- Whether a text begins neither with a separator nor with a comment.  So does every text that
comes after separators and comments. -/
def StartsForm (text : List Char) : Prop :=
  ∀ c ∈ text.head?, isSeparator c = false ∧ c ≠ ';'

/-- A delimiter is a semicolon, a quote, a backslash, or one of a collection. -/
theorem delimiter_cases (c : Char) :
  isDelimiter c = false ∨ c = ';' ∨ c = '"' ∨ c = '\\' ∨
    (∃ collection : Collection, c = collection.closing) ∨
    ∃ collection : Collection, c = collection.opening
  := by
  cases h : isDelimiter c with
  | false => exact .inl rfl
  | true =>
    right
    simp only [isDelimiter, List.contains_eq_mem, List.mem_cons, List.not_mem_nil, or_false,
      decide_eq_true_eq] at h
    rcases h with rfl | rfl | rfl | rfl | rfl | rfl | rfl | rfl | rfl
    · exact .inr (.inl rfl)
    · exact .inl rfl
    · exact .inr (.inr (.inr (.inr ⟨.list, rfl⟩)))
    · exact .inr (.inr (.inr (.inl ⟨.list, rfl⟩)))
    · exact .inr (.inr (.inr (.inr ⟨.vector, rfl⟩)))
    · exact .inr (.inr (.inr (.inl ⟨.vector, rfl⟩)))
    · exact .inr (.inr (.inr (.inr ⟨.map, rfl⟩)))
    · exact .inr (.inr (.inr (.inl ⟨.map, rfl⟩)))
    · exact .inr (.inr (.inl rfl))

/-- The first character says what a form is. -/
theorem StartsForm.cases {c : Char} {text : List Char} (h : StartsForm (c :: text)) :
  endsToken c = false ∨ c = '"' ∨ c = '\\' ∨
    (∃ collection : Collection, c = collection.closing) ∨
    ∃ collection : Collection, c = collection.opening
  := by
  obtain ⟨hseparator, hsemicolon⟩ := h c rfl
  rcases delimiter_cases c with hdelimiter | rfl | hform
  · left
    rw [endsToken, hseparator, hdelimiter]
    rfl
  · contradiction
  · exact .inr hform

/-- What is behind separators and comments is a part of the end of the text, also from inside a comment. -/
theorem skipAtmosphereFrom_suffix (inComment : Bool) (text : List Char) :
  skipAtmosphereFrom inComment text <:+ text
  := by
  fun_induction skipAtmosphereFrom inComment text with
  | case1 => apply List.suffix_rfl
  | case2 c text ih => apply ih.trans (List.suffix_cons _ _)
  | case3 c text hc ih => apply ih.trans (List.suffix_cons _ _)
  | case4 text hc ih => apply ih.trans (List.suffix_cons _ _)
  | case5 => apply List.suffix_rfl

/-- What is behind separators and comments is a part of the end of the text. -/
theorem skipAtmosphere_suffix (text : List Char) :
  skipAtmosphere text <:+ text
  := skipAtmosphereFrom_suffix false text

/-- Behind separators and comments a form begins, also from inside a comment. -/
theorem startsForm_skipAtmosphereFrom (inComment : Bool) (text : List Char) :
  StartsForm (skipAtmosphereFrom inComment text)
  := by
  fun_induction skipAtmosphereFrom inComment text with
  | case1 => rintro c ⟨⟩
  | case2 c text ih => apply ih
  | case3 c text hc ih => apply ih
  | case4 text hc ih => apply ih
  | case5 c text hseparator hsemicolon =>
    rintro _ ⟨⟩
    exact ⟨Bool.eq_false_of_not_eq_true hseparator, hsemicolon⟩

/-- Behind separators and comments a form begins. -/
theorem startsForm_skipAtmosphere (text : List Char) :
  StartsForm (skipAtmosphere text)
  := startsForm_skipAtmosphereFrom false text

/-- Where a form begins there is nothing to be skipped. -/
theorem skipAtmosphere_eq_self {text : List Char} (h : StartsForm text) :
  skipAtmosphere text = text
  := by
  cases text with
  | nil => rfl
  | cons c text =>
    obtain ⟨hseparator, hsemicolon⟩ := h c rfl
    rw [skipAtmosphere, skipAtmosphereFrom, hseparator, if_neg Bool.false_ne_true,
      if_neg hsemicolon]

/-! ### Forms and items -/

/-- The opening delimiter of a collection opens it. -/
theorem ofOpening?_opening (collection : Collection) :
  Collection.ofOpening? collection.opening = some collection
  := by
  cases collection <;> rfl

/-- What is no delimiter opens no collection. -/
theorem ofOpening?_eq_none {c : Char} (h : isDelimiter c = false) :
  Collection.ofOpening? c = none
  := by
  unfold Collection.ofOpening?
  split
  · cases h
  · cases h
  · cases h
  · rfl

/-- What opens no collection is read alike at all depths and under all limits. -/
theorem formAt_atom {c : Char} (h : Collection.ofOpening? c = none) (limit fuel depth : Nat)
    (text : List Char) :
  formAt limit (fuel + 1) depth (c :: text) = atom (c :: text)
  := by
  rw [formAt]
  simp only [h]

/-- A token is read alike at all depths and under all limits. -/
theorem formAt_token {c : Char} (h : endsToken c = false) (limit fuel depth : Nat)
    (text : List Char) :
  formAt limit (fuel + 1) depth (c :: text)
    = conclude (c :: text) (splitToken (c :: text)).2 (tokenVerdict (splitToken (c :: text)).1)
  := by
  rw [formAt_atom (ofOpening?_eq_none (isDelimiter_eq_false h)), atom_token h]

/-- So is a string. -/
theorem formAt_quote (limit fuel depth : Nat) (text : List Char) :
  formAt limit (fuel + 1) depth ('"' :: text) = stringFrom ('"' :: text) [] text
  := by
  rw [formAt_atom rfl, atom_quote]

/-- So is a character. -/
theorem formAt_backslash (limit fuel depth : Nat) (text : List Char) :
  formAt limit (fuel + 1) depth ('\\' :: text) = charAfter ('\\' :: text) text
  := by
  rw [formAt_atom rfl, atom_backslash]

/-- So is a closing delimiter, which is a fault. -/
theorem formAt_closing (limit fuel depth : Nat) (collection : Collection) (text : List Char) :
  formAt limit (fuel + 1) depth (collection.closing :: text)
    = .error ⟨.unmatchedDelimiter collection.closing, collection.closing :: text⟩
  := by
  have hopening : Collection.ofOpening? collection.closing = none := by
    cases collection <;> rfl
  rw [formAt_atom hopening, atom_closing]

/-- A collection is a fault at the limit; below it the collection is what becomes of its items. -/
theorem formAt_collection (limit fuel depth : Nat) (collection : Collection) (text : List Char) :
  formAt limit (fuel + 1) depth (collection.opening :: text)
    = if limit ≤ depth then
        .error ⟨.tooDeeplyNested collection.opening limit, collection.opening :: text⟩
      else
        (itemsAt limit fuel (depth + 1) collection (collection.opening :: text) [] text).bind
          fun read => conclude (collection.opening :: text) read.2 (collection.value read.1)
  := by
  rw [formAt]
  simp only [ofOpening?_opening]
  cases itemsAt limit fuel (depth + 1) collection (collection.opening :: text) [] text with
  | error failure => rfl
  | ok read =>
    obtain ⟨items, rest⟩ := read
    simp only [Except.bind]
    cases collection.value items <;> rfl

section
variable {text : List Char} (limit fuel depth : Nat) (collection : Collection)
  (start : List Char) (before : List Value)

/-- At the end of the text the closing delimiter is missing. -/
theorem itemsAt_of_end (h : skipAtmosphere text = []) :
  itemsAt limit (fuel + 1) depth collection start before text
    = .error ⟨.missingDelimiter collection.opening collection.closing, start⟩
  := by
  rw [itemsAt]
  simp only [h]

/-- The items of a collection end with its closing delimiter. -/
theorem itemsAt_of_closing {rest : List Char}
    (h : skipAtmosphere text = collection.closing :: rest) :
  itemsAt limit (fuel + 1) depth collection start before text = .ok (before.reverse, rest)
  := by
  rw [itemsAt]
  simp only [h, if_true]

/-- Before the closing delimiter stands an item, and more of them behind it. -/
theorem itemsAt_of_item {c : Char} {rest : List Char} (h : skipAtmosphere text = c :: rest)
    (hc : c ≠ collection.closing) :
  itemsAt limit (fuel + 1) depth collection start before text
    = (formAt limit fuel depth (c :: rest)).bind fun read =>
        itemsAt limit fuel depth collection start (read.1 :: before) read.2
  := by
  rw [itemsAt]
  simp only [h, if_neg hc]
  cases formAt limit fuel depth (c :: rest) <;> rfl

end

/-! ### What is left -/

/-- What is left behind a form is a part of the end of `text`, and the place of a fault is one in
the text from `start` on. -/
structure Leaves {α : Type} (start text : List Char) (result : Result α) : Prop where
  ok : ∀ {a : α} {rest : List Char}, result = .ok (a, rest) → rest <:+ text
  error : ∀ {failure : Failure}, result = .error failure → failure.rest <:+ start

namespace Leaves

variable {α β : Type} {start text rest : List Char}

/-- What leaves a part of the end of the text has not failed. -/
theorem of_ok (a : α) (h : rest <:+ text) :
  Leaves start text (.ok (a, rest))
  := by
  constructor
  · rintro _ _ ⟨⟩
    apply h
  · rintro _ ⟨⟩

/-- What has failed at a place in the text leaves nothing. -/
theorem of_error (fault : ReadFault) (h : rest <:+ start) :
  Leaves start text (.error ⟨fault, rest⟩ : Result α)
  := by
  constructor
  · rintro _ _ ⟨⟩
  · rintro _ ⟨⟩
    apply h

/-- A verdict is given on what was read, with a fault at the beginning of it. -/
theorem conclude (verdict : Except ReadFault Value) (h : rest <:+ text) :
  Leaves start text (conclude start rest verdict)
  := by
  cases verdict with
  | ok v => apply of_ok v h
  | error fault => apply of_error fault List.suffix_rfl

/-- A reading goes on with what is left. -/
theorem bind {result : Result α} {next : α × List Char → Result β} (h : Leaves start text result)
    (hnext : ∀ a rest, rest <:+ text → Leaves start text (next (a, rest))) :
  Leaves start text (result.bind next)
  := by
  cases result with
  | ok read => apply hnext read.1 read.2 (h.ok rfl)
  | error failure => apply of_error _ (h.error rfl)

/-- A reading may be taken for one from further ahead. -/
theorem mono {result : Result α} {start' text' : List Char} (h : Leaves start text result)
    (hstart : start <:+ start') (htext : text <:+ text') :
  Leaves start' text' result
  := by
  constructor
  · intro a rest hresult
    apply (h.ok hresult).trans htext
  · intro failure hresult
    apply (h.error hresult).trans hstart

/-- A string leaves what is behind its closing quote. -/
theorem stringFrom (read : List Char) (h : text <:+ start) :
  Leaves start text (stringFrom start read text)
  := by
  fun_induction Read.stringFrom start read text with
  | case1 => apply of_error _ List.suffix_rfl
  | case2 read rest => apply of_ok _ (List.suffix_cons _ _)
  | case3 => apply of_error _ List.suffix_rfl
  | case4 read letter rest c hc ih =>
    have hrest : rest <:+ '\\' :: letter :: rest := ⟨['\\', letter], rfl⟩
    apply (ih (hrest.trans h)).mono List.suffix_rfl hrest
  | case5 read letter rest hletter => apply of_error _ h
  | case6 read c rest _ _ _ ih =>
    apply (ih ((List.suffix_cons _ _).trans h)).mono List.suffix_rfl (List.suffix_cons _ _)

/-- A character leaves what is behind its token. -/
theorem charAfter (h : text <:+ start) :
  Leaves start text (charAfter start text)
  := by
  cases text with
  | nil => apply of_error _ List.suffix_rfl
  | cons first text =>
    rw [charAfter_cons]
    apply conclude _ ((splitToken_suffix text).trans (List.suffix_cons _ _))

end Leaves

/-- A form takes a character at least. -/
theorem leaves_reading (limit fuel : Nat) :
  (∀ {depth : Nat} {c : Char} {text : List Char}, StartsForm (c :: text) →
      Leaves (c :: text) text (formAt limit fuel depth (c :: text))) ∧
    ∀ {depth : Nat} {collection : Collection} {start text : List Char} {before : List Value},
      text <:+ start → Leaves start text (itemsAt limit fuel depth collection start before text)
  := by
  induction fuel with
  | zero =>
    constructor
    · intro depth c text _
      apply Leaves.of_error _ List.suffix_rfl
    · intro depth collection start text before _
      apply Leaves.of_error _ List.suffix_rfl
  | succ fuel ih =>
    obtain ⟨ihForm, ihItems⟩ := ih
    constructor
    · intro depth c text hstart
      rcases hstart.cases with hc | rfl | rfl | ⟨collection, rfl⟩ | ⟨collection, rfl⟩
      · rw [formAt_token hc]
        apply Leaves.conclude
        rw [splitToken_cons hc]
        apply splitToken_suffix
      · rw [formAt_quote]
        apply Leaves.stringFrom _ (List.suffix_cons _ _)
      · rw [formAt_backslash]
        apply Leaves.charAfter (List.suffix_cons _ _)
      · rw [formAt_closing]
        apply Leaves.of_error _ List.suffix_rfl
      · rw [formAt_collection]
        split
        · apply Leaves.of_error _ List.suffix_rfl
        · apply (ihItems (List.suffix_cons _ _)).bind
          intro items rest hrest
          apply Leaves.conclude _ hrest
    · intro depth collection start text before htext
      cases hskip : skipAtmosphere text with
      | nil =>
        rw [itemsAt_of_end _ _ _ _ _ _ hskip]
        apply Leaves.of_error _ List.suffix_rfl
      | cons c rest =>
        have hrest : c :: rest <:+ text := hskip ▸ skipAtmosphere_suffix text
        have htail : rest <:+ text := (List.suffix_cons c rest).trans hrest
        by_cases hc : c = collection.closing
        · subst hc
          rw [itemsAt_of_closing _ _ _ _ _ _ hskip]
          apply Leaves.of_ok _ htail
        · rw [itemsAt_of_item _ _ _ _ _ _ hskip hc]
          have hform : Leaves (c :: rest) rest (formAt limit fuel depth (c :: rest)) :=
            ihForm (hskip ▸ startsForm_skipAtmosphere text)
          apply (hform.mono (hrest.trans htext) htail).bind
          intro v rest' hrest'
          apply (ihItems (hrest'.trans htext)).mono List.suffix_rfl hrest'

/-- A form takes at least one character. -/
theorem form_suffix {limit : Nat} {c : Char} {text rest : List Char}
    (hstart : StartsForm (c :: text)) {v : Value} (h : form limit (c :: text) = .ok (v, rest)) :
  rest <:+ text
  := ((leaves_reading limit _).1 hstart).ok h

/-- A failure is in the text that was read. -/
theorem failure_suffix {limit : Nat} {text : List Char} (hstart : StartsForm text)
    {failure : Failure} (h : form limit text = .error failure) :
  failure.rest <:+ text
  := by
  cases text with
  | nil =>
    cases h
    apply List.suffix_rfl
  | cons c text => apply ((leaves_reading limit _).1 hstart).error h

/-! ### Rules -/

/-- Two predicates that are closed under the rules by which forms are read at a depth of nesting,
and the items of a collection after those before. -/
structure ClosedUnderReading (limit : Nat)
    (Form : (depth : Nat) → (text : List Char) → Result Value → Prop)
    (Items : (depth : Nat) → Collection → (start : List Char) → (before : List Value) →
      (text : List Char) → Result (List Value) → Prop) : Prop where
  empty (depth : Nat) : Form depth [] (.error ⟨.unexpectedEnd, []⟩)
  token {c : Char} (h : endsToken c = false) (depth : Nat) (text : List Char) :
    Form depth (c :: text)
      (conclude (c :: text) (splitToken (c :: text)).2 (tokenVerdict (splitToken (c :: text)).1))
  string (depth : Nat) (text : List Char) :
    Form depth ('"' :: text) (stringFrom ('"' :: text) [] text)
  character (depth : Nat) (text : List Char) :
    Form depth ('\\' :: text) (charAfter ('\\' :: text) text)
  stray (depth : Nat) (collection : Collection) (text : List Char) :
    Form depth (collection.closing :: text)
      (.error ⟨.unmatchedDelimiter collection.closing, collection.closing :: text⟩)
  tooDeep {depth : Nat} (h : limit ≤ depth) (collection : Collection) (text : List Char) :
    Form depth (collection.opening :: text)
      (.error ⟨.tooDeeplyNested collection.opening limit, collection.opening :: text⟩)
  collection {depth : Nat} (h : depth < limit) {collection : Collection} {text : List Char}
    {items : Result (List Value)}
    (hitems : Items (depth + 1) collection (collection.opening :: text) [] text items) :
    Form depth (collection.opening :: text)
      (items.bind fun read =>
        conclude (collection.opening :: text) read.2 (collection.value read.1))
  unclosed (depth : Nat) (collection : Collection) (start : List Char) (before : List Value)
    {text : List Char} (h : skipAtmosphere text = []) :
    Items depth collection start before text
      (.error ⟨.missingDelimiter collection.opening collection.closing, start⟩)
  closed (depth : Nat) (collection : Collection) (start : List Char) (before : List Value)
    {text rest : List Char} (h : skipAtmosphere text = collection.closing :: rest) :
    Items depth collection start before text (.ok (before.reverse, rest))
  item {depth : Nat} {collection : Collection} {start : List Char} {before : List Value}
    {text rest : List Char} {c : Char} (h : skipAtmosphere text = c :: rest)
    (hc : c ≠ collection.closing) {form : Result Value} (hform : Form depth (c :: rest) form)
    (hleaves : Leaves (c :: rest) rest form) {next : Value × List Char → Result (List Value)}
    (hnext : ∀ v rest', form = .ok (v, rest') →
      Items depth collection start (v :: before) rest' (next (v, rest'))) :
    Items depth collection start before text (form.bind next)

namespace ClosedUnderReading

variable {limit : Nat} {Form : Nat → List Char → Result Value → Prop}
  {Items : Nat → Collection → List Char → List Value → List Char → Result (List Value) → Prop}

/-- Predicates that are closed under the rules hold of all readings with fuel enough for the
text. -/
theorem reading (h : ClosedUnderReading limit Form Items) (fuel : Nat) :
  (∀ {depth : Nat} {text : List Char}, StartsForm text → 2 * text.length + 1 ≤ fuel →
      Form depth text (formAt limit fuel depth text)) ∧
    ∀ {depth : Nat} {collection : Collection} {start : List Char} {before : List Value}
      {text : List Char}, 2 * text.length + 2 ≤ fuel →
      Items depth collection start before text
        (itemsAt limit fuel depth collection start before text)
  := by
  induction fuel with
  | zero =>
    constructor
    · intro depth text _ hfuel
      cases hfuel
    · intro depth collection start before text hfuel
      cases hfuel
  | succ fuel ih =>
    obtain ⟨ihForm, ihItems⟩ := ih
    constructor
    · intro depth text hstart hfuel
      cases text with
      | nil => apply h.empty
      | cons c text =>
        rcases hstart.cases with hc | rfl | rfl | ⟨collection, rfl⟩ | ⟨collection, rfl⟩
        · rw [formAt_token hc]
          apply h.token hc
        · rw [formAt_quote]
          apply h.string
        · rw [formAt_backslash]
          apply h.character
        · rw [formAt_closing]
          apply h.stray
        · rw [formAt_collection]
          split
          next hlimit => apply h.tooDeep hlimit
          next hlimit =>
            apply h.collection (Nat.lt_of_not_le hlimit)
            apply ihItems
            rw [List.length_cons] at hfuel
            omega
    · intro depth collection start before text hfuel
      cases hskip : skipAtmosphere text with
      | nil =>
        rw [itemsAt_of_end _ _ _ _ _ _ hskip]
        apply h.unclosed _ _ _ _ hskip
      | cons c rest =>
        by_cases hc : c = collection.closing
        · subst hc
          rw [itemsAt_of_closing _ _ _ _ _ _ hskip]
          apply h.closed _ _ _ _ hskip
        · rw [itemsAt_of_item _ _ _ _ _ _ hskip hc]
          have hstart : StartsForm (c :: rest) := hskip ▸ startsForm_skipAtmosphere text
          have hlength : (c :: rest).length ≤ text.length :=
            (hskip ▸ skipAtmosphere_suffix text : c :: rest <:+ text).length_le
          rw [List.length_cons] at hlength
          have hleaves : Leaves (c :: rest) rest (formAt limit fuel depth (c :: rest)) :=
            (leaves_reading limit fuel).1 hstart
          apply h.item hskip hc _ hleaves
          · intro v rest' hform
            have hshorter := (hleaves.ok hform).length_le
            apply ihItems
            omega
          · apply ihForm hstart
            rw [List.length_cons]
            omega

/-- The results of reading forms at the beginning of texts satisfy a predicate that is closed under
the rules. -/
theorem form (h : ClosedUnderReading limit Form Items) {text : List Char}
    (hstart : StartsForm text) :
  Form 0 text (Read.form limit text)
  := (h.reading _).1 hstart le_rfl

end ClosedUnderReading

end PocketLisp.Read
