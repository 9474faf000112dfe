import PocketLisp.Proofs.Read.Induction
import PocketLisp.Read.Extent

/-!
# Extents of forms

The extent of a form is a matter of its characters alone: where its delimiters balance, whatever
their kinds, where its string is closed, or where its token ends.  `Extent` says so without a
scan; `closeFrom` and `endOf` find it by one, character by character, with the number of the
collections that are open.

What ends a comment is a parameter, for two scans differ in it: the reader ends a comment at a
line feed or a carriage return, and `skipForm` at a line feed only.
-/

namespace PocketLisp.Read

/-! ### Extents -/

/-- Whether a character ends a comment when the reader skips it. -/
def endsLine (c : Char) : Bool :=
  c == '\n' || c == '\r'

/-- What does not end a comment is neither a line feed nor a carriage return. -/
theorem not_endsLine (c : Char) :
  (!endsLine c) = (c != '\n' && c != '\r')
  := by
  rw [endsLine, Bool.not_or]
  rfl

/-- Whether a character ends a comment in a form that is skipped after a failure. -/
def isLineFeed (c : Char) : Bool :=
  c == '\n'

/-- What comes after the opening quote of a string, up to the closing one. -/
inductive StringRest : List Char → Prop
  | quote : StringRest ['"']
  | escaped (c : Char) {text : List Char} (h : StringRest text) : StringRest ('\\' :: c :: text)
  | char {c : Char} (hquote : c ≠ '"') (hbackslash : c ≠ '\\') {text : List Char}
      (h : StringRest text) :
    StringRest (c :: text)

/-- Texts in which nothing is opened or closed: strings, backslashes with the character behind,
comments up to the character that ends them, and other characters that are no delimiters. -/
inductive Inert (ends : Char → Bool) : List Char → Prop
  | string {text : List Char} (h : StringRest text) : Inert ends ('"' :: text)
  | character (c : Char) : Inert ends ['\\', c]
  | comment {body : List Char} (hbody : ∀ d ∈ body, ends d = false) {c : Char} (hc : ends c) :
    Inert ends (';' :: (body ++ [c]))
  | other {c : Char} (h : isDelimiter c = false) : Inert ends [c]

/-- Texts that close a number of collections, the last of them with their last character. -/
inductive Closes (ends : Char → Bool) : (depth : Nat) → List Char → Prop
  | closed : Closes ends 0 []
  | opening {depth : Nat} (collection : Collection) {text : List Char}
      (h : Closes ends (depth + 2) text) :
    Closes ends (depth + 1) (collection.opening :: text)
  | closing {depth : Nat} (collection : Collection) {text : List Char}
      (h : Closes ends depth text) :
    Closes ends (depth + 1) (collection.closing :: text)
  | inert {depth : Nat} {piece text : List Char} (hpiece : Inert ends piece)
      (h : Closes ends (depth + 1) text) :
    Closes ends (depth + 1) (piece ++ text)

/-- Forms that end with their last character, whatever comes behind them. -/
inductive Enclosed (ends : Char → Bool) : List Char → Prop
  | collection (collection : Collection) {text : List Char} (h : Closes ends 1 text) :
    Enclosed ends (collection.opening :: text)
  | string {text : List Char} (h : StringRest text) : Enclosed ends ('"' :: text)
  | stray (collection : Collection) : Enclosed ends [collection.closing]

/-- Forms that the character behind them ends: tokens and character literals. -/
inductive Bare : List Char → Prop
  | token {token : List Char} (hne : token ≠ []) (h : ∀ c ∈ token, endsToken c = false) :
    Bare token
  | character (first : Char) {tail : List Char} (h : ∀ c ∈ tail, endsToken c = false) :
    Bare ('\\' :: first :: tail)

/-- How far a form goes in a text, and what is behind it.  A collection or a string that does not
end goes as far as the text. -/
inductive Extent (ends : Char → Bool) : (form rest : List Char) → Prop
  | enclosed {form : List Char} (h : Enclosed ends form) (rest : List Char) : Extent ends form rest
  | bare {form : List Char} (h : Bare form) {rest : List Char} (hrest : Follows rest) :
    Extent ends form rest
  | endless {c : Char} (hc : c = '"' ∨ ∃ collection : Collection, c = collection.opening)
      {text : List Char} (h : ∀ front, front <+: c :: text → ¬ Enclosed ends front) :
    Extent ends (c :: text) []

/-- Every text that begins like a form begins with one, unless it is a backslash alone. -/
theorem exists_extent (ends : Char → Bool) {text : List Char} (hstart : StartsForm text)
    (hne : text ≠ []) (hbackslash : text ≠ ['\\']) :
  ∃ form rest, text = form ++ rest ∧ Extent ends form rest
  := by
  obtain ⟨c, text, rfl⟩ := List.exists_cons_of_ne_nil hne
  have hopen (hc : c = '"' ∨ ∃ collection : Collection, c = collection.opening) :
      ∃ form rest, c :: text = form ++ rest ∧ Extent ends form rest := by
    by_cases h : ∃ front, front <+: c :: text ∧ Enclosed ends front
    · obtain ⟨front, ⟨rest, heq⟩, hfront⟩ := h
      exact ⟨front, rest, heq.symm, .enclosed hfront rest⟩
    · refine ⟨c :: text, [], (List.append_nil _).symm, .endless hc ?_⟩
      intro front hprefix hfront
      exact h ⟨front, hprefix, hfront⟩
  rcases hstart.cases with hc | rfl | rfl | ⟨collection, rfl⟩ | ⟨collection, rfl⟩
  · refine ⟨_, _, (splitToken_append (c :: text)).symm, .bare (.token ?_ ?_) ?_⟩
    · rw [splitToken_cons hc]
      apply List.cons_ne_nil
    · intro d hd
      apply endsToken_of_mem_splitToken hd
    · apply follows_splitToken
  · apply hopen (.inl rfl)
  · obtain ⟨first, text, rfl⟩ := List.exists_cons_of_ne_nil fun h => hbackslash (h ▸ rfl)
    refine ⟨'\\' :: first :: (splitToken text).1, (splitToken text).2, ?_, .bare (.character _ ?_) ?_⟩
    · rw [List.cons_append, List.cons_append, splitToken_append]
    · intro d hd
      apply endsToken_of_mem_splitToken hd
    · apply follows_splitToken
  · exact ⟨[collection.closing], text, rfl, .enclosed (.stray collection) text⟩
  · apply hopen (.inr ⟨collection, rfl⟩)

/-! ### Scans -/

namespace ScanMode

/-- Whether a scan is among forms, and not inside a piece that is no form of its own. -/
def isForms : ScanMode → Bool
  | forms => true
  | _ => false

/-- Where a scan is after a character. -/
def after (ends : Char → Bool) : ScanMode → Char → ScanMode
  | forms, c =>
    if c = '"' then string else if c = '\\' then character else if c = ';' then comment else forms
  | string, c => if c = '\\' then stringEscape else if c = '"' then forms else string
  | stringEscape, _ => string
  | character, _ => forms
  | comment, c => if ends c then forms else comment

/-- How many collections are open after a character. -/
def depthAfter : ScanMode → Char → Nat → Nat
  | forms, c, depth =>
    if (Collection.ofOpening? c).isSome then depth + 1
    else if isClosing c then depth - 1
    else depth
  | _, _, depth => depth

end ScanMode

/-- The text after the end of as many collections as are open, if they end. -/
def closeFrom (ends : Char → Bool) : (depth : Nat) → ScanMode → List Char → Option (List Char)
  | 0, .forms, text => some text
  | _, _, [] => none
  | depth, mode, c :: text => closeFrom ends (mode.depthAfter c depth) (mode.after ends c) text

section
variable {ends : Char → Bool} {depth : Nat} {mode : ScanMode} {text rest : List Char}

/-- Where no collection is open there is nothing to close. -/
@[simp]
theorem closeFrom_zero (text : List Char) :
  closeFrom ends 0 .forms text = some text
  := by
  cases text <;> rfl

/-- What is behind the end is a part of the end of the text. -/
theorem closeFrom_suffix (h : closeFrom ends depth mode text = some rest) :
  rest <:+ text
  := by
  fun_induction closeFrom ends depth mode text with
  | case1 text =>
    cases h
    apply List.suffix_rfl
  | case2 => cases h
  | case3 depth mode c text _ ih => apply (ih h).trans (List.suffix_cons c text)

/-- Among forms a scan passes every character, with what the character does to depth and mode. -/
theorem closeFrom_forms (c : Char) (text : List Char) :
  closeFrom ends (depth + 1) .forms (c :: text)
    = closeFrom ends (ScanMode.forms.depthAfter c (depth + 1)) (ScanMode.forms.after ends c) text
  := rfl

/-- An opening delimiter opens a collection, whatever its kind. -/
theorem closeFrom_opening (depth : Nat) (collection : Collection) (text : List Char) :
  closeFrom ends (depth + 1) .forms (collection.opening :: text)
    = closeFrom ends (depth + 2) .forms text
  := by
  cases collection <;> rfl

/-- A closing delimiter closes a collection, whatever its kind. -/
theorem closeFrom_closing (depth : Nat) (collection : Collection) (text : List Char) :
  closeFrom ends (depth + 1) .forms (collection.closing :: text)
    = closeFrom ends depth .forms text
  := by
  cases collection <;> rfl

/-- A quote begins a string. -/
theorem closeFrom_quote (depth : Nat) (text : List Char) :
  closeFrom ends (depth + 1) .forms ('"' :: text) = closeFrom ends (depth + 1) .string text
  := rfl

/-- A backslash begins a character literal. -/
theorem closeFrom_backslash (depth : Nat) (text : List Char) :
  closeFrom ends (depth + 1) .forms ('\\' :: text) = closeFrom ends (depth + 1) .character text
  := rfl

/-- A semicolon begins a comment. -/
theorem closeFrom_semicolon (depth : Nat) (text : List Char) :
  closeFrom ends (depth + 1) .forms (';' :: text) = closeFrom ends (depth + 1) .comment text
  := rfl

/-- A character that is no delimiter is passed. -/
theorem closeFrom_other {c : Char} (h : isDelimiter c = false) (depth : Nat) (text : List Char) :
  closeFrom ends (depth + 1) .forms (c :: text) = closeFrom ends (depth + 1) .forms text
  := by
  rw [closeFrom_forms, ScanMode.depthAfter, ScanMode.after, if_neg (ne_of_isDelimiter h rfl),
    if_neg (ne_of_isDelimiter h rfl), if_neg (ne_of_isDelimiter h rfl), ofOpening?_eq_none h,
    isClosing_eq_false h]
  rfl

/-- Inside a piece that is no form of its own nothing is opened or closed. -/
theorem closeFrom_cons (mode : ScanMode) (h : mode.isForms = false) (c : Char)
    (text : List Char) :
  closeFrom ends depth mode (c :: text) = closeFrom ends depth (mode.after ends c) text
  := by
  cases mode with
  | forms => cases h
  | string => cases depth <;> rfl
  | stringEscape => cases depth <;> rfl
  | character => cases depth <;> rfl
  | comment => cases depth <;> rfl

/-- From inside a string a scan comes to the end of it, and is among forms again. -/
theorem closeFrom_string (h : StringRest text) (depth : Nat) (rest : List Char) :
  closeFrom ends depth .string (text ++ rest) = closeFrom ends depth .forms rest
  := by
  induction h with
  | quote =>
    rw [List.singleton_append, closeFrom_cons .string rfl]
    rfl
  | escaped c h ih =>
    rw [List.cons_append, List.cons_append, closeFrom_cons .string rfl, ScanMode.after,
      if_pos rfl, closeFrom_cons .stringEscape rfl, ScanMode.after, ih]
  | char hquote hbackslash h ih =>
    rw [List.cons_append, closeFrom_cons .string rfl, ScanMode.after, if_neg hbackslash,
      if_neg hquote, ih]

/-- From inside a comment a scan comes to the character that ends it, and is among forms again. -/
theorem closeFrom_comment {body : List Char} (hbody : ∀ d ∈ body, ends d = false) {c : Char}
    (hc : ends c) (depth : Nat) (rest : List Char) :
  closeFrom ends depth .comment (body ++ c :: rest) = closeFrom ends depth .forms rest
  := by
  induction body with
  | nil => rw [List.nil_append, closeFrom_cons .comment rfl, ScanMode.after, if_pos hc]
  | cons d body ih =>
    rw [List.forall_mem_cons] at hbody
    rw [List.cons_append, closeFrom_cons .comment rfl, ScanMode.after, hbody.1,
      if_neg Bool.false_ne_true, ih hbody.2]

/-- What is inert is passed. -/
theorem closeFrom_inert {piece : List Char} (h : Inert ends piece) (depth : Nat)
    (rest : List Char) :
  closeFrom ends (depth + 1) .forms (piece ++ rest) = closeFrom ends (depth + 1) .forms rest
  := by
  cases h with
  | string h => apply closeFrom_string h
  | character c => rfl
  | comment hbody hc =>
    rw [List.cons_append, List.append_assoc]
    apply closeFrom_comment hbody hc
  | other h => apply closeFrom_other h

/-- What closes as many collections as are open is passed as a whole. -/
theorem closeFrom_of_closes (h : Closes ends depth text) (rest : List Char) :
  closeFrom ends depth .forms (text ++ rest) = some rest
  := by
  induction h with
  | closed => apply closeFrom_zero
  | opening collection h ih => rw [List.cons_append, closeFrom_opening, ih]
  | closing collection h ih => rw [List.cons_append, closeFrom_closing, ih]
  | inert hpiece h ih => rw [List.append_assoc, closeFrom_inert hpiece, ih]

/-- What a scan passes before it is among forms again. -/
def ScanMode.Takes (ends : Char → Bool) : ScanMode → List Char → Prop
  | forms, piece => piece = []
  | string, piece => StringRest piece
  | stringEscape, piece => ∃ c text, piece = c :: text ∧ StringRest text
  | character, piece => ∃ c, piece = [c]
  | comment, piece => ∃ body c, piece = body ++ [c] ∧ (∀ d ∈ body, ends d = false) ∧ ends c

/-- A character goes with what a scan passes behind it. -/
theorem ScanMode.Takes.cons {piece : List Char} {c : Char} (hmode : mode.isForms = false)
    (h : (mode.after ends c).Takes ends piece) :
  mode.Takes ends (c :: piece)
  := by
  cases mode with
  | forms => cases hmode
  | string =>
    rw [after] at h
    split at h
    next hc =>
      obtain ⟨d, text, rfl, htext⟩ := h
      rw [hc]
      apply StringRest.escaped d htext
    next hbackslash =>
      split at h
      next hc =>
        rw [hc, show piece = [] from h]
        apply StringRest.quote
      next hquote => apply StringRest.char hquote hbackslash h
  | stringEscape => exact ⟨c, piece, rfl, h⟩
  | character => exact ⟨c, by rw [show piece = [] from h]⟩
  | comment =>
    rw [after] at h
    split at h
    next hc =>
      refine ⟨[], c, ?_, List.forall_mem_nil _, hc⟩
      rw [show piece = [] from h]
      rfl
    next hc =>
      obtain ⟨body, d, rfl, hbody, hd⟩ := h
      refine ⟨c :: body, d, rfl, ?_, hd⟩
      rw [List.forall_mem_cons]
      exact ⟨Bool.eq_false_of_not_eq_true hc, hbody⟩

/-- Where a scan comes to an end it has passed the rest of the piece in which it was, and then something
that closes as many collections as were open. By induction on the scan. -/
theorem closes_of_closeFrom (h : closeFrom ends depth mode text = some rest) :
  ∃ piece front, text = piece ++ (front ++ rest) ∧ mode.Takes ends piece ∧ Closes ends depth front
  := by
  induction text generalizing depth mode with
  | nil =>
    cases mode with
    | forms =>
      cases depth with
      | zero =>
        cases h
        exact ⟨[], [], rfl, rfl, .closed⟩
      | succ depth => cases h
    | string => cases depth <;> cases h
    | stringEscape => cases depth <;> cases h
    | character => cases depth <;> cases h
    | comment => cases depth <;> cases h
  | cons c text ih =>
    by_cases hmode : mode.isForms
    · obtain rfl : mode = .forms := by
        cases mode <;> first | rfl | cases hmode
      cases depth with
      | zero =>
        rw [closeFrom_zero] at h
        cases h
        exact ⟨[], [], rfl, rfl, .closed⟩
      | succ depth =>
        rcases delimiter_cases c with
          hother | rfl | rfl | rfl | ⟨collection, rfl⟩ | ⟨collection, rfl⟩
        · rw [closeFrom_other hother] at h
          obtain ⟨_, front, rfl, rfl, hfront⟩ := ih h
          exact ⟨[], c :: front, rfl, rfl, .inert (.other hother) hfront⟩
        · rw [closeFrom_semicolon] at h
          obtain ⟨_, front, rfl, ⟨body, c, rfl, hbody, hc⟩, hfront⟩ := ih h
          refine ⟨[], ';' :: (body ++ [c]) ++ front, ?_, rfl, .inert (.comment hbody hc) hfront⟩
          simp
        · rw [closeFrom_quote] at h
          obtain ⟨piece, front, rfl, hpiece, hfront⟩ := ih h
          refine ⟨[], '"' :: piece ++ front, ?_, rfl, .inert (.string hpiece) hfront⟩
          simp
        · rw [closeFrom_backslash] at h
          obtain ⟨_, front, rfl, ⟨c, rfl⟩, hfront⟩ := ih h
          exact ⟨[], '\\' :: c :: front, rfl, rfl, .inert (.character c) hfront⟩
        · rw [closeFrom_closing] at h
          obtain ⟨_, front, rfl, rfl, hfront⟩ := ih h
          exact ⟨[], collection.closing :: front, rfl, rfl, .closing collection hfront⟩
        · rw [closeFrom_opening] at h
          obtain ⟨_, front, rfl, rfl, hfront⟩ := ih h
          exact ⟨[], collection.opening :: front, rfl, rfl, .opening collection hfront⟩
    · have hinside := Bool.eq_false_of_not_eq_true hmode
      rw [closeFrom_cons mode hinside] at h
      obtain ⟨piece, front, rfl, hpiece, hfront⟩ := ih h
      exact ⟨c :: piece, front, rfl, hpiece.cons hinside, hfront⟩

/-- The texts that close the collections that are open are those that a scan passes. -/
theorem closes_iff :
  Closes ends depth text ↔ closeFrom ends depth .forms text = some []
  := by
  constructor
  · intro h
    rw [← List.append_nil text, closeFrom_of_closes h]
  · intro h
    obtain ⟨_, front, rfl, rfl, hfront⟩ := closes_of_closeFrom h
    rw [List.append_nil]
    apply hfront

/-- Where a scan that begins inside a string comes to its end, it has passed the rest of the string. -/
theorem stringRest_of_closeFrom (h : closeFrom ends 0 .string text = some rest) :
  ∃ string, text = string ++ rest ∧ StringRest string
  := by
  obtain ⟨string, front, rfl, hstring, hfront⟩ := closes_of_closeFrom h
  cases hfront
  exact ⟨string, rfl, hstring⟩

/-- A token inside collections is passed. -/
theorem closeFrom_token {token : List Char} (h : ∀ c ∈ token, endsToken c = false) (depth : Nat)
    (rest : List Char) :
  closeFrom ends (depth + 1) .forms (token ++ rest) = closeFrom ends (depth + 1) .forms rest
  := by
  induction token with
  | nil => rfl
  | cons c token ih =>
    rw [List.forall_mem_cons] at h
    rw [List.cons_append, closeFrom_other (isDelimiter_eq_false h.1), ih h.2]

end

/-- The text after the end of the form at the beginning of a text, and then after the end of the
collections that are open around it; none if something does not end. -/
def endOf (ends : Char → Bool) (depth : Nat) : List Char → Option (List Char)
  | [] => none
  | c :: text =>
    if (Collection.ofOpening? c).isSome then closeFrom ends (depth + 1) .forms text
    else if isClosing c then closeFrom ends (depth - 1) .forms text
    else if c = '"' then closeFrom ends depth .string text
    else if c = '\\' then
      (closeFrom ends 0 .character text).bind fun text =>
        closeFrom ends depth .forms (splitToken text).2
    else closeFrom ends depth .forms (splitToken (c :: text)).2

section
variable {ends : Char → Bool} {form rest : List Char}

/-- A form that begins with an opening delimiter ends where its collection is closed. -/
theorem endOf_opening (depth : Nat) (collection : Collection) (text : List Char) :
  endOf ends depth (collection.opening :: text) = closeFrom ends (depth + 1) .forms text
  := by
  cases collection <;> rfl

/-- A form that begins with a closing delimiter is that delimiter. -/
theorem endOf_closing (depth : Nat) (collection : Collection) (text : List Char) :
  endOf ends depth (collection.closing :: text) = closeFrom ends (depth - 1) .forms text
  := by
  cases collection <;> rfl

/-- A form that begins with a quote ends where its string does. -/
theorem endOf_quote (depth : Nat) (text : List Char) :
  endOf ends depth ('"' :: text) = closeFrom ends depth .string text
  := rfl

/-- A character literal ends where the token behind its first character does. -/
theorem endOf_backslash (depth : Nat) (first : Char) (text : List Char) :
  endOf ends depth ('\\' :: first :: text) = closeFrom ends depth .forms (splitToken text).2
  := by
  have hfirst : closeFrom ends 0 .character (first :: text) = some text := by
    rw [closeFrom_cons .character rfl]
    apply closeFrom_zero
  rw [endOf, hfirst]
  rfl

/-- A form that begins with no delimiter ends where its token does. -/
theorem endOf_token {c : Char} (h : endsToken c = false) (depth : Nat) (text : List Char) :
  endOf ends depth (c :: text) = closeFrom ends depth .forms (splitToken (c :: text)).2
  := by
  have hdelimiter := isDelimiter_eq_false h
  rw [endOf, ofOpening?_eq_none hdelimiter, isClosing_eq_false hdelimiter,
    if_neg (ne_of_isDelimiter hdelimiter rfl), if_neg (ne_of_isDelimiter hdelimiter rfl)]
  rfl

/-- Around a form that begins inside collections no difference is made between the form and what
comes behind it. -/
theorem endOf_succ {text : List Char} (hstart : StartsForm text) (depth : Nat) :
  endOf ends (depth + 1) text = closeFrom ends (depth + 1) .forms text
  := by
  cases text with
  | nil => rfl
  | cons c text =>
    rcases hstart.cases with hc | rfl | rfl | ⟨collection, rfl⟩ | ⟨collection, rfl⟩
    · rw [endOf_token hc]
      conv_rhs => rw [← splitToken_append (c :: text)]
      rw [closeFrom_token fun d => endsToken_of_mem_splitToken]
    · rfl
    · cases text with
      | nil => rfl
      | cons first text =>
        rw [endOf_backslash, closeFrom_backslash, closeFrom_cons .character rfl]
        conv_rhs => rw [← splitToken_append text]
        symm
        apply closeFrom_token fun d => endsToken_of_mem_splitToken
    · rw [endOf_closing, closeFrom_closing]
      rfl
    · rw [endOf_opening, closeFrom_opening]

/-- An enclosed form ends with its last character. -/
theorem Enclosed.endOf (h : Enclosed ends form) (rest : List Char) :
  endOf ends 0 (form ++ rest) = some rest
  := by
  cases h with
  | collection collection h =>
    rw [List.cons_append, endOf_opening]
    apply closeFrom_of_closes h
  | string h =>
    rw [List.cons_append, endOf_quote, closeFrom_string h, closeFrom_zero]
  | stray collection =>
    rw [List.singleton_append, endOf_closing, closeFrom_zero]

/-- A bare form ends at a character that cannot go on with it. -/
theorem Bare.endOf (h : Bare form) (hrest : Follows rest) :
  endOf ends 0 (form ++ rest) = some rest
  := by
  cases h with
  | token hne h =>
    obtain ⟨c, tail, rfl⟩ := List.exists_cons_of_ne_nil hne
    rw [List.cons_append, endOf_token (h c List.mem_cons_self), ← List.cons_append,
      splitToken_eq h hrest, closeFrom_zero]
  | character first h =>
    rw [List.cons_append, List.cons_append, endOf_backslash, splitToken_eq h hrest,
      closeFrom_zero]

/-- The extent of a form is found by a scan. -/
theorem Extent.endOf (h : Extent ends form rest) :
  (endOf ends 0 (form ++ rest)).getD [] = rest
  := by
  cases h with
  | enclosed h => rw [h.endOf, Option.getD_some]
  | bare h hrest => rw [h.endOf hrest, Option.getD_some]
  | endless hc h =>
    rename_i c text
    cases hend : Read.endOf ends 0 (c :: text ++ []) with
    | none => rfl
    | some rest =>
      rw [List.append_nil] at hend
      rcases hc with rfl | ⟨collection, rfl⟩
      · obtain ⟨string, rfl, hstring⟩ := stringRest_of_closeFrom hend
        cases h ('"' :: string) ⟨rest, rfl⟩ (.string hstring)
      · rw [endOf_opening] at hend
        obtain ⟨_, front, rfl, rfl, hfront⟩ := closes_of_closeFrom hend
        cases h (collection.opening :: front) ⟨rest, rfl⟩ (.collection collection hfront)

end

/-! ### Skipped forms -/

/-- A character that is no delimiter is passed, unless it ends the form. -/
theorem skipFrom_other {c : Char} (h : isDelimiter c = false) {started : Bool} {depth : Nat}
    (hstop : (started && depth == 0 && endsToken c) = false) (text : List Char) :
  skipFrom started depth .forms (c :: text) = skipFrom true depth .forms text
  := by
  rw [skipFrom.eq_def]
  simp only [hstop, if_neg Bool.false_ne_true]
  split <;> first | cases h | rfl

/-- Inside a collection or a string the scan of a skipped form ends comments at line feeds only. -/
theorem skipFrom_eq {depth : Nat} {mode : ScanMode}
    (h : depth ≠ 0 ∨ mode = .string ∨ mode = .stringEscape) (text : List Char) :
  skipFrom true depth mode text = (closeFrom isLineFeed depth mode text).getD []
  := by
  induction text generalizing depth mode with
  | nil =>
    cases mode with
    | forms =>
      cases depth with
      | zero => simp at h
      | succ depth => rfl
    | string => cases depth <;> rfl
    | stringEscape => cases depth <;> rfl
    | character => cases depth <;> rfl
    | comment => cases depth <;> rfl
  | cons c text ih =>
    have ihInside {depth : Nat} (mode : ScanMode) :
        skipFrom true (depth + 1) mode text
          = (closeFrom isLineFeed (depth + 1) mode text).getD [] :=
      ih (.inl (Nat.succ_ne_zero depth))
    cases mode with
    | forms =>
      cases depth with
      | zero => simp at h
      | succ depth =>
        rcases delimiter_cases c with
          hother | rfl | rfl | rfl | ⟨collection, rfl⟩ | ⟨collection, rfl⟩
        · rw [skipFrom_other hother (by simp), closeFrom_other hother, ihInside]
        · apply ihInside .comment
        · apply ihInside .string
        · apply ihInside .character
        · rw [closeFrom_closing]
          cases depth with
          | zero =>
            rw [closeFrom_zero]
            cases collection <;> rfl
          | succ depth =>
            rw [← ihInside]
            cases collection <;> rfl
        · rw [closeFrom_opening, ← ihInside]
          cases collection <;> rfl
    | string =>
      rw [closeFrom_cons .string rfl, ScanMode.after]
      by_cases hbackslash : c = '\\'
      · rw [hbackslash, if_pos rfl]
        apply ih (.inr (.inr rfl))
      · rw [if_neg hbackslash]
        by_cases hquote : c = '"'
        · rw [hquote, if_pos rfl]
          cases depth with
          | zero =>
            rw [closeFrom_zero]
            rfl
          | succ depth => apply ihInside .forms
        · rw [if_neg hquote, skipFrom]
          · apply ih (.inr (.inl rfl))
          · apply hbackslash
          · apply hquote
    | stringEscape =>
      rw [closeFrom_cons .stringEscape rfl]
      apply ih (.inr (.inl rfl))
    | character =>
      rw [closeFrom_cons .character rfl]
      apply ih (h.imp_right (by simp))
    | comment =>
      rw [closeFrom_cons .comment rfl, ScanMode.after, isLineFeed, skipFrom,
        ih (h.imp_right (by simp))]
      simp only [beq_iff_eq]

/-- A token is skipped up to its end. -/
theorem skipFrom_token (text : List Char) :
  skipFrom true 0 .forms text = (splitToken text).2
  := by
  induction text with
  | nil => rfl
  | cons c text ih =>
    cases hc : endsToken c with
    | true => simp [skipFrom, splitToken_eq_takeWhile, hc]
    | false =>
      rw [skipFrom_other (isDelimiter_eq_false hc) (by rw [hc]; rfl), ih, splitToken_cons hc]

/-- After a failure the form at the beginning of a text is skipped up to its end, or with the whole text if
it has no end. Comments inside end at a line feed here. -/
theorem skipForm_eq {text : List Char} (hstart : StartsForm text) :
  skipForm text = (endOf isLineFeed 0 text).getD []
  := by
  cases text with
  | nil => rfl
  | cons c text =>
    rcases hstart.cases with hc | rfl | rfl | ⟨collection, rfl⟩ | ⟨collection, rfl⟩
    · rw [endOf_token hc, closeFrom_zero, Option.getD_some, splitToken_cons hc, ← skipFrom_token]
      apply skipFrom_other (isDelimiter_eq_false hc) rfl
    · apply skipFrom_eq (.inr (.inl rfl))
    · cases text with
      | nil => rfl
      | cons first text =>
        rw [endOf_backslash, closeFrom_zero, Option.getD_some, ← skipFrom_token]
        rfl
    · rw [endOf_closing, closeFrom_zero]
      cases collection <;> rfl
    · rw [endOf_opening, ← skipFrom_eq (.inl Nat.one_ne_zero)]
      cases collection <;> rfl

/-- A form has a first character. -/
theorem Extent.ne_nil {ends : Char → Bool} {form rest : List Char} (h : Extent ends form rest) :
  form ≠ []
  := by
  cases h with
  | enclosed h =>
    cases h with
    | collection => apply List.cons_ne_nil
    | string => apply List.cons_ne_nil
    | stray => apply List.cons_ne_nil
  | bare h =>
    cases h with
    | token hne => apply hne
    | character => apply List.cons_ne_nil
  | endless => apply List.cons_ne_nil

/-- A skipped form has at least the first character of the text. -/
theorem skipForm_suffix {c : Char} {text : List Char} (hstart : StartsForm (c :: text)) :
  skipForm (c :: text) <:+ text
  := by
  by_cases hbackslash : c :: text = ['\\']
  · rw [hbackslash]
    apply List.nil_suffix
  · obtain ⟨form, rest, heq, hextent⟩ :=
      exists_extent isLineFeed hstart (List.cons_ne_nil c text) hbackslash
    rw [skipForm_eq hstart, heq, hextent.endOf]
    obtain ⟨d, tail, rfl⟩ := List.exists_cons_of_ne_nil hextent.ne_nil
    rw [(List.cons.inj heq).2]
    apply List.suffix_append

end PocketLisp.Read
