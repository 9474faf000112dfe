import PocketLisp.Proofs.Decimal.Literal
import PocketLisp.Read.Form

/-!
# Tokens read back

The printed forms of values that are no collections read back as those values, whatever text
follows.  After a token something has to follow that ends it; a string ends by itself.
-/

namespace PocketLisp.Read

/-! ### The end of a token -/

/-- Whether a text may stand after a token: it is empty or begins with a character that ends
tokens. -/
def Follows (rest : List Char) : Prop :=
  ∀ c ∈ rest.head?, endsToken c

/-- The end of the text ends a token. -/
theorem follows_nil :
  Follows []
  := by
  intro c hc
  cases hc

/-- A character that ends tokens ends this one too. -/
theorem follows_cons {c : Char} (h : endsToken c) (rest : List Char) :
  Follows (c :: rest)
  := by
  intro c' hc
  cases hc
  apply h

/-- A character inside a token is none that ends tokens. -/
theorem ne_of_endsToken {c d : Char} (hc : endsToken c = false) (hd : endsToken d) :
  c ≠ d
  := by
  rintro rfl
  rw [hc] at hd
  cases hd

/-- A character inside a token is no delimiter. -/
theorem isDelimiter_eq_false {c : Char} (h : endsToken c = false) :
  isDelimiter c = false
  := (Bool.or_eq_false_iff.mp h).2

/-- A character that is no delimiter is none of them. -/
theorem ne_of_isDelimiter {c d : Char} (hc : isDelimiter c = false) (hd : isDelimiter d) :
  c ≠ d
  := by
  rintro rfl
  rw [hc] at hd
  cases hd

/-- What is no delimiter closes no collection. -/
theorem isClosing_eq_false {c : Char} (h : isDelimiter c = false) :
  isClosing c = false
  := by
  simp [isClosing, ne_of_isDelimiter h (d := ')') rfl, ne_of_isDelimiter h (d := ']') rfl,
    ne_of_isDelimiter h (d := '}') rfl]

/-- A token is the text up to what ends it. -/
theorem splitToken_eq {token rest : List Char} (htoken : ∀ c ∈ token, endsToken c = false)
    (hrest : Follows rest) :
  splitToken (token ++ rest) = (token, rest)
  := by
  have hall : ∀ c ∈ token, !endsToken c := by
    intro c hc
    rw [htoken c hc]
    rfl
  rw [splitToken, List.span_eq_takeWhile_dropWhile, List.takeWhile_append_of_pos hall,
    List.dropWhile_append_of_pos hall]
  cases rest with
  | nil => simp
  | cons c rest =>
    have hc := hrest c rfl
    simp [hc]

/-! ### Numbers -/

/-- No digit ends a token. -/
theorem endsToken_of_isDigit {c : Char} (h : c.isDigit) :
  endsToken c = false
  := Literal.of_isDigit (P := fun c => endsToken c = false) (by decide) h

/-- No character of a number ends a token. -/
theorem endsToken_eq_false {text : List Char} (h : Literal.IsNumeral text) :
  ∀ c ∈ text, endsToken c = false
  := by
  intro c hc
  rcases h.chars c hc with hdigit | rfl | rfl
  · apply endsToken_of_isDigit hdigit
  · rfl
  · rfl

/-- Without a sign a number begins with a digit. -/
theorem startsNumber_cons {c : Char} (hplus : c ≠ '+') (hminus : c ≠ '-') (text : List Char) :
  startsNumber (c :: text) = c.isDigit
  := by
  unfold startsNumber
  split
  next heq => cases hplus (List.cons.inj heq).1
  next heq => cases hminus (List.cons.inj heq).1
  next heq => rw [(List.cons.inj heq).1]
  next heq => cases heq

/-- A number is recognised by its first characters. -/
theorem startsNumber_append {text : List Char} (h : Literal.IsNumeral text) (rest : List Char) :
  startsNumber (text ++ rest)
  := by
  obtain ⟨c, tail, hc, rfl | rfl⟩ := h.starts
  · obtain ⟨hplus, hminus⟩ := Literal.ne_sign_of_isDigit hc
    rw [List.cons_append, startsNumber_cons hplus hminus, hc]
  · apply hc

/-- What has the characters of a number is read as one. -/
theorem atom_eq_number {text : List Char} (h : Literal.IsNumeral text) (rest : List Char) :
  atom (text ++ rest) = number (text ++ rest)
  := by
  rw [atom.eq_def, if_pos (startsNumber_append h rest)]

/-- An integer reads back from its digits. -/
theorem atom_integer (n : Int64) {rest : List Char} (hrest : Follows rest) :
  atom ((toString n.toInt).toList ++ rest) = .ok (.integer n, rest)
  := by
  have h := Literal.isNumeral_toString n.toInt
  rw [atom_eq_number h, number, splitToken_eq (endsToken_eq_false h) hrest]
  simp only [Literal.integer?_toString]

/-- A finite float reads back from its text. -/
theorem atom_float {x : Float} (hx : x.isFinite) {rest : List Char} (hrest : Follows rest) :
  atom ((FloatFormat.plain.write x).toList ++ rest) = .ok (.float x, rest)
  := by
  have h := FloatFormat.isNumeral_write hx
  obtain ⟨fault, hfault⟩ := FloatFormat.integer?_write hx
  rw [atom_eq_number h, number, splitToken_eq (endsToken_eq_false h) hrest]
  simp only [hfault, FloatFormat.float?_write hx]

/-! ### Strings -/

/-- Inside a string a character other than a quote and a backslash stands for itself. -/
theorem stringFrom_cons (start : List Char) {c : Char} (hquote : c ≠ '"') (hbackslash : c ≠ '\\')
    (read rest : List Char) :
  stringFrom start read (c :: rest) = stringFrom start (c :: read) rest
  := by
  rw [stringFrom]
  · apply hquote
  · intro heq
    contradiction
  · intro letter rest' heq
    contradiction

/-- A character is no backslash if it is none at the end of a text and none before a letter. -/
theorem ne_backslash {c : Char} {rest : List Char} (hlast : c = '\\' → rest = [] → False)
    (hescape : ∀ letter rest', c = '\\' → rest = letter :: rest' → False) :
  c ≠ '\\'
  := by
  intro hc
  cases rest with
  | nil => apply hlast hc rfl
  | cons letter rest => apply hescape letter rest hc rfl

/-- The written form of a character inside a string is read as that character. -/
theorem stringFrom_quoteChar (start : List Char) (c : Char) (read rest : List Char) :
  stringFrom start read (Text.quoteChar c ++ rest) = stringFrom start (c :: read) rest
  := by
  rw [Text.quoteChar]
  cases hletter : Text.escapeLetter? c with
  | some letter =>
    simp only [List.cons_append, List.nil_append, stringFrom,
      Text.escapedChar?_of_escapeLetter? hletter]
  | none =>
    have hquote : c ≠ '"' := by
      rintro rfl
      cases hletter
    have hbackslash : c ≠ '\\' := by
      rintro rfl
      cases hletter
    apply stringFrom_cons start hquote hbackslash

/-- A string whose characters are escaped reads back up to the closing quote. -/
theorem stringFrom_eq (start : List Char) (cs read rest : List Char) :
  stringFrom start read (cs.flatMap Text.quoteChar ++ '"' :: rest)
    = .ok (.string (String.ofList (read.reverse ++ cs)), rest)
  := by
  induction cs generalizing read with
  | nil => simp [stringFrom]
  | cons c cs ih =>
    rw [List.flatMap_cons, List.append_assoc, stringFrom_quoteChar, ih]
    simp

/-- A string reads back from its quoted text. -/
theorem atom_string (s : String) (rest : List Char) :
  atom ((Text.quoted s).toList ++ rest) = .ok (.string s, rest)
  := by
  have h := stringFrom_eq ((Text.quoted s).toList ++ rest) s.toList [] rest
  simp only [Text.toList_quoted, List.cons_append, List.append_assoc, List.nil_append,
    List.reverse_nil, String.ofList_toList] at h ⊢
  rw [atom.eq_def, startsNumber_cons (by decide) (by decide), if_neg (by decide)]
  apply h

/-! ### Words -/

/-- The characters of keywords and symbols. -/
def isNameChar (c : Char) : Bool :=
  !endsToken c && !isReserved c

/-- The characters of names neither end tokens nor are reserved. -/
theorem isNameChar_iff {c : Char} :
  isNameChar c ↔ endsToken c = false ∧ isReserved c = false
  := by
  simp [isNameChar]

/-- What follows a token makes no number of it. -/
theorem startsNumber_append_of_follows (token : List Char) {rest : List Char}
    (hrest : Follows rest) :
  startsNumber (token ++ rest) = startsNumber token
  := by
  have hdigit : ∀ d ∈ rest.head?, d.isDigit = false := by
    intro d hd
    rw [← Bool.not_eq_true]
    intro hdigit
    cases ne_of_endsToken (endsToken_of_isDigit hdigit) (hrest d hd) rfl
  cases token with
  | nil =>
    cases rest with
    | nil => rfl
    | cons d rest =>
      have hplus : d ≠ '+' := (ne_of_endsToken (c := '+') rfl (hrest d rfl)).symm
      have hminus : d ≠ '-' := (ne_of_endsToken (c := '-') rfl (hrest d rfl)).symm
      rw [List.nil_append, startsNumber_cons hplus hminus, hdigit d rfl]
      rfl
  | cons c tail =>
    by_cases hsign : c = '+' ∨ c = '-'
    · cases tail with
      | cons d tail => rcases hsign with rfl | rfl <;> rfl
      | nil =>
        cases rest with
        | nil => rfl
        | cons d rest => rcases hsign with rfl | rfl <;> exact hdigit d rfl
    · rw [not_or] at hsign
      rw [List.cons_append, startsNumber_cons hsign.1 hsign.2, startsNumber_cons hsign.1 hsign.2]

/-- A word of such characters is read up to its end. -/
theorem word_eq {token rest : List Char} (hchars : ∀ c ∈ token, isNameChar c)
    (hrest : Follows rest) :
  word (token ++ rest) = .ok (wordValue token, rest)
  := by
  have hends : ∀ c ∈ token, endsToken c = false := by
    intro c hc
    apply (isNameChar_iff.mp (hchars c hc)).1
  have hfind : token.find? isReserved = none := by
    rw [List.find?_eq_none]
    intro c hc
    rw [(isNameChar_iff.mp (hchars c hc)).2]
    apply Bool.false_ne_true
  rw [word, splitToken_eq hends hrest]
  simp only [hfind]

/-- A token that is not a number is read as a word. -/
theorem atom_word {token rest : List Char} (hne : token ≠ []) (hchars : ∀ c ∈ token, isNameChar c)
    (hnumber : startsNumber token = false) (hrest : Follows rest) :
  atom (token ++ rest) = .ok (wordValue token, rest)
  := by
  rw [atom.eq_def, startsNumber_append_of_follows token hrest, hnumber, if_neg Bool.false_ne_true,
    ← word_eq hchars hrest]
  obtain ⟨c, tail, rfl⟩ := List.exists_cons_of_ne_nil hne
  obtain ⟨hends, hreserved⟩ := isNameChar_iff.mp (hchars c List.mem_cons_self)
  rw [List.cons_append]
  split
  next heq => cases heq
  next heq => cases ne_of_endsToken hends (d := '"') rfl (List.cons.inj heq).1
  next heq => cases ne_of_endsToken hends (d := '\\') rfl (List.cons.inj heq).1
  next heq =>
    obtain ⟨rfl, -⟩ := List.cons.inj heq
    rw [isClosing_eq_false (isDelimiter_eq_false hends), hreserved, if_neg Bool.false_ne_true,
      if_neg Bool.false_ne_true]

end PocketLisp.Read
