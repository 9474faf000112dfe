/-!
# Quoted strings

The written form of a string stands between double quotes.  Seven characters are written
as a backslash and a letter, and all others as themselves.  `escapeLetter?` and
`escapedChar?` are the two directions of that table.
-/

namespace PocketLisp.Text

/-- The letter that stands for `c` after a backslash, if `c` is written that way. -/
def escapeLetter? : Char → Option Char
  | '"' => some '"'
  | '\\' => some '\\'
  | '\n' => some 'n'
  | '\t' => some 't'
  | '\r' => some 'r'
  | '\x08' => some 'b'
  | '\x0c' => some 'f'
  | _ => none

/-- The character that a letter after a backslash stands for. -/
def escapedChar? : Char → Option Char
  | 't' => some '\t'
  | 'r' => some '\r'
  | 'n' => some '\n'
  | 'b' => some '\x08'
  | 'f' => some '\x0c'
  | '\\' => some '\\'
  | '"' => some '"'
  | _ => none

/-- What a character is escaped with stands for the character. -/
theorem escapedChar?_of_escapeLetter? {c letter : Char} (h : escapeLetter? c = some letter) :
  escapedChar? letter = some c
  := by
  unfold escapeLetter? at h
  split at h <;> simp_all [escapedChar?] <;> subst h <;> rfl

/-- What stands for a character is what it is escaped with. -/
theorem escapeLetter?_of_escapedChar? {c letter : Char} (h : escapedChar? letter = some c) :
  escapeLetter? c = some letter
  := by
  unfold escapedChar? at h
  split at h <;> simp_all [escapeLetter?] <;> subst h <;> rfl

/-- The written form of one character inside quotes. -/
def quoteChar (c : Char) : List Char :=
  match escapeLetter? c with
  | some letter => ['\\', letter]
  | none => [c]

/-- The written form of a string, quotes included. -/
def quoted (s : String) : String :=
  String.ofList ('"' :: s.toList.flatMap quoteChar ++ ['"'])

/-- A quoted text is its characters between quotes, each escaped if it has to be. -/
@[simp]
theorem toList_quoted (s : String) :
  (quoted s).toList = '"' :: s.toList.flatMap quoteChar ++ ['"']
  := by
  simp [quoted]

end PocketLisp.Text
