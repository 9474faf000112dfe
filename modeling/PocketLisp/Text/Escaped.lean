import PocketLisp.Text.Unprintable

/-!
# Escaped characters

For inspection, and in messages, a character or a string is shown with a backslash before the
delimiter, letters for the common controls, and the code point in hexadecimal for whatever
cannot be shown for itself.
-/

namespace PocketLisp.Text

/-- The code point of a character in hexadecimal, as in an escape. -/
def codePointEscape (c : Char) : String :=
  "\\u\x7b" ++ String.ofList (Nat.toDigits 16 c.toNat) ++ "\x7d"

/-- A character as it is shown between two copies of `delimiter`. -/
def escapeChar (delimiter c : Char) : String :=
  match c with
  | '\x00' => "\\0"
  | '\t' => "\\t"
  | '\r' => "\\r"
  | '\n' => "\\n"
  | '\\' => "\\\\"
  | c =>
    if c = delimiter then String.ofList ['\\', c]
    else if isUnprintable c then codePointEscape c
    else c.toString

/-- The apostrophe, which delimits a character. -/
def apostrophe : Char := '\x27'

/-- A character between apostrophes. -/
def showChar (c : Char) : String :=
  apostrophe.toString ++ escapeChar apostrophe c ++ apostrophe.toString

/-- A string between double quotes. -/
def showString (s : String) : String :=
  "\"" ++ String.join (s.toList.map (escapeChar '"')) ++ "\""

end PocketLisp.Text
