import PocketLisp.Read.Token

/-!
# Extent of a form

`Read.skipForm` finds the end of a form by its delimiters alone, whatever is wrong inside it.
After a failure the next form is looked for from there on.
-/

namespace PocketLisp.Read

/-- Where a scan is: among forms, inside a string or after a backslash in it, after the backslash
of a character literal, or inside a comment. -/
inductive ScanMode where
  | forms
  | string
  | stringEscape
  | character
  | comment

/-- The text after the form in which a scan is, at a depth of nesting.  `started` says whether a
character of the form was passed.  A stray closing delimiter is a form of its own.  A comment ends
at a line feed. -/
def skipFrom : (started : Bool) → (depth : Nat) → ScanMode → List Char → List Char
  | _, _, _, [] => []
  | started, depth, .forms, c :: rest =>
    if started && depth == 0 && endsToken c then c :: rest
    else
      match c with
      | '(' | '[' | '{' => skipFrom true (depth + 1) .forms rest
      | ')' | ']' | '}' => if depth ≤ 1 then rest else skipFrom true (depth - 1) .forms rest
      | '"' => skipFrom true depth .string rest
      | '\\' => skipFrom true depth .character rest
      | ';' => skipFrom true depth .comment rest
      | _ => skipFrom true depth .forms rest
  | _, depth, .string, '\\' :: rest => skipFrom true depth .stringEscape rest
  | _, depth, .string, '"' :: rest => if depth = 0 then rest else skipFrom true depth .forms rest
  | _, depth, .string, _ :: rest => skipFrom true depth .string rest
  | _, depth, .stringEscape, _ :: rest => skipFrom true depth .string rest
  | _, depth, .character, _ :: rest => skipFrom true depth .forms rest
  | _, depth, .comment, c :: rest =>
    skipFrom true depth (if c = '\n' then .forms else .comment) rest

/-- The text after a form; nothing if the form does not end. -/
def skipForm (text : List Char) : List Char :=
  skipFrom false 0 .forms text

end PocketLisp.Read
