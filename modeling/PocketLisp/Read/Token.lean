import PocketLisp.Decimal.Literal
import PocketLisp.Read.Error
import PocketLisp.Text.Blank

/-!
# Tokens

The characters fall into separators, delimiters and others.  A token is a row of others; it is a
number, a reserved word, a keyword or a symbol.  Strings and character literals are delimited
by their own characters.

A reading function is given the text from the first character on and returns what it read and
the text after it.  A failure holds the text from the place of the fault on.
-/

namespace PocketLisp.Read

/-- A fault, and the text from its place on. -/
structure Failure where
  fault : ReadFault
  rest : List Char

/-- What was read, and the text after it. -/
abbrev Result (α : Type) := Except Failure (α × List Char)

/-! ### Classes of characters -/

/-- Commas separate forms as blanks do. -/
def isSeparator (c : Char) : Bool :=
  Text.isBlank c || c == ','

/-- The characters that begin or end strings, comments, collections and character literals. -/
def isDelimiter (c : Char) : Bool :=
  ['"', ';', '(', ')', '[', ']', '{', '}', '\\'].contains c

/-- The characters that no token may contain. -/
def isReserved (c : Char) : Bool :=
  ['@', '\x60', '~'].contains c

/-- The characters that end a token before them. -/
def endsToken (c : Char) : Bool :=
  isSeparator c || isDelimiter c

/-- The token at the beginning of a text, and the text after it. -/
def splitToken (text : List Char) : List Char × List Char :=
  text.span fun c => !endsToken c

/-- Skips separators and comments; `inComment` says whether the text begins inside a comment, which
ends before the next line feed or carriage return. -/
def skipAtmosphereFrom : (inComment : Bool) → List Char → List Char
  | _, [] => []
  | true, c :: text => skipAtmosphereFrom (c != '\n' && c != '\r') text
  | false, c :: text =>
    if isSeparator c then skipAtmosphereFrom false text
    else if c = ';' then skipAtmosphereFrom true text
    else c :: text

/-- Skips separators and comments. -/
def skipAtmosphere (text : List Char) : List Char :=
  skipAtmosphereFrom false text

/-! ### Numbers and words -/

/-- Whether a form is a number: it begins with a digit, or with a sign and a digit. -/
def startsNumber : List Char → Bool
  | '+' :: c :: _ => c.isDigit
  | '-' :: c :: _ => c.isDigit
  | c :: _ => c.isDigit
  | [] => false

/-- Reads a number, an integer if it can be one and a float otherwise. -/
def number (text : List Char) : Result Value :=
  let (token, rest) := splitToken text
  match Literal.integer? token with
  | .ok n => .ok (.integer n, rest)
  | .error _ =>
    match Literal.float? token with
    | .ok x => .ok (.float x, rest)
    | .error _ => .error ⟨.invalidNumber (String.ofList token), text⟩

/-- What a token stands for that is no number. -/
def wordValue (token : List Char) : Value :=
  match token with
  | ':' :: name => .keyword (String.ofList name)
  | token =>
    match String.ofList token with
    | "nil" => .nil
    | "true" => .boolean true
    | "false" => .boolean false
    | name => .symbol name

/-- Reads a reserved word, a keyword or a symbol. -/
def word (text : List Char) : Result Value :=
  let (token, rest) := splitToken text
  match token.find? isReserved with
  | some c => .error ⟨.invalidConstituent c (String.ofList token), text⟩
  | none => .ok (wordValue token, rest)

/-! ### Strings and characters -/

/-- Reads a string after its opening quote; `start` is the text from that quote on, and `read`
holds the characters before, the last one first. -/
def stringFrom (start : List Char) : (read : List Char) → List Char → Result Value
  | _, [] => .error ⟨.unterminatedString, start⟩
  | read, '"' :: rest => .ok (.string (String.ofList read.reverse), rest)
  | _, ['\\'] => .error ⟨.unterminatedString, start⟩
  | read, '\\' :: letter :: rest =>
    match Text.escapedChar? letter with
    | some c => stringFrom start (c :: read) rest
    | none => .error ⟨.unsupportedEscape letter, '\\' :: letter :: rest⟩
  | read, c :: rest => stringFrom start (c :: read) rest

/-- The characters that have names. -/
def namedChar? : String → Option Char
  | "newline" => some '\n'
  | "space" => some ' '
  | "tab" => some '\t'
  | "backspace" => some '\x08'
  | "formfeed" => some '\x0c'
  | "return" => some '\r'
  | _ => none

/-- Reads a character literal after its backslash; `start` is the text from the backslash on.
The first character is taken as it is, even if it ends tokens. -/
def charAfter (start : List Char) : List Char → Result Value
  | [] => .error ⟨.unterminatedCharacter, start⟩
  | first :: text =>
    let (tail, rest) := splitToken text
    let token := String.ofList (first :: tail)
    match tail, tail.find? isReserved with
    | [], _ => .ok (.char first, rest)
    | _, some c => .error ⟨.invalidConstituent c token, start⟩
    | _, none =>
      match namedChar? token with
      | some c => .ok (.char c, rest)
      | none => .error ⟨.unsupportedCharacter token, start⟩

end PocketLisp.Read
