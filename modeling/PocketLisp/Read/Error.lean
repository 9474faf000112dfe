import PocketLisp.Text.Escaped
import PocketLisp.Text.Location
import PocketLisp.Value.Text

/-!
# Reading errors

A `ReadFault` is what is wrong with a text.  A `ReadError` is a fault with its surroundings:
the text that was found, a stretch of the source around it, and its location.
-/

namespace PocketLisp

/-- The kinds of reading error. -/
inductive ReadErrorKind where
  | invalidSyntax
  /-- The text ended within a form; more text may complete it. -/
  | incomplete
  | unmatchedDelimiter
  | unsupported
  | tooDeeplyNested
  | trailingContent
deriving DecidableEq

namespace ReadErrorKind

/-- All kinds of reading error. -/
def all : List ReadErrorKind :=
  [invalidSyntax, incomplete, unmatchedDelimiter, unsupported, tooDeeplyNested, trailingContent]

def name : ReadErrorKind → String
  | invalidSyntax => "InvalidSyntax"
  | incomplete => "Incomplete"
  | unmatchedDelimiter => "UnmatchedDelimiter"
  | unsupported => "Unsupported"
  | tooDeeplyNested => "TooDeeplyNested"
  | trailingContent => "TrailingContent"

/-- The kind of a name. -/
def ofName? (name : String) : Option ReadErrorKind :=
  all.find? (·.name == name)

end ReadErrorKind

/-- What is wrong with a text. -/
inductive ReadFault where
  /-- A form was due where the text ends. -/
  | unexpectedEnd
  /-- There is no form in the text. -/
  | noForm
  | unterminatedString
  | unterminatedCharacter
  /-- The collection that `opening` begins lacks its `closing`. -/
  | missingDelimiter (opening closing : Char)
  /-- A closing delimiter closes nothing. -/
  | unmatchedDelimiter (closing : Char)
  /-- A form begins with a reserved character. -/
  | invalidLeading (c : Char)
  /-- A reserved character stands in a token. -/
  | invalidConstituent (c : Char) (token : String)
  | invalidNumber (token : String)
  | unsupportedEscape (letter : Char)
  | unsupportedCharacter (token : String)
  | tooDeeplyNested (opening : Char) (limit : Nat)
  /-- A map literal has a key without a value. -/
  | oddMap
  | duplicateKey (key : Value)
  /-- After the one form that was due there is more. -/
  | trailingContent (found : String)
  /-- A fault stated from outside in words of its own. -/
  | stated (kind : ReadErrorKind) (message : String)

namespace ReadFault

/-- The kind of error that a fault is. -/
def kind : ReadFault → ReadErrorKind
  | unexpectedEnd | noForm | unterminatedString | unterminatedCharacter
  | missingDelimiter _ _ => .incomplete
  | unmatchedDelimiter _ => .unmatchedDelimiter
  | invalidLeading _ | invalidConstituent _ _ | invalidNumber _ | oddMap | duplicateKey _ =>
    .invalidSyntax
  | unsupportedEscape _ | unsupportedCharacter _ => .unsupported
  | tooDeeplyNested _ _ => .tooDeeplyNested
  | trailingContent _ => .trailingContent
  | stated kind _ => kind

/-- The fault in words. -/
def message : ReadFault → String
  | unexpectedEnd => "Unexpected end of input"
  | noForm => "Unexpected end of input: no form to read"
  | unterminatedString => "Unterminated string literal"
  | unterminatedCharacter => "Unexpected end of input in character literal"
  | missingDelimiter _ closing =>
    "Unexpected end of input: missing " ++ Text.apostrophe.toString ++ closing.toString ++
      Text.apostrophe.toString
  | unmatchedDelimiter _ => "Unmatched delimiter"
  | invalidLeading c => "Invalid leading character: " ++ Text.showChar c
  | invalidConstituent c _ => "Invalid constituent character: " ++ Text.showChar c
  | invalidNumber token => "Invalid number: " ++ token
  | unsupportedEscape letter => "Unsupported escape character: \\" ++ letter.toString
  | unsupportedCharacter token => "Unsupported character: \\" ++ token
  | tooDeeplyNested _ limit =>
    "Expression too deeply nested (max depth: " ++ toString limit ++ ")"
  | oddMap => "Map literal must contain an even number of forms"
  | duplicateKey key => "Duplicate key in map literal: " ++ key.text
  | trailingContent _ => "Unexpected remaining input"
  | stated _ message => message

/-- The text at fault, where one can be named. -/
def found : ReadFault → Option String
  | missingDelimiter opening _ => some opening.toString
  | unmatchedDelimiter closing => some closing.toString
  | invalidLeading c => some c.toString
  | invalidConstituent _ token => some token
  | invalidNumber token => some token
  | unsupportedEscape letter => some ("\\" ++ letter.toString)
  | unsupportedCharacter token => some ("\\" ++ token)
  | tooDeeplyNested opening _ => some opening.toString
  | duplicateKey key => some key.text
  | trailingContent found => some found
  | unexpectedEnd | noForm | unterminatedString | unterminatedCharacter | oddMap
  | stated _ _ => none

end ReadFault

/-- A fault with its surroundings, as far as they are known. -/
structure ReadError where
  fault : ReadFault
  found : Option String
  context : Option String
  location : Option Text.Location

namespace ReadError

/-- A fault without surroundings. -/
def bare (fault : ReadFault) : ReadError :=
  ⟨fault, fault.found, none, none⟩

/-- At most a hundred characters of the source, from twenty before the offset on, on one line.
Dots in brackets stand for what is left out.  An offset that is at no character counts as the
beginning. -/
def excerpt (source : List Char) (offset : Nat) : String :=
  let first := ((Text.before? source offset).elim 0 List.length) - 20
  let shown := (source.drop first).take 100
  let leading := if 0 < first then "[...]" else ""
  let trailing := if first + shown.length < source.length then "[...]" else ""
  let onOneLine := shown.flatMap fun c =>
    if c = '\n' then ['\\', 'n'] else if c = '\r' then [] else [c]
  leading ++ String.ofList onOneLine ++ trailing

/-- A fault at an offset of the source. -/
def located (fault : ReadFault) (found : Option String) (source : List Char) (offset : Nat) :
    ReadError :=
  ⟨fault, found, some (excerpt source offset), some (.ofOffset source offset)⟩

def kind (e : ReadError) : ReadErrorKind :=
  e.fault.kind

/-- The error in words: the fault, and below it what was found and the context. -/
def message (e : ReadError) : String :=
  e.fault.message ++
    e.location.elim "" (fun place => " (" ++ place.text ++ ")") ++
    e.found.elim "" ("\nFound: " ++ ·) ++
    e.context.elim "" ("\nContext: " ++ ·)

end ReadError

end PocketLisp
