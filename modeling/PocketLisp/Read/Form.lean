import PocketLisp.Read.Token
import PocketLisp.Value.Entries

/-!
# Forms

A form is a number, a word, a string, a character or a collection of forms.  `Read.form` reads
one; it decides by the first character which it is.
-/

namespace PocketLisp.Read

/-- The deepest nesting of collections that is read unless asked for otherwise. -/
def nestingLimit : Nat := 256

/-- The entries of a map literal with the given forms: keys and values in turn, and no two keys
equal.  `entries` are those before them. -/
def mapEntries : (entries : Entries) → List Value → Except ReadFault Entries
  | entries, [] => .ok entries
  | entries, key :: value :: items =>
    if Entries.contains entries key then .error (.duplicateKey key)
    else mapEntries (Entries.insert entries key value) items
  | _, [_] => .error .oddMap

/-- The map that a map literal with the given forms stands for.  That their number is even is
checked first. -/
def mapOfItems (items : List Value) : Except ReadFault Value :=
  if items.length % 2 = 0 then (mapEntries [] items).map Value.map else .error .oddMap

/-- The collections: their delimiters, and what becomes of their items. -/
inductive Collection where
  | list
  | vector
  | map

namespace Collection

def opening : Collection → Char
  | list => '('
  | vector => '['
  | map => '{'

def closing : Collection → Char
  | list => ')'
  | vector => ']'
  | map => '}'

/-- The collection that a character opens. -/
def ofOpening? : Char → Option Collection
  | '(' => some list
  | '[' => some vector
  | '{' => some map
  | _ => none

/-- The value of a collection with the given items. -/
def value : Collection → List Value → Except ReadFault Value
  | list, items => .ok (.list items)
  | vector, items => .ok (.vector items)
  | map, items => mapOfItems items

end Collection

/-- Whether a character closes some collection. -/
def isClosing (c : Char) : Bool :=
  [')', ']', '}'].contains c

/-- Reads a form that is no collection; the text begins with its first character. -/
def atom (text : List Char) : Result Value :=
  if startsNumber text then number text
  else
    match text with
    | [] => .error ⟨.unexpectedEnd, text⟩
    | '"' :: rest => stringFrom text [] rest
    | '\\' :: rest => charAfter text rest
    | c :: _ =>
      if isClosing c then .error ⟨.unmatchedDelimiter c, text⟩
      else if isReserved c then .error ⟨.invalidLeading c, text⟩
      else word text

mutual

/-- Reads a form at a depth of nesting; the text begins with its first character. -/
def formAt (limit : Nat) : (fuel : Nat) → (depth : Nat) → List Char → Result Value
  | 0, _, text => .error ⟨.unexpectedEnd, text⟩
  | fuel + 1, depth, text =>
    match text with
    | [] => .error ⟨.unexpectedEnd, text⟩
    | c :: rest =>
      match Collection.ofOpening? c with
      | none => atom text
      | some collection =>
        if limit ≤ depth then .error ⟨.tooDeeplyNested c limit, text⟩
        else
          match itemsAt limit fuel (depth + 1) collection text [] rest with
          | .error failure => .error failure
          | .ok (items, rest) =>
            match collection.value items with
            | .ok v => .ok (v, rest)
            | .error fault => .error ⟨fault, text⟩

/-- Reads the items of a collection up to its closing delimiter, at the depth of the items;
`start` is the text from the opening delimiter on, and `items` are those before, the last one
first. -/
def itemsAt (limit : Nat) :
    (fuel : Nat) → (depth : Nat) → Collection → (start : List Char) → (items : List Value) →
      List Char → Result (List Value)
  | 0, _, _, start, _, _ => .error ⟨.unexpectedEnd, start⟩
  | fuel + 1, depth, collection, start, items, text =>
    match skipAtmosphere text with
    | [] => .error ⟨.missingDelimiter collection.opening collection.closing, start⟩
    | c :: rest =>
      if c = collection.closing then .ok (items.reverse, rest)
      else
        match formAt limit fuel depth (c :: rest) with
        | .error failure => .error failure
        | .ok (item, rest) => itemsAt limit fuel depth collection start (item :: items) rest

end

/-- Reads a form; the text begins with its first character.  Reading a form and reading the
items of a collection take turns, and of two turns one takes a character. -/
def form (limit : Nat) (text : List Char) : Result Value :=
  formAt limit (2 * text.length + 1) 0 text

end PocketLisp.Read
