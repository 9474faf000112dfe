import PocketLisp.Error
import PocketLisp.Read.Extent
import PocketLisp.Read.Form

/-!
# Readers

A `Reader` takes the forms of a source one by one.  After a failure it goes on behind the form
that failed; an incomplete form takes the rest of the source with it.
-/

namespace PocketLisp

/-- A source, what is left of it, and the deepest nesting that is read. -/
structure Reader where
  source : List Char
  rest : List Char
  limit : Nat

namespace Reader

/-- A reader at the beginning of a source. -/
def ofSource (source : String) (limit : Nat) : Reader :=
  ⟨source.toList, source.toList, limit⟩

/-- The offset of the next character. -/
def offset (reader : Reader) : Nat :=
  Text.utf8Length reader.source - Text.utf8Length reader.rest

/-- The error of a failure, located in a source. -/
def locate (source : List Char) (failure : Read.Failure) : ReadError :=
  let offset := Text.utf8Length source - Text.utf8Length failure.rest
  .located failure.fault failure.fault.found source offset

/-- The next form, or none if only separators and comments are left; and the reader after it. -/
def next (reader : Reader) : Except ReadError (Option Value) × Reader :=
  match Read.skipAtmosphere reader.rest with
  | [] => (.ok none, { reader with rest := [] })
  | text =>
    match Read.form reader.limit text with
    | .ok (form, rest) => (.ok (some form), { reader with rest := rest })
    | .error failure =>
      let rest := if failure.fault.kind = .incomplete then [] else Read.skipForm text
      (.error (locate reader.source failure), { reader with rest := rest })

/-- The outcomes of all calls of `next` up to the first without a form, each with the reader
after it, but no more than `fuel` of them. -/
def outcomes : (fuel : Nat) → Reader → List (Except ReadError Value × Reader)
  | 0, _ => []
  | fuel + 1, reader =>
    match reader.next with
    | (.ok none, _) => []
    | (.ok (some form), reader) => (.ok form, reader) :: outcomes fuel reader
    | (.error e, reader) => (.error e, reader) :: outcomes fuel reader

/-- All forms and errors that are left, each with the reader after it.  Every one of them takes
a character. -/
def all (reader : Reader) : List (Except ReadError Value × Reader) :=
  reader.outcomes reader.rest.length

/-- The forms and errors of a source. -/
def results (source : String) : List (Except ReadError Value) :=
  ((ofSource source Read.nestingLimit).all).map Prod.fst

/-- Fails unless only separators and comments are left. -/
def expectEnd (reader : Reader) : Except ReadError Unit :=
  match Read.skipAtmosphere reader.rest with
  | [] => .ok ()
  | rest =>
    let found := String.ofList ((rest.takeWhile fun c => !Read.isSeparator c).take 20)
    .error (locate reader.source ⟨.trailingContent found, rest⟩)

/-- The one form of a source. -/
def readOne (source : String) : Except ReadError Value :=
  match (ofSource source Read.nestingLimit).next with
  | (.error e, _) => .error e
  | (.ok none, _) => .error (.bare .noForm)
  | (.ok (some form), reader) => reader.expectEnd.map fun _ => form

/-- All forms of a source, or the first error. -/
def readAll (source : String) : Except ReadError (List Value) :=
  (results source).mapM id

end Reader

end PocketLisp
