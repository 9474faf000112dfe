import PocketLisp.Decimal.Layout
import PocketLisp.Text.Escaped
import PocketLisp.Text.Quoted
import PocketLisp.Value.Basic

/-!
# Printed form of values

`Value.text` is the printed form.  The printed form of data reads back as the same data, but
for characters, which are shown between apostrophes, and infinite floats.  Callables are shown
by kind and name.
-/

namespace PocketLisp

/-- A callable by its kind and its name. -/
def labelled (kind name : String) : String :=
  "#<" ++ kind ++ " " ++ name ++ ">"

namespace Value

mutual

/-- The printed form of a value. -/
def text : Value → String
  | integer n => toString n.toInt
  | float x => FloatFormat.plain.write x
  | string s => Text.quoted s
  | char c => Text.showChar c
  | boolean true => "true"
  | boolean false => "false"
  | nil => "nil"
  | symbol name => name
  | keyword name => ":" ++ name
  | list items => "(" ++ itemsText items ++ ")"
  | vector items => "[" ++ itemsText items ++ "]"
  | map entries => "\x7b" ++ entriesText entries ++ "\x7d"
  | procedure { name := some name, .. } => labelled "fn" name
  | procedure { name := none, .. } => "#<fn>"
  | primitive p => labelled "primitive" p.id
  | specialForm form => labelled "special-form" form.id
  | native n => labelled "native" n.name

/-- The printed forms of elements, a space between each two. -/
def itemsText : List Value → String
  | [] => ""
  | [item] => item.text
  | item :: items => item.text ++ " " ++ itemsText items

/-- The printed forms of entries, a comma and a space between each two. -/
def entriesText : List (Value × Value) → String
  | [] => ""
  | [(key, value)] => key.text ++ " " ++ value.text
  | (key, value) :: entries => key.text ++ " " ++ value.text ++ ", " ++ entriesText entries

end

/-- The kind and the printed form of a value, as messages name it. -/
def described (v : Value) : String :=
  v.kind.text ++ " " ++ v.text

end Value

end PocketLisp
