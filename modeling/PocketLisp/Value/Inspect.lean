import PocketLisp.Decimal.Layout
import PocketLisp.Text.Escaped
import PocketLisp.Value.Basic

/-!
# Inspected form of values

`Value.inspect` shows a value as a term with the name of its constructor, for people who look
inside the interpreter.
-/

namespace PocketLisp.Value

mutual

/-- The inspected form of a value. -/
def inspect : Value → String
  | integer n => "Integer(" ++ toString n.toInt ++ ")"
  | float x => "Float(" ++ FloatFormat.compact.write x ++ ")"
  | string s => "String(" ++ Text.showString s ++ ")"
  | char c => "Char(" ++ Text.showChar c ++ ")"
  | boolean true => "Bool(true)"
  | boolean false => "Bool(false)"
  | nil => "Nil"
  | symbol name => "Symbol(" ++ name ++ ")"
  | keyword name => "Keyword(" ++ name ++ ")"
  | list items => "List([" ++ inspectItems items ++ "])"
  | vector items => "Vector([" ++ inspectItems items ++ "])"
  | map entries => "Map(\x7b" ++ inspectEntries entries ++ "\x7d)"
  | procedure p => inspectProcedure p
  | primitive p => "Primitive(" ++ p.id ++ ")"
  | specialForm form => "SpecialForm(" ++ form.id ++ ")"
  | native n => "Native(" ++ n.name ++ ")"

/-- The inspected forms of elements, a comma between each two. -/
def inspectItems : List Value → String
  | [] => ""
  | [item] => item.inspect
  | item :: items => item.inspect ++ ", " ++ inspectItems items

/-- The inspected forms of entries, a comma between each two. -/
def inspectEntries : List (Value × Value) → String
  | [] => ""
  | [(key, value)] => key.inspect ++ ": " ++ value.inspect
  | (key, value) :: entries =>
    key.inspect ++ ": " ++ value.inspect ++ ", " ++ inspectEntries entries

/-- The inspected form of a procedure, without its scope, which may hold the procedure. -/
def inspectProcedure : Closure Value → String
  | { name, params, body, .. } =>
    let nameText :=
      match name with
      | some name => "Some(" ++ Text.showString name ++ ")"
      | none => "None"
    "Procedure \x7b name: " ++ nameText ++
      ", params: [" ++ ", ".intercalate (params.map Text.showString) ++
      "], body: [" ++ inspectItems body ++ "], .. \x7d"

end

/-- The inspected form of the entries of a map. -/
def inspectMap (entries : List (Value × Value)) : String :=
  "\x7b" ++ inspectEntries entries ++ "\x7d"

end PocketLisp.Value
