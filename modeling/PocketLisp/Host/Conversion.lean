import PocketLisp.Number
import PocketLisp.Value.Entries

/-!
# Conversion between host data and values

`ToValue` makes values of host data; the other direction may fail, because a value can be of
any kind.
-/

namespace PocketLisp

/-- Types whose members are made into values. -/
class ToValue (α : Type) where
  toValue : α → Value

export ToValue (toValue)

section

variable {α β γ : Type}

instance : ToValue Value := ⟨fun v => v⟩

instance : ToValue Int64 := ⟨.integer⟩

instance : ToValue Int32 := ⟨fun n => .integer n.toInt64⟩

instance : ToValue Int16 := ⟨fun n => .integer n.toInt64⟩

instance : ToValue Int8 := ⟨fun n => .integer n.toInt64⟩

instance : ToValue UInt32 := ⟨fun n => .integer (Int64.ofNat n.toNat)⟩

instance : ToValue UInt16 := ⟨fun n => .integer (Int64.ofNat n.toNat)⟩

instance : ToValue UInt8 := ⟨fun n => .integer (Int64.ofNat n.toNat)⟩

instance : ToValue Float := ⟨.float⟩

instance : ToValue Float32 := ⟨fun x => .float x.toFloat⟩

instance : ToValue Number := ⟨Number.toValue⟩

instance : ToValue String := ⟨.string⟩

instance : ToValue Char := ⟨.char⟩

instance : ToValue Bool := ⟨.boolean⟩

/-- A function without a result returns the absent value. -/
instance : ToValue Unit := ⟨fun _ => .nil⟩

instance [ToValue α] : ToValue (Option α) := ⟨fun x => x.elim .nil toValue⟩

instance [ToValue α] : ToValue (List α) := ⟨fun xs => .list (xs.map toValue)⟩

/-- Two results come back as a list. -/
instance [ToValue α] [ToValue β] : ToValue (α × β) :=
  ⟨fun (a, b) => .list [toValue a, toValue b]⟩

/-- Three results come back as one list. -/
instance [ToValue α] [ToValue β] [ToValue γ] : ToValue (α × β × γ) :=
  ⟨fun (a, b, c) => .list [toValue a, toValue b, toValue c]⟩

/-- A vector of the values made of `items`. -/
def Value.vectorOf [ToValue α] (items : List α) : Value :=
  .vector (items.map toValue)

/-- A map of the values made of `pairs`. -/
def Value.mapOf [ToValue α] [ToValue β] (pairs : List (α × β)) : Value :=
  .map (Entries.ofList (pairs.map fun pair => (toValue pair.1, toValue pair.2)))

end

/-- The error that `v` is not of type `expected`. -/
def Value.mismatch (expected : ValueType) (v : Value) : Error :=
  .ofType (.mismatch expected v.kind)

namespace Value

def toInteger : Value → Except Error Int64
  | integer n => .ok n
  | v => .error (v.mismatch .integer)

def toFloat : Value → Except Error Float
  | float x => .ok x
  | v => .error (v.mismatch .float)

def toNumber : Value → Except Error Number
  | integer n => .ok (.integer n)
  | float x => .ok (.float x)
  | v => .error (v.mismatch .number)

def toBoolean : Value → Except Error Bool
  | boolean b => .ok b
  | v => .error (v.mismatch .boolean)

def toChar : Value → Except Error Char
  | char c => .ok c
  | v => .error (v.mismatch .char)

def toText : Value → Except Error String
  | string s => .ok s
  | v => .error (v.mismatch .string)

def toSequence : Value → Except Error (List Value)
  | list items => .ok items
  | vector items => .ok items
  | v => .error (v.mismatch .sequence)

end Value

end PocketLisp
