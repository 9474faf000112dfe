import PocketLisp.Host.Operation
import PocketLisp.Value.Text

/-!
# What the primitives compute

Each primitive is a typed operation.  `Primitive.call` first checks the arity of the table,
which says the same as the parameters of the operation.
-/

namespace PocketLisp.Primitive

/-- Applies an operation to numbers from the left; a single number is the right operand, and
the left one is `unit`. -/
def foldFrom (op : ArithmeticOp) (unit first : Number) (rest : List Number) :
    Except Error Value :=
  let result :=
    match rest with
    | [] => unit.apply op first
    | rest => first.fold op rest
  result.map toValue

/-- The elements of a list or a vector; the absent value has none. -/
def elements (p : Primitive) (v : Value) : Except Error (List Value) :=
  match v with
  | .list items => .ok items
  | .vector items => .ok items
  | .nil => .ok []
  | v => .error (.ofType (.notSequence p v.kind))

/-- The number of elements, entries or characters.  There is no error for a number that is not in the
range of `Int64`: no collection that fits into memory has so many elements. -/
def size : Value → Except Error Nat
  | .list items => .ok items.length
  | .vector items => .ok items.length
  | .map entries => .ok entries.length
  | .string s => .ok s.length
  | .nil => .ok 0
  | v => .error (.ofType (.notCountable v.kind))

/-- The text of a value inside a string: strings and characters stand for themselves, and the
absent value for nothing. -/
def plainText : Value → String
  | .string s => s
  | .char c => c.toString
  | .nil => ""
  | v => v.text

/-- A comparison of each two neighbours. -/
def comparison (relation : Number.Comparison) : Operation (Except Error Value) where
  params := [.number]
  rest := some .number
  function := fun first rest => .ok (toValue (first.chained relation rest))

/-- A fold over numbers that has a value for none. -/
def total (op : ArithmeticOp) (unit : Int64) : Operation (Except Error Value) where
  params := []
  rest := some .number
  function := fun numbers => ((Number.integer unit).fold op numbers).map toValue

/-- A fold over numbers that needs a first one. -/
def reduction (op : ArithmeticOp) (unit : Int64) : Operation (Except Error Value) where
  params := [.number]
  rest := some .number
  function := foldFrom op (.integer unit)

/-- The operation of a primitive. -/
def operation : Primitive → Operation (Except Error Value)
  | add => total .addition 0
  | subtract => reduction .subtraction 0
  | multiply => total .multiplication 1
  | divide => reduction .division 1
  | less => comparison .less
  | lessOrEqual => comparison .lessOrEqual
  | greater => comparison .greater
  | greaterOrEqual => comparison .greaterOrEqual
  | equal =>
    ⟨[.any], some .any, fun first rest =>
      .ok (.boolean (rest.all fun v => first.sameKind v && first.equal v))⟩
  | list => ⟨[], some .any, fun items => .ok (.list items)⟩
  | not => ⟨[.any], none, fun v => .ok (.boolean !v.truthy)⟩
  | first => ⟨[.any], none, fun v => (elements .first v).map fun items => items.headD .nil⟩
  | rest => ⟨[.any], none, fun v => (elements .rest v).map fun items => .list items.tail⟩
  | cons => ⟨[.any, .any], none, fun item v =>
      (elements .cons v).map fun items => .list (item :: items)⟩
  | count => ⟨[.any], none, fun v => (size v).map fun n => .integer (Int64.ofNat n)⟩
  | str => ⟨[], some .any, fun items => .ok (.string (String.join (items.map plainText)))⟩

/-- Runs the operation alone, which checks its arguments by its parameters. -/
def adapt (p : Primitive) (args : List Value) : Except Error Value := do
  ← p.operation.apply args

/-- Checks the number of arguments and runs the operation. -/
def call (p : Primitive) (args : List Value) : Except Error Value := do
  p.arity.validate args.length
  p.adapt args

end PocketLisp.Primitive
