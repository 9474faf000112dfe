import PocketLisp.Host.ValueType
import PocketLisp.Read.Error

/-!
# Errors

`Error` is whatever can go wrong while a text is read or an expression is evaluated.  Each
error holds its cause; `Error.message` is the wording.  Faults of evaluation and of types also
carry the trail of the expressions that were under evaluation.
-/

namespace PocketLisp

/-- The four arithmetic operations. -/
inductive ArithmeticOp where
  | addition
  | subtraction
  | multiplication
  | division
deriving DecidableEq

/-- The name of an operation in messages. -/
def ArithmeticOp.text : ArithmeticOp → String
  | addition => "addition"
  | subtraction => "subtraction"
  | multiplication => "multiplication"
  | division => "division"

/-- A failure of an operation on arguments of the right types. -/
inductive EvalFault where
  | divisionByZero
  | overflow (op : ArithmeticOp)
  | keyNotFound (key : Value)
  | duplicateParameter (name : String)
  /-- A fault that a native function states in words of its own. -/
  | stated (message : String)

/-- The fault in words. -/
def EvalFault.message : EvalFault → String
  | divisionByZero => "Division by zero"
  | overflow op => "Integer overflow in " ++ op.text
  | keyNotFound key => "Key not found: " ++ key.text
  | duplicateParameter name => "Duplicate parameter name: " ++ name
  | stated message => message

/-- A value of the wrong type. -/
inductive TypeFault where
  /-- A value was due to have a type. -/
  | mismatch (expected : ValueType) (found : Kind)
  /-- The argument at a position, counted from one, does not fit the signature. -/
  | argument (position : Nat) (expected : ValueType) (found : Value)
  /-- A fault in the arguments of the named native function. -/
  | calling (native : String) (fault : TypeFault)
  | notSequence (p : Primitive) (found : Kind)
  | notCountable (found : Kind)
  /-- A form that binds a name was given something else. -/
  | notName (form : SpecialForm) (found : Value)
  | parametersNotVector (form : SpecialForm) (found : Value)
  | parameterNotSymbol (form : SpecialForm) (found : Value)
  /-- A fault that a native function states in words of its own. -/
  | stated (message : String)

/-- The fault in words. -/
def TypeFault.message : TypeFault → String
  | mismatch expected found => "expected " ++ expected.text ++ ", got " ++ found.text
  | argument position expected found =>
    "argument " ++ toString position ++ " must be " ++ expected.text ++ ", got " ++
      found.described
  | calling native fault => native ++ ": " ++ fault.message
  | notSequence p found => p.id ++ ": expected list or vector, got " ++ found.text
  | notCountable found => "count: not supported on " ++ found.text
  | notName form found => form.id ++ " requires a symbol, got " ++ found.described
  | parametersNotVector form found =>
    form.id ++ " parameters must be a vector, got " ++ found.described
  | parameterNotSymbol form found =>
    form.id ++ " parameters must be symbols, got " ++ found.described
  | stated message => message

/-- A value in the place of a callable. -/
inductive ApplicationFault where
  | notCallable (found : Value)
  /-- A key was due to be looked up in something that is no map. -/
  | notMap (key found : Value)
  /-- A fault that a native function states in words of its own. -/
  | stated (message : String)

/-- The fault in words. -/
def ApplicationFault.message : ApplicationFault → String
  | notCallable found => found.kind.text ++ " is not callable: " ++ found.text
  | notMap key found =>
    "cannot look up " ++ key.text ++ " in " ++ found.kind.text ++ ": " ++ found.text
  | stated message => message

/-- Whatever can go wrong.  A trail lists the printed forms of the expressions under
evaluation, the outermost first. -/
inductive Error where
  | read (e : ReadError)
  | evaluation (fault : EvalFault) (trail : List String)
  | type (fault : TypeFault) (trail : List String)
  | unbound (name : String)
  /-- A wrong argument count; the expression is the call, once it is known. -/
  | arity (expected : Arity) (got : Nat) (expression : Option String)
  | application (fault : ApplicationFault)
  /-- A failure inside a native function. -/
  | host (message : String)
  | depthExceeded (limit : Nat)

/-- The kinds of error. -/
inductive ErrorKind where
  | read
  | evaluation
  | type
  | unbound
  | arity
  | application
  | host
  | depthExceeded
deriving DecidableEq

namespace Error

/-- The kind of an error, whatever its cause and its trail. -/
def kind : Error → ErrorKind
  | read _ => .read
  | evaluation _ _ => .evaluation
  | type _ _ => .type
  | unbound _ => .unbound
  | arity _ _ _ => .arity
  | application _ => .application
  | host _ => .host
  | depthExceeded _ => .depthExceeded

/-- A fault of evaluation that no expression has been named for. -/
def ofEval (fault : EvalFault) : Error :=
  evaluation fault []

/-- A fault of types that no expression has been named for. -/
def ofType (fault : TypeFault) : Error :=
  type fault []

/-- A wrong argument count that no expression has been named for. -/
def ofArity (expected : Arity) (got : Nat) : Error :=
  arity expected got none

/-- The error as it leaves the evaluation of an expression: a trail grows by it, and a wrong
argument count that names no call yet names this one. -/
def within (expression : Value) : Error → Error
  | evaluation fault trail => evaluation fault (expression.text :: trail)
  | type fault trail => type fault (expression.text :: trail)
  | arity expected got none => arity expected got (some expression.text)
  | e => e

/-- The lines that name the expressions of a trail, from the innermost on. -/
def trailText (trail : List String) : String :=
  String.join (trail.reverse.map ("\n  Context: while evaluating: " ++ ·))

/-- The error in words. -/
def message : Error → String
  | read e => "ParseError: " ++ e.message
  | evaluation fault trail => "EvaluationError: " ++ fault.message ++ trailText trail
  | type fault trail => "Type error: " ++ fault.message ++ trailText trail
  | unbound name => "Unable to resolve symbol: " ++ name ++ " in this context"
  | arity expected got expression =>
    "ArityError: " ++ expression.elim "" (fun e => "expression " ++ e ++ ": ") ++
      "expected " ++ expected.text ++ " arguments, got " ++ toString got
  | application fault => "Invalid procedure: " ++ fault.message
  | host message => "Host function error: " ++ message
  | depthExceeded limit => "Evaluation depth limit exceeded (max: " ++ toString limit ++ ")"

/-- Whether the error is one of reading. -/
def isReadError (e : Error) : Bool :=
  e.kind == .read

end Error

/-- Fails unless an arity accepts a count. -/
def Arity.validate (expected : Arity) (count : Nat) : Except Error Unit :=
  if expected.accepts count then .ok () else .error (.ofArity expected count)

end PocketLisp
