import PocketLisp.Eval.Run
import PocketLisp.Read.Reader

/-!
# Sessions

A `Session` is a store with a global scope in it, in which texts are evaluated one after the
other.  Errors do not end it: the forms after one are evaluated all the same.
-/

namespace PocketLisp

/-- A store, and the scope in which forms are evaluated. -/
structure Session where
  store : Store
  scope : ScopeId

namespace Session

/-- A session with a fresh global scope in which native functions are registered. -/
def start (natives : List Native) : Session :=
  let (s, σ) := Store.empty.addGlobal
  ⟨natives.foldl (fun σ native => σ.register s native) σ, s⟩

/-- Evaluates an expression; there is no outcome if the fuel runs out. -/
def evaluate (fuel : Nat) (session : Session) (e : Value) :
    Option (Except Error Value × Session) :=
  ((Eval.expression fuel 0 session.scope e).outcome session.store).map fun (result, σ) =>
    (result, { session with store := σ })

/-- The outcome of one result of reading: a form is evaluated, an error stands for itself. -/
def answer (fuel : Nat) (session : Session) :
    Except ReadError Value → Option (Except Error Value × Session)
  | .ok form => session.evaluate fuel form
  | .error e => some (.error (.read e), session)

/-- The outcomes of results of reading, one after the other. -/
def answers (fuel : Nat) : Session → List (Except ReadError Value) →
    Option (List (Except Error Value) × Session)
  | session, [] => some ([], session)
  | session, result :: results => do
    let (answer, session) ← session.answer fuel result
    let (answers, session) ← answers fuel session results
    return (answer :: answers, session)

/-- Reads a text and evaluates its forms. -/
def feed (fuel : Nat) (session : Session) (source : String) :
    Option (List (Except Error Value) × Session) :=
  session.answers fuel (Reader.results source)

/-- Reads a text that has to be one form, and evaluates it. -/
def feedOne (fuel : Nat) (session : Session) (source : String) :
    Option (Except Error Value × Session) :=
  session.answer fuel (Reader.readOne source)

/-- The bindings that are visible in the session, ordered by name. -/
def bindings (session : Session) : List (String × Value) :=
  session.store.allBindings session.scope

/-- Whether a value is one that the interpreter or the program around it provides. -/
def isProvided : Value → Bool
  | .primitive _ => true
  | .specialForm _ => true
  | .native _ => true
  | _ => false

/-- The visible bindings that were not provided. -/
def userBindings (session : Session) : List (String × Value) :=
  session.bindings.filter fun binding => !isProvided binding.2

end Session

end PocketLisp
