import PocketLisp.Session
import PocketLisp.Host.Native
import PocketLisp.Text.Blank

/-!
# The read-eval-print loop

A `Repl` is fed lines.  A line that ends within a form is kept until the lines after it complete
the form; then all forms of these lines are evaluated, and each result or error is printed.  A
few commands, which begin with a colon, are taken only where no form is pending.
-/

namespace PocketLisp

/-- A session, and the lines of a form that is not complete, each with its line feed. -/
structure Repl where
  session : Session
  pending : String

namespace Repl

/-! ### Texts -/

/-- Lines with a line feed after each. -/
def unlines (lines : List String) : String :=
  String.join (lines.map (· ++ "\n"))

def banner : String :=
  unlines
    ["lispcore REPL",
      "Enter expressions like: (+ 1 2) or (\x7b:a 1 :b 2\x7d :b)",
      "Type :help for more commands, or Ctrl+C to exit.",
      ""]

def farewell : String := "Goodbye!\n"

def helpText : String :=
  unlines
    ["lispcore commands:",
      "  :help      - Show this help message",
      "  :env       - Show current environment bindings",
      "  :quit      - Exit the interpreter",
      "  :exit      - Exit the interpreter",
      "  Ctrl+C     - Abandon an unfinished form, or exit",
      "",
      "Values:",
      "  Numbers: 42, -5, 2.5",
      "  Strings and characters: \"text\", \\a, \\newline",
      "  Keywords: :name",
      "  Collections: (list), [vector], \x7b:map \"literal\"\x7d",
      "",
      "Special forms: quote, do, def, fn, defn, if, cond, and, or",
      "Primitives: + - * / < <= > >= = list not first rest cons count str",
      "",
      "Examples:",
      "  (defn square [x] (* x x))",
      "  (square 12)",
      "  (cond (< 1 0) :neg :else :non-neg)",
      "  (\x7b:a \x7b:b 42\x7d\x7d :a :b)",
      ""]

/-- A name in a column of fifteen characters. -/
def cell (name : String) : String :=
  "  " ++ name ++ String.ofList (List.replicate (15 - name.length) ' ')

/-- Names in rows of four. -/
def rows : List String → String
  | [] => ""
  | a :: b :: c :: d :: names => String.join ([a, b, c, d].map cell) ++ "\n" ++ rows names
  | names => String.join (names.map cell) ++ "\n"

/-- The visible bindings of a session, first those that are provided and then the others. -/
def bindingsText (session : Session) : String :=
  let bindings := session.bindings
  let provided := (bindings.filter fun binding => Session.isProvided binding.2).map Prod.fst
  let others := session.userBindings
  if bindings.isEmpty then "Environment is empty.\n"
  else
    "Environment bindings (" ++ toString bindings.length ++ " total):\n\n" ++
    (if provided.isEmpty then ""
      else "Built-in functions (" ++ toString provided.length ++ "):\n" ++ rows provided ++ "\n") ++
    (if others.isEmpty then ""
      else "User-defined values (" ++ toString others.length ++ "):\n" ++
        unlines (others.map fun (name, v) => "  " ++ name ++ " = " ++ v.text))

/-! ### Evaluation -/

/-- The native function that prints the help. -/
def help : Native :=
  .typed "help" ⟨[], none, ⟨.ok .nil, helpText⟩⟩

/-- The loop before its first line. -/
def start : Repl :=
  ⟨Session.start [help], ""⟩

/-- Whether a text only lacks more text: some form in it is incomplete. -/
def needsMore (source : String) : Bool :=
  (Reader.results source).any fun
    | .error e => e.kind = .incomplete
    | .ok _ => false

/-- A result as it is printed. -/
def resultText : Except Error Value → String
  | .ok v => v.text ++ "\n"
  | .error e => "Error: " ++ e.message ++ "\n"

/-- What is printed for results of reading, evaluated one after the other: for each what it
wrote to the output, and then its own text. -/
def answersText (fuel : Nat) : Session → List (Except ReadError Value) →
    Option (String × Session)
  | session, [] => some ("", session)
  | session, result :: results => do
    let (answer, session) ← session.answer fuel result
    let output := session.store.output
    let session := { session with store := { session.store with output := "" } }
    let (text, session) ← answersText fuel session results
    return (output ++ resultText answer ++ text, session)

/-- The commands. -/
inductive Command where
  | help
  | bindings
  | quit

/-- The command that a line is, blanks at its ends apart. -/
def command? (line : String) : Option Command :=
  match String.ofList (Text.trim line.toList) with
  | ":help" => some .help
  | ":env" => some .bindings
  | ":quit" => some .quit
  | ":exit" => some .quit
  | _ => none

/-- Adds a line to the pending ones and evaluates them if they are complete. -/
def addLine (fuel : Nat) (repl : Repl) (line : String) : Option (String × Repl) :=
  let source := repl.pending ++ line ++ "\n"
  if needsMore source then some ("", { repl with pending := source })
  else do
    let (text, session) ← answersText fuel repl.session (Reader.results source)
    return (text, ⟨session, ""⟩)

/-- What a line prints, and the loop after it, if it goes on. -/
def feed (fuel : Nat) (repl : Repl) (line : String) : Option (String × Option Repl) :=
  if repl.pending = "" then
    if Text.trim line.toList = [] then some ("", repl)
    else
      match command? line with
      | some .help => some (helpText, repl)
      | some .bindings => some (bindingsText repl.session, repl)
      | some .quit => some (farewell, none)
      | none => (repl.addLine fuel line).map fun (text, repl) => (text, some repl)
  else (repl.addLine fuel line).map fun (text, repl) => (text, some repl)

/-- What lines print; the end of the lines ends the loop. -/
def feedAll (fuel : Nat) : Repl → List String → Option String
  | _, [] => some farewell
  | repl, line :: lines => do
    let (text, next) ← repl.feed fuel line
    match next with
    | none => return text
    | some repl => return text ++ (← feedAll fuel repl lines)

/-- All that the loop prints for given lines. -/
def transcript (fuel : Nat) (lines : List String) : Option String := do
  return banner ++ (← start.feedAll fuel lines)

/-! ### Lines -/

/-- A line without the carriage return that may end it. -/
def dropReturn (line : List Char) : List Char :=
  match line.reverse with
  | '\r' :: rest => rest.reverse
  | _ => line

/-- The lines of a text; `read` holds the characters of the present line, the last one first.  A
carriage return before a line feed belongs to it, and a last line may lack its line feed. -/
def linesFrom : (read : List Char) → List Char → List String
  | [], [] => []
  | read, [] => [String.ofList read.reverse]
  | read, '\n' :: text => String.ofList (dropReturn read.reverse) :: linesFrom [] text
  | read, c :: text => linesFrom (c :: read) text

/-- The lines of a text. -/
def linesOf (text : String) : List String :=
  linesFrom [] text.toList

end Repl

end PocketLisp
