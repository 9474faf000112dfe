import PocketLisp.Repl

/-!
# The program

The read-eval-print loop on the standard input and output.
-/

namespace PocketLisp

/-- Feeds lines from a stream until the loop or the stream ends. -/
partial def serve (input output : IO.FS.Stream) (repl : Repl) : IO Unit := do
  let text ← input.getLine
  match Repl.linesOf text with
  | [] => output.putStr Repl.farewell
  | line :: _ =>
    match repl.feed Eval.ample line with
    | none => return
    | some (printed, next) =>
      output.putStr printed
      output.flush
      match next with
      | none => return
      | some repl => serve input output repl

end PocketLisp

def main : IO Unit := do
  let input ← IO.getStdin
  let output ← IO.getStdout
  output.putStr PocketLisp.Repl.banner
  output.flush
  PocketLisp.serve input output PocketLisp.Repl.start
