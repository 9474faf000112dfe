import PocketLisp.Arity
import PocketLisp.Text.Blank
import PocketLisp.Text.Quoted
import PocketLisp.Text.Location
import PocketLisp.Text.Escaped
import PocketLisp.Decimal.Layout
import PocketLisp.Decimal.Literal
import PocketLisp.Value.Entries
import PocketLisp.Value.Text
import PocketLisp.Value.Inspect
import PocketLisp.Error
import PocketLisp.Number
import PocketLisp.Host.Primitive
import PocketLisp.Store
import PocketLisp.Eval.Run
import PocketLisp.Eval.Direct
import PocketLisp.Read.Reader
import PocketLisp.Host.Samples
import PocketLisp.Main
import PocketLisp.Proofs.Eval.TailCalls
import PocketLisp.Proofs.Eval.Depth
import PocketLisp.Proofs.Eval.Constants
import PocketLisp.Proofs.Eval.Frame
import PocketLisp.Proofs.Value.Equality
import PocketLisp.Proofs.Read.RoundTrip
import PocketLisp.Proofs.Read.Items
import PocketLisp.Proofs.Read.Progress
import PocketLisp.Proofs.Read.Nesting
import PocketLisp.Proofs.Repl.Layout
import PocketLisp.Proofs.Host.Signature
import PocketLisp.Proofs.Number.Arithmetic
import PocketLisp.Proofs.Number.Comparison
import PocketLisp.Proofs.Store.Reachable
import PocketLisp.Proofs.Eval.Freshness
import PocketLisp.Proofs.Value.Dictionary
import PocketLisp.Proofs.Value.Correspondence
import PocketLisp.Proofs.Store.Lookup
import PocketLisp.Proofs.Eval.Calls
import PocketLisp.Proofs.Eval.Forms
import PocketLisp.Proofs.Eval.Connectives
import PocketLisp.Proofs.Host.Primitive
import PocketLisp.Proofs.Host.Equality
import PocketLisp.Proofs.Eval.Arity
import PocketLisp.Proofs.Read.Location
import PocketLisp.Proofs.Eval.Termination
import PocketLisp.Proofs.Eval.Origin
