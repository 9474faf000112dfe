import PocketLisp.Decimal.Literal
import PocketLisp.Host.Native
import PocketLisp.Value.Text

/-!
# Sample native functions

One native function for each shape that the bridge to the host allows: every type of parameter
and of result, every number of parameters with and without a rest, every way to fail, and raw
functions.
-/

namespace PocketLisp.Native

/-! ### Parts of answers -/

/-- Texts with a bar between each two. -/
def joined (texts : List String) : String :=
  "|".intercalate texts

/-- The printed forms of values with a bar between each two. -/
def joinedTexts (vs : List Value) : String :=
  joined (vs.map Value.text)

/-- The sum of integers, which wraps around. -/
def sumIntegers (ns : List Int64) : Int64 :=
  ns.foldl (· + ·) 0

/-- The sum of numbers as floats, from the left. -/
def sumFloats (numbers : List Number) : Float :=
  numbers.foldl (fun sum n => sum + n.toFloat) 0.0

/-- The character of a code point, if there is one. -/
def charOf? (n : Int64) : Option Char :=
  if h : 0 ≤ n.toInt ∧ n.toInt.toNat.isValidChar then some (Char.ofNatAux n.toInt.toNat h.2)
  else none

/-- The integer that a text denotes, or a failure that says why there is none. -/
def parsedInteger (text : String) : Reply :=
  match Literal.integer? text.toList with
  | .ok n => .returns n
  | .error fault => .failsWith fault.text

/-- The error of the interpreter that a function makes of a word and a message. -/
def errorOf? (word message : String) : Option Error :=
  match word with
  | "eval" => some (.ofEval (.stated message))
  | "type" => some (.ofType (.stated message))
  | "unbound" => some (.unbound message)
  | "invalid" => some (.application (.stated message))
  | "host" => some (.host message)
  | "arity" => some (.ofArity (.range 1 2) 7)
  | "arity-expr" => some (.arity .even 3 (some message))
  | "depth" => some (.depthExceeded 99)
  | "parse" => some (.read (.bare (.stated .unsupported message)))
  | _ => none

/-! ### The functions -/

/-- Functions without parameters. -/
def constantSamples : List Native :=
  [typed "forty-two" ⟨[], none, .returns (42 : Int64)⟩,
    typed "noop" ⟨[], none, .returns ()⟩,
    typed "arr" ⟨[], none, .returns [(1 : Int64), 2, 3]⟩]

/-- Functions with one parameter. -/
def unarySamples : List Native :=
  [typed "inc" ⟨[.integer], none, fun n => .returns (n + 1)⟩,
    typed "halve" ⟨[.float], none, fun x => .returns (x / 2)⟩,
    typed "half-num" ⟨[.number], none, fun n => .returns (n.toFloat / 2)⟩,
    typed "num-id" ⟨[.number], none, fun n => .returns n⟩,
    typed "negate" ⟨[.boolean], none, fun b => .returns !b⟩,
    typed "char-code" ⟨[.char], none, fun c => .returns (Int64.ofNat c.toNat)⟩,
    typed "char-of" ⟨[.integer], none, fun n => .returns (charOf? n)⟩,
    typed "shout" ⟨[.string], none, fun s => .returns (s ++ "!")⟩,
    typed "byte-len" ⟨[.string], none, fun s => .returns (Int64.ofNat s.utf8ByteSize)⟩,
    typed "ident" ⟨[.any], none, fun v => .returns v⟩,
    typed "kind" ⟨[.any], none, fun v => .returns v.kind.text⟩,
    typed "sum-ints" ⟨[.sequence .integer], none, fun ns => .returns (sumIntegers ns)⟩,
    typed "sum-nums" ⟨[.sequence .number], none, fun ns => .returns (sumFloats ns)⟩,
    typed "all-true" ⟨[.sequence .boolean], none, fun bs => .returns (bs.all id)⟩,
    typed "len" ⟨[.sequence .any], none, fun vs => .returns (Int64.ofNat vs.length)⟩,
    typed "opt" ⟨[.integer], none, fun n => .returns (if n < 0 then none else some n)⟩,
    typed "float32" ⟨[.float], none, fun x => .returns x.toFloat32⟩]

/-- Functions with several parameters. -/
def fixedSamples : List Native :=
  [typed "join" ⟨[.string, .sequence .string], none, fun separator texts =>
      .returns (separator.intercalate texts)⟩,
    typed "pair" ⟨[.integer, .string], none, fun n s => .returns (n, s)⟩,
    typed "map-of" ⟨[.any, .any], none, fun key value =>
      .returns (Value.mapOf [(key, value)])⟩,
    typed "triple" ⟨[.integer, .float, .boolean], none, fun n x b => .returns (n, x, b)⟩,
    typed "four" ⟨[.integer, .integer, .integer, .integer], none, fun a b c d =>
      .returns [d, c, b, a]⟩,
    typed "five" ⟨[.any, .string, .char, .boolean, .number], none, fun v s c b n =>
      .returns [v, .string s, .char c, .boolean b, n.toValue]⟩,
    typed "six"
      ⟨[.integer, .float, .boolean, .char, .string, .sequence .any], none,
        fun n x b c s vs =>
          .returns ("/".intercalate
            [(Value.integer n).text, (Value.float x).text, (Value.boolean b).text,
              toString c.toNat, s, joinedTexts vs])⟩]

/-- Functions that may fail. -/
def failingSamples : List Native :=
  [typed "err-string" ⟨[.string], none, fun s => if s = "" then .returns () else .failsWith s⟩,
    typed "err-str" ⟨[.integer], none, fun n =>
      if n < 0 then .failsWith "negative" else .returns n⟩,
    typed "err-box" ⟨[.string], none, fun s =>
      if s = "boom" then .failsWith "boxed boom" else parsedInteger s⟩,
    typed "err-parse-int" ⟨[.string], none, parsedInteger⟩,
    typed "err-parse-float" ⟨[.string], none, fun s =>
      match Literal.float? s.toList with
      | .ok x => .returns x
      | .error fault => .failsWith fault.text⟩,
    typed "err-try-u8" ⟨[.integer], none, fun n =>
      if n < 0 then .failsWith Literal.IntegerFault.tooSmall.text
      else if 256 ≤ n then .failsWith Literal.IntegerFault.tooLarge.text
      else .returns n⟩,
    typed "err-fmt" ⟨[.boolean], none, fun b =>
      if b then .failsWith "an error occurred when formatting an argument" else .returns true⟩,
    typed "err-io" ⟨[.boolean], none, fun b =>
      if b then .failsWith "disk on fire" else .returns ()⟩,
    typed "err-own" ⟨[.string, .string], none, fun word message =>
      match errorOf? word message with
      | some e => .fails e
      | none => .returns message⟩]

/-- Functions with a rest alone. -/
def restSamples : List Native :=
  [typed "v-values" ⟨[], some .any, fun vs => .returns (joinedTexts vs)⟩,
    typed "v-nums" ⟨[], some .number, fun ns => .returns (sumFloats ns)⟩,
    typed "v-ints" ⟨[], some .integer, fun ns => .returns (sumIntegers ns)⟩,
    typed "v-bools" ⟨[], some .boolean, fun bs => .returns (bs.any id)⟩,
    typed "v-strs" ⟨[], some .string, fun texts => .returns texts⟩]

/-- Functions with parameters and a rest. -/
def variadicSamples : List Native :=
  [typed "vp1" ⟨[.integer], some .string, fun n texts => .returns (n, texts)⟩,
    typed "vp2" ⟨[.string, .boolean], some .integer, fun s b ns =>
      .returns (":".intercalate
        [s, (Value.boolean b).text, (Value.integer (sumIntegers ns)).text])⟩,
    typed "vp3" ⟨[.number, .char, .any], some .any, fun n c v vs =>
      .returns (":".intercalate [n.toValue.text, toString c.toNat, v.text, joinedTexts vs])⟩,
    typed "vp4" ⟨[.integer, .integer, .integer, .integer], some .boolean,
      fun a b c d flags =>
        let set := flags.count true
        if 2 < set then .failsWith (toString set ++ " flags set")
        else .returns (a + b + c + d + Int64.ofNat set)⟩,
    typed "vp5" ⟨[.string, .sequence .integer, .float, .boolean, .any], some .number,
      fun s ns x b v numbers =>
        .returns (":".intercalate
          [s, (Value.integer (sumIntegers ns)).text, (Value.float x).text,
            (Value.boolean b).text, v.text, (Value.float (sumFloats numbers)).text])⟩]

/-- Functions on the arguments as they are. -/
def rawSamples : List Native :=
  [raw "raw-second" ⟨[.any, .keyword], none⟩ fun args => .returns (args.getD 1 .nil),
    raw "raw-list" ⟨[.symbol, .map], some .sequence⟩ fun args => .returns args,
    raw "raw-fail" ⟨[], some .any⟩ fun args =>
      .failsWith ("raw got " ++ toString args.length)]

/-- All sample functions. -/
def samples : List Native :=
  constantSamples ++ unarySamples ++ fixedSamples ++ failingSamples ++ restSamples ++
    variadicSamples ++ rawSamples

/-- The sample function of a name. -/
def sample? (name : String) : Option Native :=
  samples.find? fun native => native.name == name

end PocketLisp.Native
