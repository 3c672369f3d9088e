import MixAsm.Json.Lexer

namespace MixAsm.Json

/-!
# Reading JSON

The tokens of a document are taken one by one. The arrays and objects that are open are kept in a
list, the innermost first, each with what it holds so far.

* `State.step` — what a token does to the state of reading;
* `parse` — the value of a document, if the text is one.
-/

/-- An array or object that is open, with what it holds so far, the latest first. -/
inductive Frame
  | array (items : List Json)
  | object (members : List (Text × Json)) (key : Text)

/-- What the next token must be, inside the frames that are open. -/
inductive State
  /-- A value must follow. -/
  | value (frames : List Frame)
  /-- An array is just open: a value follows, or its end. -/
  | firstItem (frames : List Frame)
  /-- An object is just open: a key follows, or its end. -/
  | firstKey (frames : List Frame)
  /-- A key must follow. -/
  | key (members : List (Text × Json)) (frames : List Frame)
  /-- The colon behind a key must follow. -/
  | colon (members : List (Text × Json)) (key : Text) (frames : List Frame)
  /-- A value is complete: the innermost frame goes on or ends. -/
  | complete (v : Json) (frames : List Frame)

namespace State

/-- The state after a token that starts a value. -/
def start (frames : List Frame) : Token → Option State
  | .null => some (complete .null frames)
  | .bool b => some (complete (.bool b) frames)
  | .number n => some (complete (.number n) frames)
  | .string text => some (complete (.string text) frames)
  | .openArray => some (firstItem frames)
  | .openObject => some (firstKey frames)
  | _ => none

/-- The state after a token, if the token can follow. -/
def step : State → Token → Option State
  | value frames, t => start frames t
  | firstItem frames, .closeArray => some (complete (.array []) frames)
  | firstItem frames, t => start (.array [] :: frames) t
  | firstKey frames, .closeObject => some (complete (.object []) frames)
  | firstKey frames, .string k => some (colon [] k frames)
  | key ms frames, .string k => some (colon ms k frames)
  | colon ms k frames, .colon => some (value (.object ms k :: frames))
  | complete v (.array vs :: frames), .comma => some (value (.array (v :: vs) :: frames))
  | complete v (.array vs :: frames), .closeArray =>
    some (complete (.array (v :: vs).reverse) frames)
  | complete v (.object ms k :: frames), .comma => some (key ((k, v) :: ms) frames)
  | complete v (.object ms k :: frames), .closeObject =>
    some (complete (.object ((k, v) :: ms).reverse) frames)
  | _, _ => none

/-- The value of a document that ends in the state. -/
def result? : State → Option Json
  | complete v [] => some v
  | _ => none

end State

/-- The value of a list of tokens. -/
def ofTokens? (ts : List Token) : Option Json :=
  (ts.foldlM State.step (.value [])).bind State.result?

/-- The value of a document, if the text is one. -/
def parse (text : String) : Option Json := (tokenize text.toList).bind ofTokens?

end MixAsm.Json
