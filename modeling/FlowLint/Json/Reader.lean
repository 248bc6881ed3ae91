import FlowLint.Json.Token

/-! # Reading JSON

The tokens of a text are put together by a machine with a stack of the arrays and objects that are
still open. Arrays and objects nest to a fixed depth; what is deeper is refused.
-/

namespace FlowLint.Json

/-- An array or object that is open, what it holds so far latest first. -/
inductive Frame
  | array (items : List Json)
  /-- An object that waits for the value of a key. -/
  | object (members : List (String × Json)) (key : String)
deriving Repr, Inhabited

/-- What may come next. -/
inductive Expectation
  /-- A value; a closing bracket too if the array has just been opened. -/
  | value (mayClose : Bool)
  /-- A key; a closing brace too if the object has just been opened. -/
  | key (members : List (String × Json)) (mayClose : Bool)
  /-- The colon after a key. -/
  | colon (members : List (String × Json)) (key : String)
  /-- What follows a complete value. -/
  | after (done : Json)
deriving Repr, Inhabited

/-- Arrays and objects of a document nest at most this deep. -/
def depthLimit : Nat := 127

/-- A token where a value is expected. -/
def readValue (limit : Nat) (stack : List Frame) (mayClose : Bool) : Token → Option (List Frame × Expectation)
  | .openArray => if stack.length < limit then some (.array [] :: stack, .value true) else none
  | .openObject => if stack.length < limit then some (stack, .key [] true) else none
  | .closeArray =>
    match mayClose, stack with
    | true, .array items :: outer => some (outer, .after (.arr items.reverse))
    | _, _ => none
  | .text s => some (stack, .after (.str s))
  | .scalar v => some (stack, .after v)
  | _ => none

/-- A token after a complete value. -/
def readAfter (done : Json) : List Frame → Token → Option (List Frame × Expectation)
  | .array items :: outer, .comma => some (.array (done :: items) :: outer, .value false)
  | .array items :: outer, .closeArray => some (outer, .after (.arr (done :: items).reverse))
  | .object members key :: outer, .comma => some (outer, .key ((key, done) :: members) false)
  | .object members key :: outer, .closeObject =>
    some (outer, .after (.obj ((key, done) :: members).reverse))
  | _, _ => none

def readToken (limit : Nat) (stack : List Frame) (expected : Expectation) (t : Token) :
    Option (List Frame × Expectation) :=
  match expected, t with
  | .value mayClose, t => readValue limit stack mayClose t
  | .key members _, .text k => some (stack, .colon members k)
  | .key members true, .closeObject => some (stack, .after (.obj members.reverse))
  | .colon members k, .colon => some (.object members k :: stack, .value false)
  | .after done, t => readAfter done stack t
  | _, _ => none

def readTokens (limit : Nat) (stack : List Frame) (expected : Expectation) : List Token → Option Json
  | [] =>
    match stack, expected with
    | [], .after done => some done
    | _, _ => none
  | t :: rest =>
    match readToken limit stack expected t with
    | some (stack', expected') => readTokens limit stack' expected' rest
    | none => none

/-- The value of a text in which arrays and objects nest no deeper than the limit, members in the
order in which they are written. -/
def parseWithin? (limit : Nat) (text : String) : Option Json :=
  tokens? text >>= readTokens limit [] (.value false)

def parse? (text : String) : Option Json :=
  parseWithin? depthLimit text

end FlowLint.Json
