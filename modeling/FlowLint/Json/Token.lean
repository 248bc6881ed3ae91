import FlowLint.Json.Number
import FlowLint.Text.Hex

/-! # Tokens of a JSON text

A JSON text is cut into punctuation, quoted texts, numbers and the three words by a reader that takes
one character at a time. Texts must not hold raw control characters, and an escaped half of a
surrogate pair must be followed by the other half.
-/

namespace FlowLint.Json

inductive Token
  | openArray
  | closeArray
  | openObject
  | closeObject
  | comma
  | colon
  | text (value : String)
  | scalar (value : Json)
deriving Repr, Inhabited

/-- What the reader is inside of. Characters already read are kept latest first. -/
inductive TokenMode
  | ground
  | text (read : List Char)
  | escape (read : List Char)
  /-- Inside `\u`: the digits' value so far and how many are to come; `high` is the first half of a
  pair. -/
  | unicode (read : List Char) (high : Option Nat) (value missing : Nat)
  /-- After the first half of a pair: its value, and whether the backslash has been seen. -/
  | pair (read : List Char) (high : Nat) (slash : Bool)
  | bare (read : List Char)
deriving Repr, DecidableEq, Inhabited

/-- The characters between tokens. -/
def isGap (c : Char) : Bool :=
  c == ' ' || c == '\n' || c == '\t' || c == '\r'

def punctuation? (c : Char) : Option Token :=
  if c = '[' then some .openArray
  else if c = ']' then some .closeArray
  else if c = '\x7b' then some .openObject
  else if c = '\x7d' then some .closeObject
  else if c = ',' then some .comma
  else if c = ':' then some .colon
  else none

/-- A word or number, once its end has been found. -/
def bareToken? (cs : List Char) : Option Token :=
  if cs = "null".toList then some (.scalar .null)
  else if cs = "true".toList then some (.scalar (.bool true))
  else if cs = "false".toList then some (.scalar (.bool false))
  else (Number.ofChars? cs).map fun n => .scalar (.num n)

def simpleEscape? (c : Char) : Option Char :=
  if c = '"' ∨ c = '\\' ∨ c = '/' then some c
  else if c = 'b' then some (Char.ofNat 8)
  else if c = 'f' then some (Char.ofNat 12)
  else if c = 'n' then some '\n'
  else if c = 'r' then some '\r'
  else if c = 't' then some '\t'
  else none

/-- A complete `\u` escape: a character, the first half of a pair, or its second half. -/
def endUnicode (read : List Char) (high : Option Nat) (value : Nat) : Option TokenMode :=
  match high with
  | some h =>
    if 0xDC00 ≤ value ∧ value ≤ 0xDFFF then
      some (.text (Char.ofNat (0x10000 + (h - 0xD800) * 0x400 + (value - 0xDC00)) :: read))
    else none
  | none =>
    if 0xDC00 ≤ value ∧ value ≤ 0xDFFF then none
    else if 0xD800 ≤ value ∧ value ≤ 0xDBFF then some (.pair read value false)
    else some (.text (Char.ofNat value :: read))

def TokenMode.outside (c : Char) : TokenMode × List Token :=
  if isGap c then (ground, [])
  else if c = '"' then (text [], [])
  else
    match punctuation? c with
    | some t => (ground, [t])
    | none => (bare [c], [])

/-- One character: the next mode and the tokens that end with it, unless the text is refused. -/
def TokenMode.step (mode : TokenMode) (c : Char) : Option (TokenMode × List Token) :=
  match mode with
  | ground => some (outside c)
  | bare read =>
    if isGap c || c = '"' || (punctuation? c).isSome then
      (bareToken? read.reverse).map fun t =>
        let (mode', tokens) := outside c
        (mode', t :: tokens)
    else some (bare (c :: read), [])
  | text read =>
    if c = '"' then some (ground, [.text (String.ofList read.reverse)])
    else if c = '\\' then some (escape read, [])
    else if c.toNat < 32 then none
    else some (text (c :: read), [])
  | escape read =>
    if c = 'u' then some (unicode read none 0 4, [])
    else (simpleEscape? c).map fun x => (text (x :: read), [])
  | unicode read high value missing => do
    let d ← Text.digitValue? 16 c
    let value := value * 16 + d
    if missing ≤ 1 then (endUnicode read high value).map (·, [])
    else some (unicode read high value (missing - 1), [])
  | pair read high false => if c = '\\' then some (pair read high true, []) else none
  | pair read high true => if c = 'u' then some (unicode read (some high) 0 4, []) else none

/-- The tokens of the rest of a text, with those `done` before, latest first. -/
def tokensFrom (mode : TokenMode) (done : List Token) : List Char → Option (List Token)
  | [] =>
    match mode with
    | .ground => some done.reverse
    | .bare read => (bareToken? read.reverse).map fun t => (t :: done).reverse
    | _ => none
  | c :: cs =>
    match mode.step c with
    | some (mode', tokens) => tokensFrom mode' (tokens.reverse ++ done) cs
    | none => none

def tokens? (text : String) : Option (List Token) :=
  tokensFrom .ground [] text.toList

end FlowLint.Json
