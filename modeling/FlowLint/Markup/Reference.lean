import FlowLint.Markup.Error
import FlowLint.Text.Width

/-! # References in running text

Runs of text and attribute values may hold references: `&amp;` and its four siblings by name, any
other character by number. Expanding a run replaces each by the character it stands for and keeps
all else. The first reference that stands for nothing decides the error, and no other name is known:
declarations of entities are not read.
-/

namespace FlowLint.Markup

/-- The character that a predefined name stands for. -/
def entity? : List Char → Option Char
  | ['l', 't'] => some '<'
  | ['g', 't'] => some '>'
  | ['a', 'm', 'p'] => some '&'
  | ['a', 'p', 'o', 's'] => some '\''
  | ['q', 'u', 'o', 't'] => some '"'
  | _ => none

/-- A number that fits 32 bits, read digit by digit: a bad digit is noticed before the number is
found too large. -/
def readDigits (base : Nat) (value : Nat) : List Char → Except ReferenceError Nat
  | [] => .ok value
  | c :: cs =>
    match Text.digitValue? base c with
    | none => .error .badDigit
    | some d =>
      let value := value * base + d
      if value < UInt32.size then readDigits base value cs else .error .numberTooLarge

/-- The number of a numeric reference, without its sign `#` and its mark of base sixteen. -/
def readNumber (base : Nat) : List Char → Except ReferenceError Nat
  | [] => .error .emptyNumber
  | c :: cs => if c = '+' ∨ c = '-' then .error .signedNumber else readDigits base 0 (c :: cs)

def characterOf (code : Nat) : Except ReferenceError Char :=
  if code = 0 then .error .nullCharacter
  else if code.isValidChar then .ok (Char.ofNat code)
  else .error (.notACharacter code)

/-- The character that a reference stands for. Its name fills the bytes from `start` to `stop`. -/
def resolveReference (start stop : Nat) : List Char → Except ReferenceError Char
  | '#' :: 'x' :: digits => readNumber 16 digits >>= characterOf
  | '#' :: digits => readNumber 10 digits >>= characterOf
  | name =>
    match entity? name with
    | some c => .ok c
    | none => .error (.unknownEntity start stop (String.ofList name))

/-- Expands the rest of a run of `total` bytes. A reference in progress is given by the offset of
its ampersand and the name read so far, latest first; `done` is the expansion of what came before,
latest first too. -/
def expandFrom (total : Nat) (offset : Nat) (pending : Option (Nat × List Char))
    (done : List Char) : List Char → Except ReferenceError (List Char)
  | [] =>
    match pending with
    | none => .ok done.reverse
    | some (start, _) => .error (.unterminated start total)
  | c :: cs =>
    let next := offset + c.utf8Size
    match pending with
    | none =>
      if c = '&' then expandFrom total next (some (offset, [])) done cs
      else expandFrom total next none (c :: done) cs
    | some (start, name) =>
      if c = ';' then
        match resolveReference (start + 1) offset name.reverse with
        | .ok x => expandFrom total next none (x :: done) cs
        | .error e => .error e
      else if c = '&' then .error (.unterminated start total)
      else expandFrom total next (some (start, c :: name)) done cs

/-- The run with every reference replaced by its character. -/
def expand (run : List Char) : Except ReferenceError (List Char) :=
  expandFrom (Text.width run) 0 none [] run

end FlowLint.Markup
