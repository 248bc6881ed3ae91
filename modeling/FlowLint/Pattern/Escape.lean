import FlowLint.Pattern.Error
import FlowLint.Pattern.Regex
import FlowLint.Text.Hex

/-! # Flags and escapes in the text of a pattern

Flags change how the text after them is read. In spaced texts, blanks and comments between the parts
of a pattern say nothing, nor do they inside most escapes. Every reader here takes the rest of the
text and returns what it has read together with what is left.
-/

namespace FlowLint.Pattern

/-- How the text of a pattern is read from some point on. -/
structure Flags where
  caseless : Bool := false
  multiLine : Bool := false
  dotMatchesAll : Bool := false
  spaced : Bool := false
  anyLineEnd : Bool := false
deriving Repr, DecidableEq, Inhabited

/-- The text after a comment, which ends with its line. -/
def dropComment (cs : List Char) : List Char :=
  (cs.dropWhile (· ≠ '\n')).drop 1

/-- The text after blanks and comments; at most `fuel` of them are passed. -/
def dropSpaceFrom : Nat → List Char → List Char
  | 0, cs => cs
  | _, [] => []
  | fuel + 1, c :: cs =>
    if Text.isBlank c then dropSpaceFrom fuel cs
    else if c = '#' then dropSpaceFrom fuel (dropComment cs)
    else c :: cs

/-- The text after what says nothing in it. -/
def dropSpace (flags : Flags) (cs : List Char) : List Char :=
  if flags.spaced then dropSpaceFrom cs.length cs else cs

/-- Something that was read, with the rest of the text. -/
abbrev Read (α : Type) := Except Error (α × List Char)

/-- What an escape stands for. -/
inductive Primitive
  | literal (c : Char)
  | set (s : CharSet)
  | look (l : Look)
deriving Repr, DecidableEq, Inhabited

def hexCharacter (digits : List Char) : Except Error Char :=
  let n := digits.foldl (fun n c => n * 16 + ((Text.digitValue? 16 c).getD 0)) 0
  if n.isValidChar then .ok (Char.ofNat n) else .error .notACharacter

/-- A number of hexadecimal digits, the first of them in front; spaces may stand between them. -/
def readHexDigits (flags : Flags) (read : List Char) : Nat → List Char → Read Char
  | 0, cs => (hexCharacter read.reverse).map (·, cs)
  | _ + 1, [] => .error .unclosedEscape
  | count + 1, c :: cs =>
    if (Text.digitValue? 16 c).isNone then .error .badHexDigit
    else readHexDigits flags (c :: read) count (dropSpace flags cs)

/-- Hexadecimal digits up to a closing brace; at most `fuel` of them. -/
def readHexBraced (flags : Flags) (read : List Char) : Nat → List Char → Read Char
  | _, [] => .error .unclosedEscape
  | 0, _ => .error .unclosedEscape
  | fuel + 1, c :: cs =>
    let rest := dropSpace flags cs
    if c = '\x7d' then
      if read.isEmpty then .error .emptyHex else (hexCharacter read.reverse).map (·, rest)
    else if (Text.digitValue? 16 c).isNone then .error .badHexDigit
    else readHexBraced flags (c :: read) fuel rest

/-- The character of an escape by number, after its letter. -/
def readHex (flags : Flags) (letter : Char) (cs : List Char) : Read Char :=
  match dropSpace flags cs with
  | [] => .error .unclosedEscape
  | c :: rest =>
    if c = '\x7b' then readHexBraced flags [] (rest.length + 1) (dropSpace flags rest)
    else readHexDigits flags [] (if letter = 'x' then 2 else if letter = 'u' then 4 else 8) (c :: rest)

/-- The name of a property as it is compared: small letters and digits only. -/
def propertyKey (name : List Char) : String :=
  let kept := name.filter fun c => !(Text.isBlank c || c = '_' || c = '-')
  let small := kept.map Char.toLower
  String.ofList (if "is".toList.isPrefixOf small ∧ small.length > 2 then small.drop 2 else small)

def propertyNames : List (String × Property) :=
  [("any", .any), ("ascii", .ascii),
    ("l", .letter), ("letter", .letter),
    ("lu", .capital), ("uppercaseletter", .capital),
    ("ll", .small), ("lowercaseletter", .small),
    ("n", .number), ("number", .number),
    ("nd", .decimal), ("decimalnumber", .decimal), ("digit", .decimal),
    ("alpha", .alphabetic), ("alphabetic", .alphabetic),
    ("whitespace", .blank), ("space", .blank), ("wspace", .blank)]

/-- The property that a name stands for, which may be prefixed with the kind of property. -/
def property? (name : List Char) : Except Error Property :=
  let value :=
    match name.dropWhile (fun c => c ≠ '=' ∧ c ≠ ':') with
    | [] => some name
    | _ :: value =>
      let kind := propertyKey (name.takeWhile (fun c => c ≠ '=' ∧ c ≠ ':'))
      if kind = "gc" ∨ kind = "generalcategory" then some value else none
  match value.bind fun v => propertyNames.lookup (propertyKey v) with
  | some p => .ok p
  | none => .error .unknownProperty

/-- The name of a property up to a closing brace; at most `fuel` characters. -/
def readPropertyName (flags : Flags) (read : List Char) : Nat → List Char → Read (List Char)
  | _, [] => .error .unclosedEscape
  | 0, _ => .error .unclosedEscape
  | fuel + 1, c :: cs =>
    if c = '\x7d' then .ok (read.reverse, cs)
    else readPropertyName flags (c :: read) fuel (dropSpace flags cs)

/-- The set of a property, after the letter of its escape. -/
def readProperty (flags : Flags) (negated : Bool) (cs : List Char) : Read CharSet :=
  let set (p : Property) : CharSet :=
    CharSet.negateIf negated (CharSet.anyCaseIf flags.caseless (.property p))
  match dropSpace flags cs with
  | [] => .error .unclosedEscape
  | c :: rest =>
    if c = '\x7b' then
      match readPropertyName flags [] (rest.length + 1) (dropSpace flags rest) with
      | .error e => .error e
      | .ok (name, rest) => (property? name).map fun p => (set p, rest)
    else if c = '\\' then .error .badProperty
    else (property? [c]).map fun p => (set p, dropSpace flags rest)

/-- The characters that mean something else unless they are escaped. -/
def isMeta (c : Char) : Bool :=
  "\\.+*?()|[]\x7b\x7d^$#&-~".toList.contains c

/-- Whether a character may be escaped to stand for itself. -/
def isEscapable (c : Char) : Bool :=
  isMeta c || (c.toNat < 128 && !c.isAlphanum && c ≠ '<' && c ≠ '>')

def controlEscape? (c : Char) : Option Char :=
  if c = 'a' then some (Char.ofNat 7)
  else if c = 'f' then some (Char.ofNat 12)
  else if c = 't' then some '\t'
  else if c = 'n' then some '\n'
  else if c = 'r' then some '\r'
  else if c = 'v' then some (Char.ofNat 11)
  else none

/-- The look of an escape by letter, the plain word boundary left out. -/
def lookEscape? (c : Char) : Option Look :=
  if c = 'A' then some .textStart
  else if c = 'z' then some .textEnd
  else if c = 'B' then some .notWordBoundary
  else if c = '<' then some .wordStart
  else if c = '>' then some .wordEnd
  else none

def setEscape? (c : Char) : Option CharSet :=
  if c = 'd' then some (.property .decimal)
  else if c = 'D' then some (.compl (.property .decimal))
  else if c = 's' then some (.property .blank)
  else if c = 'S' then some (.compl (.property .blank))
  else if c = 'w' then some (.property .wordPart)
  else if c = 'W' then some (.compl (.property .wordPart))
  else none

/-- The characters in the names of special boundaries. -/
def isBoundaryLetter (c : Char) : Bool :=
  c.isAlpha || c = '-'

/-- The name of a special boundary; at most `fuel` letters. -/
def readBoundaryName (flags : Flags) (read : List Char) : Nat → List Char → List Char × List Char
  | 0, cs => (read.reverse, cs)
  | _, [] => (read.reverse, [])
  | fuel + 1, c :: cs =>
    if isBoundaryLetter c then readBoundaryName flags (c :: read) fuel (dropSpace flags cs)
    else (read.reverse, c :: cs)

def boundaryNames : List (String × Look) :=
  [("start", .wordStart), ("end", .wordEnd), ("start-half", .wordStartHalf),
    ("end-half", .wordEndHalf)]

/-- The boundary after `\b`: a name in braces makes it special, any other brace is not part of it. -/
def readBoundary (flags : Flags) (cs : List Char) : Read Look :=
  match cs with
  | '\x7b' :: rest =>
    match dropSpace flags rest with
    | [] => .error .unclosedBoundary
    | c :: more =>
      if !isBoundaryLetter c then .ok (.wordBoundary, cs)
      else
        match readBoundaryName flags [] (more.length + 1) (c :: more) with
        | (name, '\x7d' :: rest) =>
          match boundaryNames.lookup (String.ofList name) with
          | some l => .ok (l, rest)
          | none => .error .unknownBoundary
        | _ => .error .unclosedBoundary
  | _ => .ok (.wordBoundary, cs)

def readEscape (flags : Flags) : List Char → Read Primitive
  | [] => .error .unclosedEscape
  | c :: cs =>
    if c.isDigit then .error .backReference
    else if c = 'x' ∨ c = 'u' ∨ c = 'U' then
      (readHex flags c cs).map fun (x, rest) => (.literal x, rest)
    else if c = 'p' ∨ c = 'P' then
      (readProperty flags (c = 'P') cs).map fun (s, rest) => (.set s, rest)
    else if c = 'b' then
      (readBoundary flags cs).map fun (l, rest) => (.look l, rest)
    else
      match setEscape? c, controlEscape? c, lookEscape? c with
      | some s, _, _ => .ok (.set s, cs)
      | _, some x, _ => .ok (.literal x, cs)
      | _, _, some l => .ok (.look l, cs)
      | none, none, none => if isEscapable c then .ok (.literal c, cs) else .error .unknownEscape

end FlowLint.Pattern
