import FlowLint.Pattern.Escape

/-! # Bracketed classes

A class lists characters, ranges, named sets and further classes between brackets, may be negated,
and may combine lists by set operations, all of the same rank and read from left to right. The reader
keeps the classes that are open around it on a stack.

Beside its set, a class has a depth: how deep it nests, which is limited for patterns as a whole.
-/

namespace FlowLint.Pattern

/-- A set together with how deep its text nests. -/
structure Nested where
  set : CharSet
  depth : Nat
deriving Repr, DecidableEq, Inhabited

inductive ClassOp
  | inter
  | diff
  | symmDiff
deriving Repr, DecidableEq, Inhabited

def ClassOp.apply : ClassOp → CharSet → CharSet → CharSet
  | inter, a, b => .inter a b
  | diff, a, b => .diff a b
  | symmDiff, a, b => .symmDiff a b

/-- A class that is open: what it lists since its last operation, latest first, and the operation
that waits for that list. -/
structure OpenClass where
  negated : Bool
  items : List Nested
  pending : Option (ClassOp × Nested)
deriving Repr, DecidableEq, Inhabited

/-- The list as one set. -/
def unionOf (items : List Nested) : Nested :=
  let depth := (items.map (·.depth)).foldl max 0
  ⟨CharSet.unionOf (items.reverse.map (·.set)), if items.length > 1 then depth + 1 else depth⟩

/-- The list of a class combined with what waits for it. -/
def OpenClass.combined (flags : Flags) (c : OpenClass) : Nested :=
  let items := unionOf c.items
  match c.pending with
  | none => items
  | some (op, left) =>
    ⟨op.apply (CharSet.anyCaseIf flags.caseless left.set) (CharSet.anyCaseIf flags.caseless items.set),
      max left.depth items.depth + 1⟩

/-- The set of a class that ends. -/
def OpenClass.close (flags : Flags) (c : OpenClass) : Nested :=
  let all := c.combined flags
  ⟨CharSet.negateIf c.negated (CharSet.anyCaseIf flags.caseless all.set), all.depth + 1⟩

/-- One more item. -/
def OpenClass.push (c : OpenClass) (item : Nested) : OpenClass :=
  { c with items := item :: c.items }

/-- The class after an operation sign. -/
def OpenClass.operate (flags : Flags) (c : OpenClass) (op : ClassOp) : OpenClass :=
  { c with items := [], pending := some (op, c.combined flags) }

def asciiClasses : List (String × CharSet) :=
  let r := CharSet.ofNumbers
  let digit := r 48 57
  let upper := r 65 90
  let lower := r 97 122
  [("alnum", .unionOf [digit, upper, lower]), ("alpha", .unionOf [upper, lower]),
    ("ascii", r 0 127), ("blank", .unionOf [r 9 9, r 32 32]),
    ("cntrl", .unionOf [r 0 31, r 127 127]), ("digit", digit), ("graph", r 33 126),
    ("lower", lower), ("print", r 32 126),
    ("punct", .unionOf [r 33 47, r 58 64, r 91 96, r 123 126]),
    ("space", .unionOf [r 9 13, r 32 32]), ("upper", upper),
    ("word", .unionOf [digit, upper, r 95 95, lower]),
    ("xdigit", .unionOf [digit, r 65 70, r 97 102])]

/-- A named set of ASCII characters after the bracket that begins it, unless it is something else. -/
def readAscii? (flags : Flags) (cs : List Char) : Option (CharSet × List Char) :=
  match cs with
  | ':' :: rest =>
    let (negated, rest) :=
      match rest with
      | '^' :: more => (true, more)
      | more => (false, more)
    let name := rest.takeWhile (· ≠ ':')
    match rest.dropWhile (· ≠ ':'), asciiClasses.lookup (String.ofList name) with
    | ':' :: ']' :: rest, some s =>
      some (CharSet.negateIf negated (CharSet.anyCaseIf flags.caseless s), rest)
    | _, _ => none
  | _ => none

/-- The text after hyphens that open a class, and how many there are; at most `fuel`. -/
def dropHyphens (flags : Flags) : Nat → List Char → Nat × List Char
  | fuel + 1, '-' :: cs =>
    let (n, rest) := dropHyphens flags fuel (dropSpace flags cs)
    (n + 1, rest)
  | _, cs => (0, cs)

/-- The class that an opening bracket begins: it may be negated, and hyphens, or else a closing
bracket, stand for themselves in front. -/
def readClassStart (flags : Flags) (cs : List Char) : Read OpenClass :=
  let (negated, rest) :=
    match dropSpace flags cs with
    | '^' :: more => (true, dropSpace flags more)
    | more => (false, more)
  let (hyphens, rest) := dropHyphens flags rest.length rest
  let start : OpenClass := ⟨negated, List.replicate hyphens ⟨.single '-', 0⟩, none⟩
  let (start, rest) :=
    match hyphens, rest with
    | 0, ']' :: more => (start.push ⟨.single ']', 0⟩, dropSpace flags more)
    | _, _ => (start, rest)
  if rest.isEmpty then .error .unclosedClass else .ok (start, rest)

def readClassItem (flags : Flags) : List Char → Read Primitive
  | [] => .error .unclosedClass
  | '\\' :: cs => readEscape flags cs
  | c :: cs => .ok (.literal c, cs)

/-- The character that comes next but one, past what says nothing; in a spaced text what follows one
number sign is looked at as well. -/
def peekPast (flags : Flags) (cs : List Char) : Option Char :=
  if !flags.spaced then cs.head?
  else
    let rest := cs.dropWhile Text.isBlank
    let rest :=
      match rest with
      | '#' :: more => more.dropWhile Text.isBlank
      | _ => rest
    match rest with
    | [] => cs.head?
    | c :: _ => some c

/-- The set of an item that is not the end of a range. -/
def itemSet : Primitive → Except Error CharSet
  | .literal c => .ok (.single c)
  | .set s => .ok s
  | .look _ => .error .classEscape

/-- A single item or a range. -/
def readRange (flags : Flags) (cs : List Char) : Except Error (CharSet × List Char) := do
  let (first, rest) ← readClassItem flags cs
  match dropSpace flags rest with
  | [] => throw .unclosedClass
  | c :: more =>
    if c ≠ '-' ∨ peekPast flags more = some ']' ∨ peekPast flags more = some '-' then
      return (← itemSet first, c :: more)
    let more := dropSpace flags more
    if more.isEmpty then throw .unclosedClass
    let (last, rest) ← readClassItem flags more
    match first, last with
    | .literal a, .literal b =>
      if a.toNat ≤ b.toNat then return (.range a b, rest) else throw .reversedRange
    | _, _ => throw .rangeEnd

/-- The rest of a class that is open inside others; at most `fuel` items. -/
def readClassBody (flags : Flags) : Nat → OpenClass → List OpenClass → List Char → Read Nested
  | 0, _, _, _ => .error .unclosedClass
  | fuel + 1, current, outer, cs =>
    match dropSpace flags cs with
    | [] => .error .unclosedClass
    | '[' :: rest =>
      match readAscii? flags rest with
      | some (s, rest) => readClassBody flags fuel (current.push ⟨s, 0⟩) outer rest
      | none =>
        match readClassStart flags rest with
        | .error e => .error e
        | .ok (inner, rest) => readClassBody flags fuel inner (current :: outer) rest
    | ']' :: rest =>
      let done := current.close flags
      match outer with
      | [] => .ok (done, rest)
      | around :: others => readClassBody flags fuel (around.push done) others rest
    | '&' :: '&' :: rest => readClassBody flags fuel (current.operate flags .inter) outer rest
    | '-' :: '-' :: rest => readClassBody flags fuel (current.operate flags .diff) outer rest
    | '~' :: '~' :: rest => readClassBody flags fuel (current.operate flags .symmDiff) outer rest
    | item =>
      match readRange flags item with
      | .error e => .error e
      | .ok (s, rest) => readClassBody flags fuel (current.push ⟨s, 0⟩) outer rest

/-- A class after the bracket that begins it. -/
def readClass (flags : Flags) (cs : List Char) : Read Nested :=
  match readClassStart flags cs with
  | .error e => .error e
  | .ok (start, rest) => readClassBody flags (rest.length + 1) start [] rest

end FlowLint.Pattern
