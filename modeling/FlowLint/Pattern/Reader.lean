import FlowLint.Pattern.Class
import FlowLint.Text.Decimal

/-! # Reading patterns

The text of a pattern is read by a machine that keeps the sequence and the branches in progress and,
on a stack, those of the groups around them. A group restores the flags at its end; flags set inside
hold from there on to the end of the group, across its branches.
-/

namespace FlowLint.Pattern

/-- A part of a sequence: a pattern and how deep its text nests, or a setting of flags. -/
inductive Item
  | node (r : Regex) (depth : Nat)
  | flags
deriving Repr, DecidableEq, Inhabited

/-- How deep the text of an item nests. -/
def Item.depth : Item → Nat
  | node _ d => d
  | flags => 0

def Item.regex : Item → Regex
  | node r _ => r
  | flags => .empty

/-- The depth of things side by side. -/
def depthOf (depths : List Nat) : Nat :=
  let deepest := depths.foldl max 0
  if depths.length > 1 then deepest + 1 else deepest

/-- A sequence as one item; the parts come latest first. -/
def sequenceOf (items : List Item) : Item :=
  .node (.seqOf ((items.reverse.filter (· ≠ .flags)).map Item.regex)) (depthOf (items.map Item.depth))

/-- Branches as one item; the branches come latest first, and there is at least one. -/
def choiceOf (last : Item) (before : List Item) : Item :=
  let all := (last :: before).reverse
  .node (.altOf (all.headD last).regex (all.tail.map Item.regex)) (depthOf (all.map Item.depth))

/-- A group that is open around the reader: its own sequence and branches so far, and the flags to
restore at the end of what is inside. -/
structure OpenGroup where
  items : List Item
  branches : List Item
  flags : Flags
deriving Repr, DecidableEq, Inhabited

/-- What has been read of a pattern, latest first, and the names of groups. -/
structure State where
  flags : Flags := {}
  items : List Item := []
  branches : List Item := []
  outer : List OpenGroup := []
  names : List (List Char) := []
deriving Repr, DecidableEq, Inhabited

namespace State

def push (s : State) (r : Regex) (depth : Nat) : State :=
  { s with items := .node r depth :: s.items }

def branch (s : State) : State :=
  { s with items := [], branches := sequenceOf s.items :: s.branches }

/-- A group inside the sequence, read with the given flags. -/
def enter (s : State) (inner : Flags) : State :=
  { s with flags := inner, items := [], branches := [], outer := ⟨s.items, s.branches, s.flags⟩ :: s.outer }

/-- What has been read of the group as one item. -/
def content (s : State) : Item :=
  choiceOf (sequenceOf s.items) s.branches

/-- The end of the innermost group. -/
def leave (s : State) : Except Error State :=
  match s.outer with
  | [] => .error .unopenedGroup
  | g :: rest =>
    let inner := s.content
    .ok { s with
      flags := g.flags, branches := g.branches, outer := rest,
      items := .node inner.regex (inner.depth + 1) :: g.items }

end State

/-- A letter among flags. -/
inductive FlagLetter
  | caseless | multiLine | dotMatchesAll | swapGreed | unicode | anyLineEnd | spaced
deriving Repr, DecidableEq, Inhabited

def flagLetter? (c : Char) : Option FlagLetter :=
  if c = 'i' then some .caseless
  else if c = 'm' then some .multiLine
  else if c = 's' then some .dotMatchesAll
  else if c = 'U' then some .swapGreed
  else if c = 'u' then some .unicode
  else if c = 'R' then some .anyLineEnd
  else if c = 'x' then some .spaced
  else none

/-- Flags with one letter set or cleared. -/
def Flags.set (f : Flags) (value : Bool) : FlagLetter → Except Error Flags
  | .caseless => .ok { f with caseless := value }
  | .multiLine => .ok { f with multiLine := value }
  | .dotMatchesAll => .ok { f with dotMatchesAll := value }
  | .swapGreed => .ok f
  | .unicode => if value then .ok f else .error .unsupportedFlag
  | .anyLineEnd => .ok { f with anyLineEnd := value }
  | .spaced => .ok { f with spaced := value }

/-- What has been read of a setting of flags. -/
structure FlagList where
  flags : Flags
  seen : List FlagLetter := []
  negated : Bool := false
  /-- Whether the sign of negation came last. -/
  dangling : Bool := false

/-- Flags up to the parenthesis or colon that ends them, with that character and whether there was
anything in front of it. -/
def readFlags (l : FlagList) : List Char → Read (Flags × Char × Bool)
  | [] => .error .unclosedFlags
  | c :: cs =>
    if c = ':' ∨ c = ')' then
      if l.dangling then .error .danglingNegation
      else .ok ((l.flags, c, !l.seen.isEmpty || l.negated), cs)
    else if c = '-' then
      if l.negated then .error .repeatedFlag
      else readFlags { l with negated := true, dangling := true } cs
    else
      match flagLetter? c with
      | none => .error .unknownFlag
      | some letter =>
        if l.seen.contains letter then .error .repeatedFlag
        else
          match l.flags.set (!l.negated) letter with
          | .error e => .error e
          | .ok flags =>
            readFlags { l with flags, seen := letter :: l.seen, dangling := false } cs

def isNameChar (first : Bool) (c : Char) : Bool :=
  if first then c = '_' || Text.isAlphabetic c
  else c = '_' || c = '.' || c = '[' || c = ']' || Text.isAlphabetic c || Text.isNumber c

/-- The name of a group up to its closing bracket. -/
def readGroupName (cs : List Char) : Read (List Char) :=
  let name := cs.takeWhile (· ≠ '>')
  if cs.isEmpty then .error .unclosedGroupName
  else if !(isNameChar true (name.headD '_') && name.tail.all (isNameChar false)) then
    .error .badGroupName
  else
    match cs.dropWhile (· ≠ '>') with
    | [] => .error .unclosedGroupName
    | _ :: rest => if name.isEmpty then .error .emptyGroupName else .ok (name, rest)

/-- What a parenthesis begins: a group, or a setting of flags for what follows. -/
def readGroup (s : State) (cs : List Char) : Except Error (State × List Char) :=
  let named (rest : List Char) : Except Error (State × List Char) := do
    let (name, rest) ← readGroupName rest
    if s.names.contains name then throw .repeatedGroupName
    return ({ s.enter s.flags with names := name :: s.names }, rest)
  match dropSpace s.flags cs with
  | '?' :: '=' :: _ | '?' :: '!' :: _ | '?' :: '<' :: '=' :: _ | '?' :: '<' :: '!' :: _ =>
    .error .lookAround
  | '?' :: 'P' :: '<' :: rest => named rest
  | '?' :: '<' :: rest => named rest
  | '?' :: [] => .error .unclosedGroup
  | '?' :: rest => do
    let ((flags, ending, nonempty), rest) ← readFlags { flags := s.flags } rest
    if ending = ':' then return (s.enter flags, rest)
    if nonempty then return ({ s with flags, items := .flags :: s.items }, rest)
    throw .nothingToRepeat
  | rest => .ok (s.enter s.flags, rest)

/-- The sequence with its last part repeated. -/
def State.repeatLast (s : State) (least : Nat) (greatest : Option Nat) : Except Error State :=
  match s.items with
  | .node r depth :: before =>
    .ok { s with items := .node (.rep r least greatest) (depth + 1) :: before }
  | _ => .error .nothingToRepeat

/-- The text after the sign that asks for as few repetitions as possible. -/
def dropLazy : List Char → List Char
  | '?' :: cs => cs
  | cs => cs

/-- Digits with what says nothing between them; at most `fuel`. -/
def readCountDigits (flags : Flags) (read : List Char) : Nat → List Char → List Char × List Char
  | fuel + 1, c :: cs =>
    if c.isDigit then readCountDigits flags (c :: read) fuel (dropSpace flags cs)
    else (read.reverse, c :: cs)
  | _, cs => (read.reverse, cs)

/-- The text after blanks in braces, which say nothing in any text. -/
def dropBraceBlanks (flags : Flags) : Nat → List Char → List Char
  | fuel + 1, c :: cs =>
    if Text.isBlank c then dropBraceBlanks flags fuel (dropSpace flags cs) else c :: cs
  | _, cs => cs

/-- A count of 32 bits; none if there are no digits. -/
def readCount (flags : Flags) (cs : List Char) : Read (Option Nat) :=
  let (digits, rest) := readCountDigits flags [] cs.length (cs.dropWhile Text.isBlank)
  let rest := dropBraceBlanks flags rest.length rest
  if digits.isEmpty then .ok (none, rest)
  else
    let n := Text.digitsValue digits
    if n < UInt32.size then .ok (some n, rest) else .error .countTooLarge

def requireCount : Option Nat → Except Error Nat
  | some n => .ok n
  | none => .error .missingCount

/-- The counts of a repetition in braces, after the opening brace. -/
def readCounts (flags : Flags) (cs : List Char) :
    Except Error ((Nat × Option Nat) × List Char) := do
  let cs := dropSpace flags cs
  if cs.isEmpty then throw .unclosedCount
  let (first, rest) ← readCount flags cs
  let ((least, greatest), rest) ←
    match rest with
    | [] => throw .unclosedCount
    | ',' :: more =>
      match dropSpace flags more with
      | [] => throw .unclosedCount
      | '\x7d' :: more => do
        let least ← requireCount first
        pure ((least, none), '\x7d' :: more)
      | more => do
        let least ← requireCount first
        let (last, rest) ← readCount flags more
        let greatest ← requireCount last
        pure ((least, some greatest), rest)
    | rest => do
      let least ← requireCount first
      pure ((least, some least), rest)
  match rest with
  | '\x7d' :: rest =>
    let rest := dropSpace flags rest
    if greatest.any (· < least) then throw .reversedCounts
    return ((least, greatest), dropLazy rest)
  | _ => throw .unclosedCount

/-- The pattern of a primitive outside classes. -/
def Primitive.regex (flags : Flags) : Primitive → Regex
  | literal c => .set (CharSet.anyCaseIf flags.caseless (.single c))
  | set s => .set s
  | look l => .look l

/-- The pattern of a point: any character but those that end a line. -/
def dotRegex (flags : Flags) : Regex :=
  if flags.dotMatchesAll then .set .all
  else if flags.anyLineEnd then .set (.compl (.union (.single '\n') (.single '\r')))
  else .set (.compl (.single '\n'))

def startLook (flags : Flags) : Look :=
  if !flags.multiLine then .textStart else if flags.anyLineEnd then .anyLineStart else .lineStart

def endLook (flags : Flags) : Look :=
  if !flags.multiLine then .textEnd else if flags.anyLineEnd then .anyLineEnd else .lineEnd

/-- One step of the machine on the text from the character `c`. -/
def State.step (s : State) (c : Char) (cs : List Char) : Except Error (State × List Char) :=
  let repeated (least : Nat) (greatest : Option Nat) (rest : List Char) :
      Except Error (State × List Char) :=
    (s.repeatLast least greatest).map (·, rest)
  if c = '(' then readGroup s cs
  else if c = ')' then s.leave.map (·, cs)
  else if c = '|' then .ok (s.branch, cs)
  else if c = '[' then
    (readClass s.flags cs).map fun (n, rest) => (s.push (.set n.set) n.depth, rest)
  else if c = '?' then repeated 0 (some 1) (dropLazy cs)
  else if c = '*' then repeated 0 none (dropLazy cs)
  else if c = '+' then repeated 1 none (dropLazy cs)
  else if c = '\x7b' then do
    let _ ← s.repeatLast 0 none
    let ((least, greatest), rest) ← readCounts s.flags cs
    repeated least greatest rest
  else if c = '\\' then
    (readEscape s.flags cs).map fun (p, rest) => (s.push (p.regex s.flags) 0, rest)
  else if c = '.' then .ok (s.push (dotRegex s.flags) 0, cs)
  else if c = '^' then .ok (s.push (.look (startLook s.flags)) 0, cs)
  else if c = '$' then .ok (s.push (.look (endLook s.flags)) 0, cs)
  else .ok (s.push ((Primitive.literal c).regex s.flags) 0, cs)

/-- Runs the machine to the end of the text in at most `fuel` steps. -/
def State.run : Nat → State → List Char → Except Error State
  | 0, s, _ => .ok s
  | fuel + 1, s, cs =>
    match dropSpace s.flags cs with
    | [] => .ok s
    | c :: rest =>
      match s.step c rest with
      | .error e => .error e
      | .ok (s', rest') => State.run fuel s' rest'

/-- Groups and classes nest at most this deep. -/
def nestingLimit : Nat := 250

/-- The pattern of a text. Each step takes a character at least, so that the length of the text
bounds their number. -/
def parse (text : String) : Except Error Regex :=
  match State.run (text.length + 1) {} text.toList with
  | .error e => .error e
  | .ok s =>
    if !s.outer.isEmpty then .error .unclosedGroup
    else if s.content.depth > nestingLimit then .error .tooDeep
    else .ok s.content.regex

end FlowLint.Pattern
