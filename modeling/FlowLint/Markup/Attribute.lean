import FlowLint.Markup.Lexeme
import FlowLint.Markup.Reference

/-! # Attributes of a start tag

A tag holds a name and, after spaces, attributes with quoted values. They are cut out by a reader
that takes one character at a time; what cannot be cut further is one last item. Keys that repeat
are found afterwards, because a repeated key is an error before its value is looked at.
-/

namespace FlowLint.Markup

/-- One attribute of an element, its name without qualifier. -/
structure Attribute where
  name : String
  value : String
deriving Repr, DecidableEq, Inhabited

/-- What a tag holds after its name. -/
inductive AttributeItem
  /-- A key that begins at an offset, with its value as written. -/
  | pair (start : Nat) (key raw : List Char)
  /-- A key whose value cannot be read. -/
  | valueless (start : Nat) (key : List Char) (error : AttributeError)
  /-- Characters that do not form a key. -/
  | keyless (error : AttributeError)
deriving Repr, DecidableEq, Inhabited

/-- What the reader of attributes expects. Characters already read are kept latest first. -/
inductive AttributeStage
  | between
  | key (start : Nat) (read : List Char)
  | equals (start : Nat) (key : List Char)
  | quote (start : Nat) (key : List Char)
  | value (start : Nat) (key : List Char) (quote : Char) (read : List Char)
deriving Repr, DecidableEq, Inhabited

namespace AttributeStage

/-- One character at `offset`: the next stage and the item that ends here; an item with an error
ends the reading. The first character of a key is taken whatever it is. -/
def step (offset : Nat) : AttributeStage → Char → AttributeStage × Option AttributeItem
  | between, c => (if isSpace c then between else key offset [c], none)
  | key start read, c =>
    if c = '=' then (quote start read.reverse, none)
    else if isSpace c then (equals start read.reverse, none)
    else (key start (c :: read), none)
  | equals start name, c =>
    if c = '=' then (quote start name, none)
    else if isSpace c then (equals start name, none)
    else (between, some (.keyless (.missingEquals offset)))
  | quote start name, c =>
    if c = '"' ∨ c = '\'' then (value start name c [], none)
    else if isSpace c then (quote start name, none)
    else (between, some (.valueless start name (.missingQuote offset)))
  | value start name q read, c =>
    if c = q then (between, some (.pair start name read.reverse))
    else (value start name q (c :: read), none)

/-- What the end of the tag, at offset `total`, makes of the stage. -/
def finish (total : Nat) : AttributeStage → Option AttributeItem
  | between => none
  | key _ _ => some (.keyless (.missingEquals total))
  | equals _ _ => some (.keyless (.missingEquals total))
  | quote start name => some (.valueless start name (.missingValue total))
  | value start name q _ => some (.valueless start name (.openValue total q))

theorem step_between {c : Char} (h : isSpace c = true) (offset : Nat) :
    step offset between c = (between, none) := by
  rw [step, if_pos h]

end AttributeStage

/-- Whether more items can follow. -/
def AttributeItem.isPair : AttributeItem → Bool
  | pair .. => true
  | _ => false

/-- The items of the rest of a tag; the next character stands at `offset`. -/
def AttributeItem.scan (stage : AttributeStage) (offset : Nat) : List Char → List AttributeItem
  | [] => (stage.finish offset).toList
  | c :: cs =>
    let next := offset + c.utf8Size
    match stage.step offset c with
    | (stage', none) => scan stage' next cs
    | (stage', some item) => if item.isPair then item :: scan stage' next cs else [item]

/-- A character with which no item ends. -/
theorem AttributeItem.scan_on {stage stage' : AttributeStage} {offset : Nat} {c : Char}
    (h : stage.step offset c = (stage', none)) (rest : List Char) :
    scan stage offset (c :: rest) = scan stage' (offset + c.utf8Size) rest := by
  rw [scan, h]

/-- The name of a tag: all before the first space. -/
def tagName (content : List Char) : List Char :=
  content.takeWhile (!isSpace ·)

/-- The attribute items of a tag, with offsets from the start of its content. -/
def attributeItems (content : List Char) : List AttributeItem :=
  AttributeItem.scan .between (Text.width (tagName content)) (content.dropWhile (!isSpace ·))

/-- The parts of a name before and after its first colon. -/
def splitQualifier (name : List Char) : Option (List Char) × List Char :=
  match name.dropWhile (· ≠ ':') with
  | [] => (none, name)
  | _ :: rest => (some (name.takeWhile (· ≠ ':')), rest)

def localName (name : List Char) : String :=
  String.ofList (splitQualifier name).2

def isDeclaration (key : List Char) : Bool :=
  key = "xmlns".toList || "xmlns:".toList.isPrefixOf key

/-- The offset at which a key stands among keys already read. -/
def startOf? (seen : List (Nat × List Char)) (key : List Char) : Option Nat :=
  (seen.find? (·.2 = key)).map (·.1)

/-- Reads items from left to right: a repeated key, then a value that is not well formed, then a
reference that cannot be expanded. Namespace declarations are checked for the first two but are no
attributes. -/
def readAttributes (seen : List (Nat × List Char)) :
    List AttributeItem → Except Fault (List Attribute)
  | [] => .ok []
  | .keyless e :: _ => .error (.badAttribute e)
  | .valueless start key e :: _ =>
    match startOf? seen key with
    | some earlier => .error (.badAttribute (.duplicate start earlier))
    | none => .error (.badAttribute e)
  | .pair start key raw :: rest =>
    match startOf? seen key with
    | some earlier => .error (.badAttribute (.duplicate start earlier))
    | none =>
      if isDeclaration key then readAttributes ((start, key) :: seen) rest
      else
        match expand raw with
        | .error e => .error (.badReference e)
        | .ok value =>
          (⟨localName key, String.ofList value⟩ :: ·) <$>
            readAttributes ((start, key) :: seen) rest

end FlowLint.Markup
