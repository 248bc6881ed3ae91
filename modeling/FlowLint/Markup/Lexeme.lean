import FlowLint.Markup.Error
import FlowLint.Text.Width

/-! # Lexemes of a document

A document is cut into runs of text, tags, character data sections and markup without content, each
with the byte offset at which it begins. The cutting is done by a reader with finitely many kinds of
state that takes one character at a time. Nothing is established here about tags that do not match
or about references: a lexeme holds its characters unread.
-/

namespace FlowLint.Markup

/-- The characters that separate names and attributes inside a tag. -/
def isSpace (c : Char) : Bool :=
  c == ' ' || c == '\t' || c == '\r' || c == '\n'

/-- A piece of a document. -/
inductive Lexeme
  /-- Characters outside any markup; never empty. -/
  | text (raw : List Char)
  /-- What stands between the brackets of a tag, of an end tag with its slash. -/
  | tag (content : List Char)
  /-- The characters of a character data section. -/
  | cdata (raw : List Char)
  /-- A comment, a processing instruction or a document type. -/
  | silent
  /-- The end of what can be read. -/
  | broken (error : LexicalError)
deriving Repr, DecidableEq, Inhabited

/-- What the reader is inside of. Characters already read are kept latest first. -/
inductive Mode
  | text (read : List Char)
  | bracket
  | bang
  | comment (read : List Char)
  | cdata (read : List Char)
  | doctype (depth : Nat) (read : List Char)
  | instruction (read : List Char)
  | tag (quote : Option Char) (read : List Char)
deriving Repr, DecidableEq, Inhabited

/-- Markup that began with `<!-`, once its end has been found. -/
def Lexeme.ofComment (content : List Char) : Lexeme :=
  if "!--".toList.isPrefixOf content then .silent else .broken .openComment

/-- Markup that began with `<![`, once its end has been found. -/
def Lexeme.ofCdata (content : List Char) : Lexeme :=
  if "![CDATA[".toList.isPrefixOf content then .cdata ((content.drop 8).take (content.length - 10))
  else .broken .openCdata

/-- Markup that began with `<!D`, once its end has been found. -/
def Lexeme.ofDoctype (content : List Char) : Lexeme :=
  if (content.take 8).map Char.toUpper ≠ "!DOCTYPE".toList then .broken .openDoctype
  else if (content.drop 8).all isSpace then .broken .namelessDoctype
  else .silent

/-- Markup that began with `<?`, once its end has been found. -/
def Lexeme.ofInstruction (content : List Char) : Lexeme :=
  if content.length > 1 then .silent else .broken .openInstruction

/-- A run of text, unless it is empty. -/
def Lexeme.ofText? (raw : List Char) : Option Lexeme :=
  if raw.isEmpty then none else some (.text raw)

/-- One character inside a tag that is open since `read`. -/
def Mode.inTag (quote : Option Char) (read : List Char) (c : Char) : Mode × Option Lexeme :=
  match quote with
  | some q => (.tag (if c = q then none else quote) (c :: read), none)
  | none =>
    if c = '>' then (.text [], some (.tag read.reverse))
    else (.tag (if c = '"' ∨ c = '\'' then some c else none) (c :: read), none)

/-- One character: the next mode, and the lexeme that ends with the character or just before it. -/
def Mode.step : Mode → Char → Mode × Option Lexeme
  | text read, c =>
    if c = '<' then (bracket, Lexeme.ofText? read.reverse) else (text (c :: read), none)
  | bracket, c =>
    if c = '!' then (bang, none)
    else if c = '?' then (instruction [c], none)
    else inTag none [] c
  | bang, c =>
    if c = '[' then (cdata [c, '!'], none)
    else if c = '-' then (comment [c, '!'], none)
    else if c = 'D' ∨ c = 'd' then (doctype 0 [c, '!'], none)
    else (bang, some (.broken .unknownMarkup))
  | comment read, c =>
    if c = '>' ∧ "--".toList.isPrefixOf read ∧ 5 ≤ Text.width read then
      (text [], some (.ofComment read.reverse))
    else (comment (c :: read), none)
  | cdata read, c =>
    if c = '>' ∧ "]]".toList.isPrefixOf read then (text [], some (.ofCdata read.reverse))
    else (cdata (c :: read), none)
  | doctype depth read, c =>
    if c = '<' then (doctype (depth + 1) (c :: read), none)
    else if c ≠ '>' then (doctype depth (c :: read), none)
    else if depth = 0 then (text [], some (.ofDoctype read.reverse))
    else (doctype (depth - 1) (c :: read), none)
  | instruction read, c =>
    if c = '>' ∧ "?".toList.isPrefixOf read then (text [], some (.ofInstruction read.reverse))
    else (instruction (c :: read), none)
  | tag quote read, c => inTag quote read c

/-- What the end of the input makes of the mode. -/
def Mode.finish : Mode → Option Lexeme
  | text read => Lexeme.ofText? read.reverse
  | bracket => some (.broken .openTag)
  | bang => some (.broken .unknownMarkup)
  | comment _ => some (.broken .openComment)
  | cdata _ => some (.broken .openCdata)
  | doctype _ _ => some (.broken .openDoctype)
  | instruction _ => some (.broken .openInstruction)
  | tag _ _ => some (.broken .openTag)

def Lexeme.isBroken : Lexeme → Bool
  | broken _ => true
  | _ => false

/-- Whether the reader stands in text. -/
def Mode.isText : Mode → Bool
  | text _ => true
  | _ => false

/-- The lexemes of the rest of a document, with their offsets. The reader is in `mode`, the lexeme
in progress began at `start`, and the next character stands at `offset`. A run of text ends before
the bracket that ends it, all other markup with its last character. -/
def Lexeme.scan (mode : Mode) (start offset : Nat) : List Char → List (Nat × Lexeme)
  | [] => (mode.finish.map (start, ·)).toList
  | c :: cs =>
    let next := offset + c.utf8Size
    match mode.step c with
    | (mode', none) => scan mode' (if mode'.isText || !mode.isText then start else offset) next cs
    | (mode', some lexeme) =>
      if lexeme.isBroken then [(start, lexeme)]
      else (start, lexeme) :: scan mode' (if mode.isText then offset else next) next cs

/-- The text without the byte order mark that may open it. -/
def dropMark : List Char → List Char
  | [] => []
  | c :: cs => if c.toNat = 0xFEFF then cs else c :: cs

/-- The lexemes of a document with their byte offsets. A byte order mark in front is not counted. -/
def lexemes (text : String) : List (Nat × Lexeme) :=
  Lexeme.scan (.text []) 0 0 (dropMark text.toList)

end FlowLint.Markup
