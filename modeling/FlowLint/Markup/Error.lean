import FlowLint.Text.Hex

/-! # What can be wrong with a document

Causes, not wordings: the wording of each cause is one function beside it. A fault belongs to a
position, the byte offset at which the markup or the run of text that holds it begins; the errors
about the shape of the whole tree carry a name instead.
-/

namespace FlowLint.Markup

/-- Markup that does not end, or that begins like none of the known kinds. -/
inductive LexicalError
  | unknownMarkup
  | openInstruction
  | openComment
  | openDoctype
  | openCdata
  | openTag
  | namelessDoctype
deriving Repr, DecidableEq, Inhabited

/-- A start tag whose attributes cannot be read. Offsets are bytes after the opening bracket. -/
inductive AttributeError
  | missingEquals (offset : Nat)
  | missingValue (offset : Nat)
  | missingQuote (offset : Nat)
  | openValue (offset : Nat) (quote : Char)
  | duplicate (offset earlier : Nat)
deriving Repr, DecidableEq, Inhabited

/-- A reference that stands for no character. Ranges are bytes inside the run that holds it. -/
inductive ReferenceError
  | unknownEntity (start stop : Nat) (name : String)
  | unterminated (start stop : Nat)
  | signedNumber
  | emptyNumber
  | badDigit
  | numberTooLarge
  | notACharacter (code : Nat)
  | nullCharacter
deriving Repr, DecidableEq, Inhabited

/-- A namespace declaration that touches a reserved name. -/
inductive BindingError
  | rebindsXml (uri : String)
  | rebindsXmlns (uri : String)
  | claimsXml (qualifier : String)
  | claimsXmlns (qualifier : String)
deriving Repr, DecidableEq, Inhabited

/-- What is wrong with the markup at some position. -/
inductive Fault
  | lexical (error : LexicalError)
  | mismatchedEnd (expected found : String)
  | strayEnd (found : String)
  | badAttribute (error : AttributeError)
  | badReference (error : ReferenceError)
  | badBinding (error : BindingError)
deriving Repr, DecidableEq, Inhabited

/-- Why a text is not a document. -/
inductive Error
  | malformed (position : Nat) (fault : Fault)
  | noRoot
  | multipleRoots (name : String)
  | unclosed (name : String)
  | unknownQualifier (qualifier : String)
deriving Repr, DecidableEq, Inhabited

/-- The namespace that the qualifier `xml` always stands for. -/
def xmlNamespace : String := "http://www.w3.org/XML/1998/namespace"

/-- The namespace that the qualifier `xmlns` always stands for. -/
def xmlnsNamespace : String := "http://www.w3.org/2000/xmlns/"

namespace LexicalError

private def openUntil (what closing : String) : String :=
  s!"syntax error: {what} not closed: `{closing}` not found before end of input"

def message : LexicalError → String
  | unknownMarkup => "syntax error: unknown or missed symbol in markup"
  | openInstruction => openUntil "processing instruction or xml declaration" "?>"
  | openComment => openUntil "comment" "-->"
  | openDoctype => openUntil "DOCTYPE" ">"
  | openCdata => openUntil "CDATA" "]]>"
  | openTag => openUntil "tag" ">"
  | namelessDoctype =>
    "ill-formed document: `<!DOCTYPE>` declaration does not contain a name of a document type"

end LexicalError

def AttributeError.message : AttributeError → String
  | missingEquals n => s!"position {n}: attribute key must be directly followed by `=` or space"
  | missingValue n => s!"position {n}: `=` must be followed by an attribute value"
  | missingQuote n => s!"position {n}: attribute value must be enclosed in `\"` or `'`"
  | openValue n q => s!"position {n}: missing closing quote `{q}` in attribute value"
  | duplicate n m => s!"position {n}: duplicated attribute, previous declaration at position {m}"

def ReferenceError.message : ReferenceError → String
  | unknownEntity s e name => s!"at {s}..{e}: unrecognized entity `{name}`"
  | unterminated s e =>
    s!"Error while escaping character at range {s}..{e}: Cannot find ';' after '&'"
  | signedNumber => "invalid character reference: unexpected number sign"
  | emptyNumber => "invalid character reference: cannot parse integer from empty string"
  | badDigit => "invalid character reference: invalid digit found in string"
  | numberTooLarge => "invalid character reference: number too large to fit in target type"
  | notACharacter n => s!"invalid character reference: `{n}` is not a valid codepoint"
  | nullCharacter => "invalid character reference: 0x0 character is not permitted in XML"

/-- A text between double quotes, every byte that is not printable ASCII written as a number. -/
def quoteBytes (s : String) : String :=
  let shown := s.toUTF8.toList.flatMap fun b =>
    if b = 34 then ['\\', '"']
    else if 32 ≤ b ∧ b ≤ 126 then [Char.ofNat b.toNat]
    else '0' :: 'x' :: Text.shortByteHex b
  "\"" ++ String.ofList shown ++ "\""

def BindingError.message : BindingError → String
  | rebindsXml uri => s!"the namespace prefix 'xml' cannot be bound to '{quoteBytes uri}'"
  | rebindsXmlns uri => s!"the namespace prefix 'xmlns' cannot be bound to '{quoteBytes uri}'"
  | claimsXml q => s!"the namespace prefix '{quoteBytes q}' cannot be bound to '{xmlNamespace}'"
  | claimsXmlns q => s!"the namespace prefix '{quoteBytes q}' cannot be bound to '{xmlnsNamespace}'"

def Fault.message : Fault → String
  | lexical e => e.message
  | mismatchedEnd a b => s!"ill-formed document: expected `</{a}>`, but `</{b}>` was found"
  | strayEnd b => s!"ill-formed document: close tag `</{b}>` does not match any open tag"
  | badAttribute e => e.message
  | badReference e => e.message
  | badBinding e => e.message

def Error.message : Error → String
  | malformed position fault => s!"malformed XML at byte {position}: {fault.message}"
  | noRoot => "document has no root element"
  | multipleRoots name => s!"document has more than one root element (second root <{name}>)"
  | unclosed name => s!"element <{name}> is never closed"
  | unknownQualifier q => s!"unknown namespace prefix '{q}'"

end FlowLint.Markup
