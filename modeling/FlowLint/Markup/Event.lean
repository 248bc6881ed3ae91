import FlowLint.Markup.Namespace

/-! # Events of a document

Lexemes become events: an element opens, text stands directly inside the innermost open element, the
innermost element closes. Here end tags are matched with start tags, names are resolved and
references expanded. Text outside every element is dropped unread, so its references are never
looked at. Whether the events form one tree is not decided here.
-/

namespace FlowLint.Markup

/-- What a start tag says. -/
structure Tag where
  uri : Option String
  name : String
  attributes : List Attribute
deriving Repr, DecidableEq, Inhabited

/-- One step through a document, in order. -/
inductive Event
  | opens (tag : Tag)
  | text (run : String)
  | closes
deriving Repr, DecidableEq, Inhabited

/-- The events of a document up to its end or to the first thing that cannot be read. -/
structure Reading where
  events : List Event
  failure : Option Error
deriving Repr, DecidableEq, Inhabited

def Reading.cons (e : Event) (r : Reading) : Reading :=
  { r with events := e :: r.events }

def Reading.failed (error : Error) : Reading :=
  ⟨[], some error⟩

/-- An element whose end tag is still to come: its name as written and the scope inside it. -/
structure OpenTag where
  name : List Char
  scope : Scope
deriving Repr, DecidableEq, Inhabited

/-- The scope inside the innermost open element. -/
def currentScope : List OpenTag → Scope
  | [] => Scope.outermost
  | t :: _ => t.scope

/-- Reads a start tag in a scope: reserved names first, then the qualifier of the name, then the
attributes from left to right. -/
def readTag (position : Nat) (scope : Scope) (content : List Char) : Except Error (Tag × OpenTag) :=
  let items := attributeItems content
  let name := tagName content
  match scope.enter items with
  | .error e => .error (.malformed position (.badBinding e))
  | .ok inner =>
    match inner.resolve name with
    | .error qualifier => .error (.unknownQualifier qualifier)
    | .ok uri =>
      match readAttributes [] items with
      | .error fault => .error (.malformed position fault)
      | .ok attributes => .ok (⟨uri, localName name, attributes⟩, ⟨name, inner⟩)

/-- The name in an end tag, without the spaces after it. -/
def endName (content : List Char) : List Char :=
  ((content.drop 1).reverse.dropWhile isSpace).reverse

/-- Reads lexemes inside the given open elements, innermost first. -/
def readEvents (stack : List OpenTag) : List (Nat × Lexeme) → Reading
  | [] => ⟨[], none⟩
  | (_, .silent) :: rest => readEvents stack rest
  | (position, .broken e) :: _ => .failed (.malformed position (.lexical e))
  | (_, .cdata raw) :: rest =>
    if stack.isEmpty then readEvents stack rest
    else (readEvents stack rest).cons (.text (String.ofList raw))
  | (position, .text raw) :: rest =>
    if stack.isEmpty then readEvents stack rest
    else
      match expand raw with
      | .error e => .failed (.malformed position (.badReference e))
      | .ok run => (readEvents stack rest).cons (.text (String.ofList run))
  | (position, .tag content) :: rest =>
    if content.head? = some '/' then
      let found := endName content
      match stack with
      | [] => .failed (.malformed position (.strayEnd (String.ofList found)))
      | t :: outer =>
        if t.name = found then (readEvents outer rest).cons .closes
        else .failed (.malformed position
          (.mismatchedEnd (String.ofList t.name) (String.ofList found)))
    else if content.getLast? = some '/' then
      match readTag position (currentScope stack) content.dropLast with
      | .error e => .failed e
      | .ok (tag, _) => ((readEvents stack rest).cons .closes).cons (.opens tag)
    else
      match readTag position (currentScope stack) content with
      | .error e => .failed e
      | .ok (tag, t) => (readEvents (t :: stack) rest).cons (.opens tag)

theorem readEvents_text {t : OpenTag} {outer : List OpenTag} {position : Nat}
    {raw run : List Char} {rest : List (Nat × Lexeme)} (h : expand raw = .ok run) :
    readEvents (t :: outer) ((position, .text raw) :: rest) =
      (readEvents (t :: outer) rest).cons (.text (String.ofList run)) := by
  simp only [readEvents, List.isEmpty_cons, Bool.false_eq_true, ↓reduceIte, h]

/-- The events of a document. -/
def eventsOf (text : String) : Reading :=
  readEvents [] (lexemes text)

end FlowLint.Markup
