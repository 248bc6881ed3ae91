import FlowLint.Markup.Element
import FlowLint.Markup.Event

/-! # Documents

The events of a text are nested into one tree: an element's parent is the innermost element still
open where it opens. A document has exactly one outermost element, and all its elements close.
-/

namespace FlowLint.Markup

/-- An open element: what it has received so far, children latest first. -/
structure Frame where
  tag : Tag
  children : List Element
  content : String
deriving Repr, Inhabited

def Frame.close (f : Frame) : Element :=
  ⟨f.tag.uri, f.tag.name, f.tag.attributes, f.children.reverse, f.content⟩

/-- Nests events into the open elements, innermost first; `root` is the outermost element that is
already closed. A second outermost element is refused where it closes. -/
def nest (stack : List Frame) (root : Option Element) : List Event → Option Error → Except Error Element
  | .opens tag :: rest, failure => nest (⟨tag, [], ""⟩ :: stack) root rest failure
  | .text run :: rest, failure =>
    match stack with
    | [] => nest [] root rest failure
    | f :: outer => nest ({ f with content := f.content ++ run } :: outer) root rest failure
  | .closes :: rest, failure =>
    match stack with
    | [] => nest [] root rest failure
    | [f] =>
      match root with
      | none => nest [] (some f.close) rest failure
      | some _ => .error (.multipleRoots f.tag.name)
    | f :: parent :: outer =>
      nest ({ parent with children := f.close :: parent.children } :: outer) root rest failure
  | [], some error => .error error
  | [], none =>
    match stack, root with
    | f :: _, _ => .error (.unclosed f.tag.name)
    | [], some e => .ok e
    | [], none => .error .noRoot

/-- The tree of a document. -/
def parse (text : String) : Except Error Element :=
  let reading := eventsOf text
  nest [] none reading.events reading.failure

end FlowLint.Markup
