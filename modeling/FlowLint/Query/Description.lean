import FlowLint.Query.Structural
import FlowLint.Flow.Artifact

/-! # The description of a flow

A flow document has one element for the collaboration as a whole, and the documentation directly
inside it describes the flow. More than one of either is a failure: there is then no telling which
is meant.
-/

namespace FlowLint.Query

open FlowLint.Flow (Artifact)
open FlowLint.Markup (Element)

/-- What should be there once, and how often it is there. -/
structure NotUnique where
  artifact : String
  what : String
  found : Nat
deriving Repr, DecidableEq, Inhabited

def NotUnique.message (e : NotUnique) : String :=
  s!"artifact '{e.artifact}': expected exactly one {e.what}, found {e.found}"

/-- The element for the collaboration as a whole. -/
def collaboration (a : Artifact) : Except NotUnique Element :=
  match (Structural.descendant {} "collaboration").select a.document with
  | [one] => .ok one.element
  | others => .error ⟨a.tag.id, "collaboration element", others.length⟩

/-- The description of the flow; none if it is missing or blank. -/
def description (a : Artifact) : Except NotUnique (Option String) :=
  match collaboration a with
  | .error e => .error e
  | .ok c =>
    match (Structural.child {} "documentation").select c with
    | [] => .ok none
    | [one] => .ok (some one.element.text |>.filter (· ≠ ""))
    | others => .error ⟨a.tag.id, "collaboration documentation element", others.length⟩

end FlowLint.Query
