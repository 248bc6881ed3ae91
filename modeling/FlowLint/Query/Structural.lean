import FlowLint.Markup.Element
import FlowLint.Text.Ascii

/-! # Structural queries

A query is a list of steps from the outermost element of a document. Each step goes from every
element reached so far to its children or to all elements below it, and keeps those with one of the
step's names that satisfy the step's conditions. Names are compared without namespaces.

An element is identified by its place in the document, the number of elements before it in document
order, so that two elements with equal content stay two and one reached in several ways stays one.
-/

namespace FlowLint.Query

open FlowLint.Markup (Element)

/-- The value of an extension property of an element: that of the first property with the key. -/
def property? (e : Element) (key : String) : Option String :=
  let properties := (e.childrenNamed "extensionElements").flatMap (·.childrenNamed "property")
  let found := properties.find? fun p => (p.child? "key").map Element.text = some key
  (found.bind (·.child? "value")).map Element.text

/-- The value of the first of several properties that is present. -/
def firstProperty? (e : Element) (keys : List String) : Option String :=
  keys.findSome? (property? e)

/-- A condition on the properties of an element. -/
inductive Condition
  /-- The property has one of the values. -/
  | oneOf (key : String) (values : List String)
  /-- The first present of the properties begins with a text, but for the case of letters. -/
  | startsWith (keys : List String) (lead : String)
deriving Repr, DecidableEq, Inhabited

def Condition.holds (e : Element) : Condition → Bool
  | oneOf key values => (property? e key).any fun v => values.contains v
  | startsWith keys lead => (firstProperty? e keys).any fun v => Text.startsWithIgnoringCase v lead

/-- Where a step goes. -/
inductive Axis
  | child
  | descendant
deriving Repr, DecidableEq, Inhabited

/-- One step of a query. -/
structure Step where
  axis : Axis
  names : List String
  conditions : List Condition := []
deriving Repr, DecidableEq, Inhabited

/-- A query, its steps in order. -/
structure Structural where
  steps : List Step := []
deriving Repr, DecidableEq, Inhabited

namespace Structural

def child (q : Structural) (name : String) : Structural :=
  ⟨q.steps ++ [⟨.child, [name], []⟩]⟩

/-- One more step to elements below, with any of the names. -/
def descendantAny (q : Structural) (names : List String) : Structural :=
  ⟨q.steps ++ [⟨.descendant, names, []⟩]⟩

/-- One more step to elements below, of a name. -/
def descendant (q : Structural) (name : String) : Structural :=
  q.descendantAny [name]

/-- One more condition on the last step; without a step it says nothing. -/
def satisfying (q : Structural) (c : Condition) : Structural :=
  match q.steps.getLast? with
  | none => q
  | some s => ⟨q.steps.dropLast ++ [{ s with conditions := s.conditions ++ [c] }]⟩

end Structural

def Condition.display : Condition → String
  | oneOf key values =>
    let listed := ", ".intercalate values
    s!"[property('{key}') in ({listed})]"
  | startsWith keys lead =>
    let listed := "|".intercalate keys
    s!"[property({listed}) starts-with '{lead}']"

def Step.display (s : Step) : String :=
  let axis :=
    match s.axis with
    | .child => "/"
    | .descendant => "//"
  axis ++ "|".intercalate s.names ++ String.join (s.conditions.map Condition.display)

def Structural.display (q : Structural) : String :=
  String.join (q.steps.map Step.display)

/-- An element with its place in the document. -/
structure Node where
  index : Nat
  element : Element
deriving Inhabited

/-- Elements with the places of their trees one after the other from `index`. -/
def numberTrees (index : Nat) : List Element → List Node
  | [] => []
  | e :: rest => ⟨index, e⟩ :: numberTrees (index + e.size) rest

/-- Elements with successive places from `index`. -/
def number (index : Nat) : List Element → List Node
  | [] => []
  | e :: rest => ⟨index, e⟩ :: number (index + 1) rest

namespace Node

/-- The children of an element with their places: the tree of each follows that of the one before. -/
def children (n : Node) : List Node :=
  numberTrees (n.index + 1) n.element.children

/-- The elements below an element with their places, which follow its own without a gap. -/
def descendants (n : Node) : List Node :=
  number (n.index + 1) n.element.descendants

def root (e : Element) : Node :=
  ⟨0, e⟩

end Node

namespace Step

/-- Where the step can go from an element. -/
def candidates (s : Step) (n : Node) : List Node :=
  match s.axis with
  | .child => n.children
  | .descendant => n.descendants

/-- Whether the step may end at an element. -/
def accepts (s : Step) (e : Element) : Bool :=
  s.names.contains e.name && s.conditions.all (Condition.holds e)

end Step

/-- Each element once, where it comes first; those at places in `seen` not at all. -/
def distinct (seen : List Nat) : List Node → List Node
  | [] => []
  | n :: rest =>
    if seen.contains n.index then distinct seen rest else n :: distinct (n.index :: seen) rest

/-- The elements that a step reaches from those in a list. -/
def Step.apply (s : Step) (context : List Node) : List Node :=
  distinct [] ((context.flatMap s.candidates).filter fun n => s.accepts n.element)

/-- The elements that a query selects below an element, which is itself the starting point. -/
def Structural.select (q : Structural) (root : Element) : List Node :=
  q.steps.foldl (fun context s => s.apply context) [Node.root root]

end FlowLint.Query
