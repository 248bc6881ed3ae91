import FlowLint.Markup.Attribute
import FlowLint.Text.Blank

/-! # Elements

A document is a tree of elements. An element keeps the text that stands directly inside it as one
run, in order and untrimmed, apart from its child elements. Names of children and attributes are
looked up without regard to namespaces; the namespace is there for those who ask.
-/

namespace FlowLint.Markup

/-- An element with all it holds. -/
structure Element where
  uri : Option String
  name : String
  attributes : List Attribute
  children : List Element
  content : String
deriving Repr, Inhabited

namespace Element

/-- An element without namespace, attributes, children or text. -/
def named (name : String) : Element :=
  ⟨none, name, [], [], ""⟩

def withNamespace (e : Element) (uri : String) : Element :=
  { e with uri := some uri }

/-- The element with one more attribute, even if it has one of that name already. -/
def withAttribute (e : Element) (name value : String) : Element :=
  { e with attributes := e.attributes ++ [⟨name, value⟩] }

def withChild (e child : Element) : Element :=
  { e with children := e.children ++ [child] }

def withText (e : Element) (text : String) : Element :=
  { e with content := e.content ++ text }

/-- The text directly inside the element, without blanks at either end. -/
def text (e : Element) : String :=
  Text.trim e.content

/-- The value of the first attribute with a name. -/
def attr? (e : Element) (name : String) : Option String :=
  (e.attributes.find? (·.name = name)).map (·.value)

def childrenNamed (e : Element) (name : String) : List Element :=
  e.children.filter (·.name = name)

def child? (e : Element) (name : String) : Option Element :=
  e.children.find? (·.name = name)

mutual
/-- The elements below an element in document order: each before those below it. -/
def beneath : Element → List Element
  | ⟨_, _, _, children, _⟩ => forest children
/-- The elements of a forest in document order. -/
def forest : List Element → List Element
  | [] => []
  | e :: rest => e :: (beneath e ++ forest rest)
end

mutual
/-- The number of elements of a tree, the root counted. -/
def size : Element → Nat
  | ⟨_, _, _, children, _⟩ => 1 + count children
def count : List Element → Nat
  | [] => 0
  | e :: rest => size e + count rest
end

theorem beneath_eq (e : Element) : beneath e = forest e.children := by
  cases e; rfl

@[simp] theorem count_cons (e : Element) (rest : List Element) :
    count (e :: rest) = 1 + count e.children + count rest := by
  cases e; rfl

@[simp] theorem count_append (xs ys : List Element) : count (xs ++ ys) = count xs + count ys := by
  induction xs with
  | nil => simp [count]
  | cons e rest ih => rw [List.cons_append, count_cons, count_cons, ih]; omega

/-- Visits the elements of a worklist: the first one, then those below it, then the others. -/
def visit : List Element → List Element
  | [] => []
  | e :: rest => e :: visit (e.children ++ rest)
termination_by pending => count pending
decreasing_by
  rw [count_append, count_cons]
  omega

/-- All elements below the element in document order, found with a worklist. -/
def descendants (e : Element) : List Element :=
  visit e.children

end Element

end FlowLint.Markup
