import FlowLint.Rule.Error

/-! # Reading the configuration of a rule

A built-in rule is configured by the child elements of its element. The readers here say what is
wrong with the first child that does not fit.
-/

namespace FlowLint.Catalog

open FlowLint.Markup (Element)

/-- Whether a child is one of those a rule may be configured with. -/
def isAllowedChild (names : List String) (child : Element) : Bool :=
  child.uri.isNone && names.contains child.name

/-- Refuses children of other names and children in a namespace. -/
def onlyChildren (e : Element) (names : List String) : Except Misconfiguration Unit :=
  match e.children.find? (!isAllowedChild names ·) with
  | some child => .error (.unexpectedChild child.name)
  | none => .ok ()

def singleChild (e : Element) (name : String) : Except Misconfiguration Element :=
  match e.childrenNamed name with
  | [one] => .ok one
  | [] => .error (.missingChild name)
  | _ => .error (.repeatedChild name)

/-- The texts of the children with a name, none of which may be empty. -/
def childTexts (e : Element) (name : String) : Except Misconfiguration (List String) :=
  let texts := (e.childrenNamed name).map Element.text
  if texts.contains "" then .error (.emptyChild name) else .ok texts

/-- What words mean, or the first word that means nothing. -/
def readWords {α : Type} (meaning : String → Option α) (unknown : String → Misconfiguration) :
    List String → Except Misconfiguration (List α)
  | [] => .ok []
  | word :: rest =>
    match meaning word with
    | none => .error (unknown word)
    | some value => (readWords meaning unknown rest).map (value :: ·)

def nonEmpty {α : Type} (name : String) (values : List α) : Except Misconfiguration (List α) :=
  if values.isEmpty then .error (.noneOf name) else .ok values

/-- A misconfiguration as an error about the element of a rule. -/
def ofReading {α : Type} (e : Element) (reading : Except Misconfiguration α) :
    Except ConfigurationError α :=
  reading.mapError (.invalidRule e.name)

end FlowLint.Catalog
