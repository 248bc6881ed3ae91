import FlowLint.Markup.Attribute

/-! # Namespaces

A tag may bind qualifiers, and the empty qualifier of unqualified element names, to namespaces; a
binding holds for the tag itself and all inside it, until a tag further in binds the same qualifier
again. Attribute names take part in none of this.
-/

namespace FlowLint.Markup

/-- A binding of a qualifier to a namespace as written. The empty qualifier is that of unqualified
names, an empty namespace undoes an outer binding. -/
structure Binding where
  qualifier : List Char
  uri : List Char
deriving Repr, DecidableEq, Inhabited

/-- The bindings in force, innermost and latest first. -/
abbrev Scope := List Binding

/-- The bindings that hold in every document. -/
def Scope.outermost : Scope :=
  [⟨"xmlns".toList, xmlnsNamespace.toList⟩, ⟨"xml".toList, xmlNamespace.toList⟩]

/-- What a declaration adds. The reserved qualifier `xml` may be bound to its own namespace, which
adds nothing; no other declaration may touch a reserved name, save that of unqualified names. -/
def declared (key uri : List Char) : Except BindingError (Option Binding) :=
  if key = "xmlns".toList then .ok (some ⟨[], uri⟩)
  else if !"xmlns:".toList.isPrefixOf key then .ok none
  else
    let qualifier := key.drop 6
    if qualifier = "xml".toList then
      if uri = xmlNamespace.toList then .ok none else .error (.rebindsXml (String.ofList uri))
    else if qualifier = "xmlns".toList then .error (.rebindsXmlns (String.ofList uri))
    else if uri = xmlNamespace.toList then .error (.claimsXml (String.ofList qualifier))
    else if uri = xmlnsNamespace.toList then .error (.claimsXmlns (String.ofList qualifier))
    else .ok (some ⟨qualifier, uri⟩)

/-- The scope inside a tag. Declarations after the first malformed attribute are not seen. -/
def Scope.enter (scope : Scope) : List AttributeItem → Except BindingError Scope
  | .pair _ key raw :: rest =>
    match declared key raw with
    | .error e => .error e
    | .ok binding? => Scope.enter (binding?.toList ++ scope) rest
  | _ => .ok scope

/-- The namespace of a name: none if it is unqualified and no default is bound. A qualifier without
a binding, or whose binding is undone, is an error that names it. -/
def Scope.resolve (scope : Scope) (name : List Char) : Except String (Option String) :=
  match (splitQualifier name).1 with
  | none =>
    match scope.find? (·.qualifier = []) with
    | some b => .ok (if b.uri.isEmpty then none else some (String.ofList b.uri))
    | none => .ok none
  | some qualifier =>
    match scope.find? (fun b => b.qualifier ≠ [] ∧ b.qualifier = qualifier) with
    | some b => if b.uri.isEmpty then .error (String.ofList qualifier) else .ok (some (String.ofList b.uri))
    | none => .error (String.ofList qualifier)

end FlowLint.Markup
