import FlowLint.Rule.Factory

/-! # Extensions described by data

An extension that says which elements it claims, what it objects to, and in which hook its rules fail
or raise an issue. Its rules remember the tags of the artifacts they were shown, whether or not they
failed at it.
-/

namespace FlowLint.Extension

open FlowLint.Flow (Artifact Tag)
open FlowLint.Markup (Element)

/-- What an extension does. A missing name or namespace claims any. -/
structure Declared where
  name : Option String := none
  uri : Option String := none
  requiredChild : Option String := none
  creationError : Option String := none
  cause : Option String := none
  presetId : Option String := none
  failsAt : Option HookName := none
  raisesAt : Option HookName := none
  code : String := "ext"
  data : Json := .null
  issueRuleId : Option String := none
deriving Repr, Inhabited

namespace Declared

/-- The failure of a hook, if it is the one that fails. -/
def failure? (d : Declared) (h : HookName) : Option EvaluationError :=
  if d.failsAt = some h then some (.noArtifacts s!"ext {h.text}") else none

/-- The issue about some artifacts; none if there are none. -/
def issue? (d : Declared) (tags : List Tag) : Option Issue :=
  (Issue.spanning? (.extension d.code d.data) tags "extension issue").map
    (·.withRuleId d.issueRuleId)

/-- The answer to an artifact. -/
def inspect (d : Declared) (a : Artifact) : Response :=
  match d.failure? .inspect with
  | some e => { failure := some e }
  | none => if d.raisesAt = some .inspect then { issues := (d.issue? [a.tag]).toList } else {}

/-- The answer at the end, given the artifacts that were shown. -/
def finish (d : Declared) (seen : List Artifact) : Response :=
  match d.failure? .finish with
  | some e => { failure := some e }
  | none =>
    if d.raisesAt = some .finish then
      match d.issue? (seen.map (·.tag)) with
      | some i => { issues := [i] }
      | none => { failure := some (.noArtifacts "ext") }
    else {}

def logic (d : Declared) : Logic :=
  { start := fun _ => d.failure? .start
    inspect := fun _ a => d.inspect a
    finish := fun entered => d.finish (inspected entered) }

/-- Objects to an element without the required child. -/
def validate (d : Declared) (e : Element) : Except ExtensionError Unit :=
  match d.requiredChild with
  | none => .ok ()
  | some child =>
    if (e.child? child).isSome then .ok () else .error ⟨s!"missing <{child}>", d.cause⟩

def create (d : Declared) (e : Element) : Except ExtensionError Rule :=
  match d.creationError with
  | some message => .error ⟨message, d.cause⟩
  | none => .ok { kind := e.name, id := d.presetId, logic := d.logic }

def factory (d : Declared) : ExtensionFactory :=
  { claims := fun name uri => d.name.all (· == name) && d.uri.all (· == uri)
    validate := d.validate
    create := d.create }

end Declared

end FlowLint.Extension
