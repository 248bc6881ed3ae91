import FlowLint.Flow.Vocabulary
import FlowLint.Text.Escape

/-! # Drafts of artifacts

A draft describes a small artifact by its name, its channels and its mapping steps, and can be written
out as a manifest and a document. Texts of any kind survive in the document, since everything that
markup would take for its own is escaped.
-/

namespace FlowLint.Bundle

open FlowLint.Flow (Direction)

/-- A property of an element of a document. -/
structure Property where
  key : String
  value : String
deriving Repr, DecidableEq, Inhabited

structure DraftChannel where
  id : String
  name : String
  direction : Direction
  componentType : String
  properties : List Property := []
deriving Repr, DecidableEq, Inhabited

structure DraftStep where
  id : String
  subActivityType : String
deriving Repr, DecidableEq, Inhabited

/-- A draft of an artifact. -/
structure Draft where
  id : String
  name : Option String := none
  description : Option String := none
  channels : List DraftChannel := []
  mappingSteps : List DraftStep := []
deriving Repr, DecidableEq, Inhabited

/-- A character inside a text run or a quoted attribute. -/
def escapeChar (c : Char) : List Char :=
  if c = '&' then "&amp;".toList
  else if c = '<' then "&lt;".toList
  else if c = '>' then "&gt;".toList
  else if c = '"' then "&quot;".toList
  else [c]

def escape (text : String) : String :=
  Text.escapeBy escapeChar text

def Property.line (p : Property) : String :=
  s!"        <ifl:property><key>{escape p.key}</key><value>{escape p.value}</value></ifl:property>"

def propertyLines (ps : List Property) : List String :=
  ["      <bpmn2:extensionElements>"] ++ ps.map Property.line ++
    ["      </bpmn2:extensionElements>"]

/-- The properties of a channel: its direction and component type, then its own. -/
def DraftChannel.allProperties (c : DraftChannel) : List Property :=
  [⟨"direction", c.direction.word⟩, ⟨"ComponentType", c.componentType⟩] ++ c.properties

def DraftChannel.lines (c : DraftChannel) : List String :=
  [s!"    <bpmn2:messageFlow id=\"{escape c.id}\" name=\"{escape c.name}\">"] ++
    propertyLines c.allProperties ++ ["    </bpmn2:messageFlow>"]

def DraftStep.properties (s : DraftStep) : List Property :=
  [⟨"activityType", "Mapping"⟩, ⟨"subActivityType", s.subActivityType⟩]

/-- The lines of a mapping step, which is called by its id. -/
def DraftStep.lines (s : DraftStep) : List String :=
  [s!"    <bpmn2:callActivity id=\"{escape s.id}\" name=\"{escape s.id}\">"] ++
    propertyLines s.properties ++ ["    </bpmn2:callActivity>"]

namespace Draft

def descriptionLines (d : Draft) : List String :=
  (d.description.map fun text =>
    s!"    <bpmn2:documentation>{escape text}</bpmn2:documentation>").toList

def documentLines (d : Draft) : List String :=
  ["<bpmn2:definitions xmlns:bpmn2=\"http://www.omg.org/spec/BPMN/20100524/MODEL\" " ++
      "xmlns:ifl=\"http:///com.sap.ifl.model/Ifl.xsd\">",
    "  <bpmn2:collaboration id=\"Collaboration_1\">"] ++ d.descriptionLines ++
    d.channels.flatMap DraftChannel.lines ++
    ["  </bpmn2:collaboration>", "  <bpmn2:process id=\"Process_1\">"] ++
    d.mappingSteps.flatMap DraftStep.lines ++ ["  </bpmn2:process>", "</bpmn2:definitions>"]

def document (d : Draft) : String :=
  String.join (d.documentLines.map (· ++ "\n"))

def manifest (d : Draft) : String :=
  String.join ((["Manifest-Version: 1.0", s!"Bundle-SymbolicName: {d.id}; singleton:=true"] ++
    (d.name.map fun name => s!"Bundle-Name: {name}").toList).map (· ++ "\r\n"))

end Draft

end FlowLint.Bundle
