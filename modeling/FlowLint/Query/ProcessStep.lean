import FlowLint.Query.Channel

/-! # Process steps

A step of a flow's process is an element whose properties say what it does; rules ask for steps that
map messages.
-/

namespace FlowLint.Query

open FlowLint.Markup (Element)
open FlowLint.Flow (MappingType)

/-- An element that is a step. -/
structure ProcessStep where
  element : Element
deriving Inhabited

/-- The activity of steps that map messages. -/
def mappingActivity : String := "Mapping"

namespace ProcessStep

def id? (s : ProcessStep) : Option String :=
  s.element.attr? "id"

def name (s : ProcessStep) : String :=
  displayName s.element

def property? (s : ProcessStep) (key : String) : Option String :=
  Query.property? s.element key

def activityType? (s : ProcessStep) : Option String :=
  s.property? "activityType"

/-- In what way the step does it. -/
def subActivityType? (s : ProcessStep) : Option String :=
  s.property? "subActivityType"

/-- The mapping type of a step that maps messages in a known way. -/
def mappingType? (s : ProcessStep) : Option MappingType :=
  if s.activityType? = some mappingActivity then
    s.subActivityType? >>= MappingType.ofSubActivityType?
  else none

end ProcessStep

/-- Which steps a rule asks for. No ways of doing the activity means any way. -/
structure StepFilter where
  activity : Option String := none
  subActivities : List String := []
deriving Repr, DecidableEq, Inhabited

namespace StepFilter

def mappings : StepFilter :=
  { activity := some mappingActivity }

/-- Steps that map messages in one of the given ways. -/
def ofMappingTypes (types : List MappingType) : StepFilter :=
  { mappings with subActivities := types.map MappingType.subActivityType }

def conditions (f : StepFilter) : List Condition :=
  (f.activity.map fun a => Condition.oneOf "activityType" [a]).toList ++
    (if f.subActivities.isEmpty then [] else [.oneOf "subActivityType" f.subActivities])

def toQuery (f : StepFilter) : Structural :=
  f.conditions.foldl Structural.satisfying
    (Structural.descendantAny {} ["callActivity", "serviceTask"])

end StepFilter

/-- The steps of a document that a filter asks for. -/
def processSteps (document : Element) (f : StepFilter) : List ProcessStep :=
  (f.toQuery.select document).map fun n => ⟨n.element⟩

end FlowLint.Query
