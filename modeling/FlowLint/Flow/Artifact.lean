import FlowLint.Flow.Tag
import FlowLint.Flow.Vocabulary
import FlowLint.Markup.Element

/-! # Artifacts

An artifact is one integration flow as delivered: its tag, its document and the resources bundled
with it. Resources keep the order in which they were added; rules see them category by category.
-/

namespace FlowLint.Flow

open FlowLint.Markup (Element)

/-- The kind of a bundled resource. -/
inductive Category
  | groovyScript | javascript | messageMapping | operationMapping | xslt | xsd | wsdl | edmx | json
  | archive
deriving Repr, DecidableEq, Inhabited

namespace Category

/-- Every category, in the order of reports. -/
def all : List Category :=
  [groovyScript, javascript, messageMapping, operationMapping, xslt, xsd, wsdl, edmx, json, archive]

/-- The word in rules files and reports. -/
def token : Category → String
  | groovyScript => "groovy-script"
  | javascript => "javascript"
  | messageMapping => "message-mapping"
  | operationMapping => "operation-mapping"
  | xslt => "xslt"
  | xsd => "xsd"
  | wsdl => "wsdl"
  | edmx => "edmx"
  | json => "json"
  | archive => "archive"

def ofToken? (s : String) : Option Category :=
  all.find? (·.token = s)

def isScript : Category → Bool
  | groovyScript | javascript => true
  | _ => false

def isMapping : Category → Bool
  | messageMapping | operationMapping | xslt => true
  | _ => false

theorem mem_all (c : Category) : c ∈ all := by
  cases c <;> decide

end Category

/-- A bundled resource. Its name is its path below the folder of all resources. -/
structure Resource where
  name : String
  category : Category
  content : List UInt8
deriving Repr, DecidableEq, Inhabited

def Resource.fileName (r : Resource) : String :=
  String.ofList (r.name.toList.reverse.takeWhile (· ≠ '/')).reverse

/-- One integration flow as delivered. -/
structure Artifact where
  tag : Tag
  document : Element
  resources : List Resource := []
deriving Repr, Inhabited

namespace Artifact

/-- The resources of a category, in the order in which they were added. -/
def resourcesOf (a : Artifact) (c : Category) : List Resource :=
  a.resources.filter (·.category = c)

def allResources (a : Artifact) : List Resource :=
  Category.all.flatMap a.resourcesOf

end Artifact

end FlowLint.Flow
