import FlowLint.Catalog.Description
import FlowLint.Catalog.Duplicates
import FlowLint.Catalog.List
import FlowLint.Catalog.NamingConvention
import FlowLint.Catalog.ProcessDirect
import FlowLint.Catalog.Transport

/-! # The built-in rules

A built-in rule is a value that holds its configuration; its logic and the name of its element follow
from it. All but two look at each artifact by itself.
-/

namespace FlowLint.Catalog

open FlowLint.Flow (Category)
open FlowLint.Markup (Element)

/-- A built-in rule as configured. -/
inductive BuiltIn
  | list (rule : ListRule)
  | description
  | naming (convention : NamingConvention)
  | endpoints
  | passwords
  | protection
  | duplicates (categories : List Category)
  | directCalls
deriving Repr, Inhabited

namespace BuiltIn

/-- What the rule does in a run. -/
def logic : BuiltIn → Logic
  | list r => .perArtifact r.inspect
  | description => .perArtifact inspectDescription
  | naming c => .perArtifact c.inspect
  | endpoints => .perArtifact inspectEndpoints
  | passwords => .perArtifact inspectPasswords
  | protection => .perArtifact inspectProtection
  | duplicates categories => .perRun (finishDuplicates categories)
  | directCalls => .perRun finishDirectCalls

end BuiltIn

/-- The built-in rules without their configurations, each with an element of its own. -/
inductive RuleKind
  | list (facet : Facet) (allow : Bool)
  | description
  | naming
  | endpoints
  | passwords
  | protection
  | duplicates
  | directCalls
deriving Repr, DecidableEq, Inhabited

namespace RuleKind

/-- Every kind, in the order of the catalog. -/
def all : List RuleKind :=
  (Facet.all.flatMap fun f => [list f true, list f false]) ++
    [description, naming, endpoints, passwords, protection, duplicates, directCalls]

def element : RuleKind → String
  | list facet allow => (if allow then "allowed-" else "disallowed-") ++ facet.plural
  | description => "iflow-description-required"
  | naming => "naming-conventions"
  | endpoints => "unencrypted-endpoints-not-allowed"
  | passwords => "cleartext-basic-auth-not-allowed"
  | protection => "csrf-protection-required"
  | duplicates => "duplicate-resources-not-allowed"
  | directCalls => "matching-process-direct-channels-required"

def ofElement? (name : String) : Option RuleKind :=
  all.find? (·.element = name)

/-- A rule that cannot be configured further. -/
def plain (e : Element) (rule : BuiltIn) : Except ConfigurationError BuiltIn :=
  (ofReading e (onlyChildren e [])).map fun _ => rule

/-- The rule of the kind that an element configures. -/
def read (e : Element) : RuleKind → Except ConfigurationError BuiltIn
  | list facet allow => (ofReading e (ListRule.read facet allow e)).map .list
  | description => plain e .description
  | naming => (NamingConvention.read e).map .naming
  | endpoints => plain e .endpoints
  | passwords => plain e .passwords
  | protection => plain e .protection
  | duplicates => (ofReading e (readCategories e)).map .duplicates
  | directCalls => plain e .directCalls

end RuleKind

def BuiltIn.kind : BuiltIn → RuleKind
  | list r => .list r.facet r.allow
  | description => .description
  | naming _ => .naming
  | endpoints => .endpoints
  | passwords => .passwords
  | protection => .protection
  | duplicates _ => .duplicates
  | directCalls => .directCalls

/-- The rule before a run. -/
def BuiltIn.toRule (b : BuiltIn) : Rule :=
  { kind := b.kind.element, logic := b.logic }

end FlowLint.Catalog
