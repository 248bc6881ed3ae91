import FlowLint.Query.Description
import FlowLint.Rule.Basic

/-! # Flows must be described -/

namespace FlowLint.Catalog

open FlowLint.Flow (Artifact)

def inspectDescription (a : Artifact) : Response :=
  match Query.description a with
  | .error e => { failure := some (.notUnique e) }
  | .ok (some _) => {}
  | .ok none =>
    { issues := [.single .missingDescription a.tag
        s!"Integration flow {a.tag.display} has no description"] }

end FlowLint.Catalog
