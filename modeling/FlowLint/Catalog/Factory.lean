import FlowLint.Catalog.BuiltIn
import FlowLint.Rule.Factory

/-! # The factories of the built-in rules

Each facet has one factory for its two elements, and each of the other kinds has a factory of its own.
None of them claims an element in a namespace.
-/

namespace FlowLint.Catalog

def factoryOf (kinds : List RuleKind) : Factory :=
  { claims := fun n => n.uri.isNone && (kinds.map RuleKind.element).contains n.name
    build := fun e =>
      match kinds.find? (·.element = e.name) with
      | some kind => (kind.read e).map BuiltIn.toRule
      | none => .error (.noFactory (RuleName.ofElement e)) }

/-- The kinds that share a factory. -/
def families : List (List RuleKind) :=
  (Facet.all.map fun f => [.list f true, .list f false]) ++
    [[.description], [.naming], [.endpoints], [.passwords], [.protection], [.duplicates],
      [.directCalls]]

/-- The registry of the built-in rules. -/
def registry : Registry :=
  ⟨families.map factoryOf⟩

end FlowLint.Catalog
