import FlowLint.Rule.Basic

/-! # Factories and registries

A factory builds rules from the elements it claims. A registry asks all its factories who claims an
element before any of them builds anything, and lets the one that does build the rule; it refuses the
element if nobody does or several do. Extensions are offered elements in a namespace only.
-/

namespace FlowLint

open FlowLint.Markup (Element)

def RuleName.ofElement (e : Element) : RuleName :=
  ⟨e.name, e.uri⟩

/-- Builds the rules of the elements it claims. -/
structure Factory where
  claims : RuleName → Bool
  build : Element → Except ConfigurationError Rule

/-- Builds rules that are not built in. Elements are validated before a rule is created. -/
structure ExtensionFactory where
  claims : (name uri : String) → Bool
  validate : Element → Except ExtensionError Unit
  create : Element → Except ExtensionError Rule

namespace ExtensionFactory

/-- Whether the extension claims an element, which it can only in a namespace. -/
def claimsName (x : ExtensionFactory) (n : RuleName) : Bool :=
  n.uri.any (x.claims n.name)

/-- The objection of an extension to an element. -/
def objection (e : Element) : ExtensionError → ConfigurationError :=
  .extension e.name (e.uri.getD "")

/-- The extension among other factories. -/
def toFactory (x : ExtensionFactory) : Factory :=
  { claims := x.claimsName
    build := fun e => (x.validate e >>= fun _ => x.create e).mapError (objection e) }

end ExtensionFactory

/-- The factories that rules may be built with. -/
structure Registry where
  factories : List Factory := []

namespace Registry

/-- The registry with extensions after its own factories. -/
def withExtensions (g : Registry) (extensions : List ExtensionFactory) : Registry :=
  ⟨g.factories ++ extensions.map ExtensionFactory.toFactory⟩

/-- The factories that claim an element. -/
def claimants (g : Registry) (e : Element) : List Factory :=
  g.factories.filter (·.claims (RuleName.ofElement e))

/-- The rule that an element configures. -/
def create (g : Registry) (e : Element) : Except ConfigurationError Rule :=
  match g.claimants e with
  | [one] => one.build e
  | [] => .error (.noFactory (RuleName.ofElement e))
  | several => .error (.ambiguousFactory (RuleName.ofElement e) several.length)

end Registry

end FlowLint
