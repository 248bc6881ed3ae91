import FlowLint.Issue.Basic

/-! # Sinks

A sink takes the issues of a run one by one and counts those that will be reported. One keeps every
issue in order; another stands in front of a sink and holds back what is exempt.
-/

namespace FlowLint

/-- Something that takes issues. -/
class Sink (σ : Type) where
  accept : σ → Issue → σ
  /-- The number of issues that will be reported. -/
  count : σ → Nat

def Sink.acceptAll {σ : Type} [Sink σ] (sink : σ) (issues : List Issue) : σ :=
  issues.foldl Sink.accept sink

/-- The sink that keeps every issue. -/
structure Collector where
  issues : List Issue := []
deriving Inhabited

instance : Sink Collector where
  accept c i := ⟨c.issues ++ [i]⟩
  count c := c.issues.length

/-- A suppression: issues of the rule that are about no other artifact are not reported. -/
structure Exemption where
  ruleId : String
  artifactId : String
deriving Repr, DecidableEq, Inhabited

/-- By rule, then artifact. -/
instance : LT Exemption :=
  ⟨fun a b => a.ruleId < b.ruleId ∨ (a.ruleId = b.ruleId ∧ a.artifactId < b.artifactId)⟩

instance (a b : Exemption) : Decidable (a < b) :=
  inferInstanceAs (Decidable
    (a.ruleId < b.ruleId ∨ (a.ruleId = b.ruleId ∧ a.artifactId < b.artifactId)))

/-- The exemptions of a collection added to sorted exemptions. -/
def addExemptions (sorted more : List Exemption) : List Exemption :=
  Order.union sorted more

/-- The exempted artifacts of each rule that has exemptions. -/
abbrev ExemptionTable := List (String × List String)

namespace ExemptionTable

def add (x : Exemption) : ExemptionTable → ExemptionTable
  | [] => [(x.ruleId, [x.artifactId])]
  | (rule, artifacts) :: rest =>
    if rule = x.ruleId then (rule, Order.insert x.artifactId artifacts) :: rest
    else (rule, artifacts) :: add x rest

def ofExemptions (exemptions : List Exemption) : ExemptionTable :=
  exemptions.foldr add []

/-- Whether an issue is exempt: it carries the id of a rule, and every artifact it is about is
exempted from that rule. A rule without exemptions exempts nothing. -/
def isExempt (table : ExemptionTable) (i : Issue) : Bool :=
  match i.ruleId with
  | none => false
  | some rule =>
    match table.lookup rule with
    | none => false
    | some artifacts => i.tagIds.all artifacts.contains

end ExemptionTable

/-- Whether an issue is exempt by a collection of exemptions. -/
def isExempt (exemptions : List Exemption) (i : Issue) : Bool :=
  (ExemptionTable.ofExemptions exemptions).isExempt i

/-- A sink behind a filter that holds back exempt issues and counts them. The exemptions are grouped
by rule once, when the filter is made. -/
structure ExemptionFilter (σ : Type) where
  exemptions : List Exemption
  inner : σ
  suppressed : Nat := 0
  table : ExemptionTable := .ofExemptions exemptions
  table_eq : table = .ofExemptions exemptions := by rfl

instance {σ : Type} [Sink σ] : Sink (ExemptionFilter σ) where
  accept f i :=
    if f.table.isExempt i then { f with suppressed := f.suppressed + 1 }
    else { f with inner := Sink.accept f.inner i }
  count f := Sink.count f.inner

end FlowLint
