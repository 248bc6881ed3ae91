import FlowLint.Report.Basic

/-! # What readers of a report are shown

A view holds the texts that renderings of a report put in front of people.
-/

namespace FlowLint

/-- An issue as shown, with the artifacts as shown. -/
structure ShownIssue where
  ruleId : Option String
  code : String
  message : String
  artifacts : List String
deriving Repr, DecidableEq, Inhabited

/-- A report as shown; the note says what is left out. -/
structure View where
  verdict : Verdict
  issues : List ShownIssue
  artifactsInspected : Nat
  issuesFound : Nat
  note : Option String := none
deriving Repr, DecidableEq, Inhabited

def Issue.shown (i : Issue) : ShownIssue :=
  ⟨i.ruleId, i.detail.code, i.message, i.tags.map (·.display)⟩

def Report.view (r : Report) : View :=
  { verdict := r.verdict
    issues := r.issues.map Issue.shown
    artifactsInspected := r.totals.artifactsInspected.toNat
    issuesFound := r.totals.issuesFound.toNat }

end FlowLint
