import FlowLint.Issue.Basic
import FlowLint.Time.Moment

/-! # Reports

A report says which tool ran when, what it found, and over how much. Its verdict and its issues are
kept side by side, so a report that was read need not agree with itself.
-/

namespace FlowLint

/-- Whether a run found anything. -/
inductive Verdict
  | pass
  | fail
deriving Repr, DecidableEq, Inhabited

namespace Verdict

def ofCount (issues : UInt32) : Verdict :=
  if issues = 0 then pass else fail

def word : Verdict → String
  | pass => "pass"
  | fail => "fail"

def ofWord? (s : String) : Option Verdict :=
  [pass, fail].find? (·.word = s)

def exitCode : Verdict → Nat
  | pass => 0
  | fail => 2

end Verdict

structure Tool where
  name : String
  version : String
deriving Repr, DecidableEq, Inhabited

/-- How much a run was about. Exempt issues do not count as found. -/
structure Totals where
  artifactsInspected : UInt32
  issuesFound : UInt32
  rulesLoaded : UInt32
  exemptionsConfigured : UInt32
deriving Repr, DecidableEq, Inhabited

structure Report where
  tool : Tool
  startedAt : Moment
  finishedAt : Moment
  verdict : Verdict
  issues : List Issue
  totals : Totals
deriving Repr, Inhabited

/-- The name of the form in which reports are written. -/
def Report.schema : String := "cpilint.report.v1"

end FlowLint
