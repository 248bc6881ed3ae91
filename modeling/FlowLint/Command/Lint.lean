import FlowLint.Bundle.Reading
import FlowLint.Report.Basic
import FlowLint.Rule.Run
import FlowLint.RulesFile.Disk
import FlowLint.RulesFile.Loader

/-! # Linting

Rules are loaded, artifacts are read, the rules are run over the artifacts, and the outcome is put
into a report. Any failure on the way leaves no report.
-/

namespace FlowLint.Command

open FlowLint.Files (Tree)

/-- Why there is no report. -/
inductive LintError
  | rules (file : Path) (error : ConfigurationError)
  | artifacts (error : Bundle.CorpusError)
  | aborted (error : RunError)
deriving Repr, DecidableEq, Inhabited

/-- The texts of the error, from what was being done down to what went wrong. -/
def LintError.chain : LintError → List String
  | rules file e => s!"load rules file {file.text}" :: e.message :: e.causes
  | artifacts e => "load artifacts" :: e.chain
  | aborted e => "lint run aborted" :: e.message :: e.causes

/-- What is linted, and with which rules. -/
structure Lint where
  rules : Path
  directories : List Path
deriving Repr, DecidableEq, Inhabited

/-- When a run begins and ends. -/
structure Span where
  started : Moment
  finished : Moment
deriving Repr, DecidableEq, Inhabited

/-- A report, and how many issues were exempt from it. -/
structure LintResult where
  report : Report
  suppressed : Nat
deriving Repr, Inhabited

def tool : Tool := ⟨"cpilint", "0.1.0"⟩

/-- A count in a report; there is a largest one. -/
def counter (n : Nat) : UInt32 :=
  UInt32.ofNat (min n (UInt32.size - 1))

def reportOf (file : RulesFile) (summary : Summary) (issues : List Issue) (span : Span) : Report :=
  let found := counter summary.issuesFound
  { tool
    startedAt := span.started
    finishedAt := span.finished
    verdict := .ofCount found
    issues
    totals :=
      { artifactsInspected := counter summary.artifactsInspected
        issuesFound := found
        rulesLoaded := counter file.rules.length
        exemptionsConfigured := counter file.exemptions.length } }

/-- Lints what is in a file tree. -/
def Lint.run (l : Lint) (t : Tree) (g : Registry) (span : Span) : Except LintError LintResult := do
  let file ← (RulesFile.load (.ofTree t) g l.rules).mapError (.rules l.rules)
  let artifacts ← (Bundle.loadArtifacts t l.directories).mapError .artifacts
  let sink : ExemptionFilter Collector := { exemptions := file.exemptions, inner := {} }
  let o := FlowLint.run file.rules (artifacts.map .ok) sink
  let summary ← o.summary.mapError .aborted
  return ⟨reportOf file summary o.sink.inner.issues span, o.sink.suppressed⟩

end FlowLint.Command
