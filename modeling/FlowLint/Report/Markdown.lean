import FlowLint.Report.View

/-! # Reports in Markdown

A header, then a bullet for each issue with a nested line that names its artifacts. Line breaks in a
message become spaces; other texts are written as they are.
-/

namespace FlowLint.View

/-- The message on one line. -/
def oneLine (message : String) : String :=
  String.ofList (message.toList.map fun c => if c = '\r' ∨ c = '\n' then ' ' else c)

def verdictText : Verdict → String
  | .pass => "PASS"
  | .fail => "FAIL"

def header (v : View) : List String :=
  ["# cpilint report", "", s!"- Verdict: **{verdictText v.verdict}**",
    s!"- Artifacts inspected: {v.artifactsInspected}", s!"- Issues: {v.issuesFound}", ""] ++
  match v.note with
  | none => []
  | some note => [s!"> Note: {note}", ""]

def bullet (i : ShownIssue) : String :=
  match i.ruleId with
  | some rule => s!"- `{rule}` / `{i.code}`: {oneLine i.message}"
  | none => s!"- `{i.code}`: {oneLine i.message}"

def issueLines (i : ShownIssue) : List String :=
  bullet i ::
    if i.artifacts.isEmpty then []
    else ["  - artifacts: " ++ ", ".intercalate i.artifacts]

def bodyLines (v : View) : List String :=
  if v.issues.isEmpty then ["No issues."]
  else ["## Issues", ""] ++ v.issues.flatMap issueLines

def markdown (v : View) : String :=
  String.join ((v.header ++ v.bodyLines).map (· ++ "\n"))

end FlowLint.View
