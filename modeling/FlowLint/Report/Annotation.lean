import FlowLint.Report.View
import FlowLint.Text.Escape

/-! # Reports as annotations

A line for each issue that a build service shows next to the build, and one last line for the note.
Percent signs and line breaks are escaped, so that a line holds exactly one annotation.
-/

namespace FlowLint

namespace Annotation

def escapeChar (c : Char) : List Char :=
  if c = '%' then ['%', '2', '5']
  else if c = '\r' then ['%', '0', 'D']
  else if c = '\n' then ['%', '0', 'A']
  else [c]

def escape (text : String) : String :=
  Text.escapeBy escapeChar text

/-- What an annotation says of an issue. -/
def message (i : ShownIssue) : String :=
  let rule := i.ruleId.getD "cpilint"
  s!"[{rule}:{i.code}] {i.message}" ++
    if i.artifacts.isEmpty then ""
    else
      let listed := ", ".intercalate i.artifacts
      s!" (artifacts: {listed})"

def error (i : ShownIssue) : String :=
  "::error::" ++ escape (message i)

def notice (note : String) : String :=
  "::notice::" ++ escape note

end Annotation

namespace View

def annotations (v : View) : List String :=
  v.issues.map Annotation.error ++ (v.note.map Annotation.notice).toList

/-- The view of the first issues; if any are left out, the note says how many. -/
def truncated (v : View) (limit : Nat) : View :=
  let omitted := v.issues.length - limit
  { v with
    issues := v.issues.take limit
    note := if omitted = 0 then v.note else some s!"{omitted} more issue(s) not annotated" }

def annotationsUpTo (v : View) (limit : Nat) : List String :=
  (v.truncated limit).annotations

end View

end FlowLint
