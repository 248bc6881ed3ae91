import FlowLint.Json.Value

/-! # Comparing reports of different runs

Two runs over the same input differ in their times, and two versions of the tool in their version.
Masked reports hold fixed marks in these places. Times are masked wherever they stand, the version only
in a value that has all members of a report.
-/

namespace FlowLint.Report

def timeKeys : List String := ["started_at", "finished_at"]

def timeMark : Json := .str "__TIMESTAMP__"

def versionMark : Json := .str "__VERSION__"

def hasKey (members : List (String × Json)) (key : String) : Bool :=
  members.any (·.1 = key)

/-- The members with all values of a key replaced. -/
def replace (key : String) (value : Json) (members : List (String × Json)) : List (String × Json) :=
  members.map fun m => if m.1 = key then (key, value) else m

/-- A tool with the version masked, if it has a name and a version. -/
def maskTool : Json → Json
  | .obj members =>
    if hasKey members "name" && hasKey members "version" then
      .obj (replace "version" versionMark members)
    else .obj members
  | v => v

/-- Whether the members are those of a report. -/
def isEnvelope (members : List (String × Json)) : Bool :=
  ["schema", "tool", "verdict", "issues", "data"].all (hasKey members)

/-- A report with the version of its tool masked. -/
def maskVersion : Json → Json
  | .obj members =>
    if isEnvelope members then
      .obj (members.map fun m => if m.1 = "tool" then (m.1, maskTool m.2) else m)
    else .obj members
  | v => v

mutual
/-- A value with all times masked. -/
def maskTimes : Json → Json
  | .obj members => .obj (maskMembers members)
  | .arr items => .arr (maskItems items)
  | v => v
def maskItems : List Json → List Json
  | [] => []
  | v :: rest => maskTimes v :: maskItems rest
def maskMembers : List (String × Json) → List (String × Json)
  | [] => []
  | (key, v) :: rest =>
    (key, if timeKeys.contains key then timeMark else maskTimes v) :: maskMembers rest
end

/-- A value with all that depends on time and version masked. -/
def mask (v : Json) : Json :=
  maskTimes (maskVersion v)

end FlowLint.Report
