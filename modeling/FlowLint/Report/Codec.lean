import FlowLint.Issue.Codec
import FlowLint.Json.Printer
import FlowLint.Report.Basic

/-! # Reports as JSON

The written form of a report and its reader. A text is read in three steps, each with an error of its
own: it must be JSON, name the right schema, and have the right shape. Of members with the same key
the last one counts.
-/

namespace FlowLint

open FlowLint.Json (record? text? items? textMember)

def counterJson (n : UInt32) : Json :=
  .ofNat n.toNat

def counter? (v : Json) : Option UInt32 := do
  let n ← v.asNat?
  if n < UInt32.size then some (UInt32.ofNat n) else none

def Tool.toJson (t : Tool) : Json :=
  .obj [textMember "name" t.name, textMember "version" t.version]

def Tool.ofJson? (v : Json) : Option Tool := do
  let members ← record? ["name", "version"] v
  return ⟨← text? members "name", ← text? members "version"⟩

/-- The verdict that a value writes: its word, or an object with the word as its only key and null as
the value. -/
def Verdict.ofJson? : Json → Option Verdict
  | .str word => ofWord? word
  | .obj [(word, .null)] => ofWord? word
  | _ => none

def Totals.toJson (t : Totals) : Json :=
  .obj [("artifacts_inspected", counterJson t.artifactsInspected),
    ("issues_found", counterJson t.issuesFound), ("rules_loaded", counterJson t.rulesLoaded),
    ("exemptions_configured", counterJson t.exemptionsConfigured)]

def Totals.ofJson? (v : Json) : Option Totals := do
  let members ← record? ["artifacts_inspected", "issues_found", "rules_loaded",
    "exemptions_configured"] v
  return ⟨← Json.lookup members "artifacts_inspected" >>= counter?,
    ← Json.lookup members "issues_found" >>= counter?,
    ← Json.lookup members "rules_loaded" >>= counter?,
    ← Json.lookup members "exemptions_configured" >>= counter?⟩

/-- Why a text is no report. -/
inductive ReportError
  | notJson
  | unknownSchema (schema : String)
  | wrongShape
deriving Repr, DecidableEq, Inhabited

def ReportError.message : ReportError → String
  | notJson => "parse report json"
  | unknownSchema schema => s!"unknown report schema: {schema}"
  | wrongShape => "parse cpilint report"

def ReportError.causes : ReportError → List String
  | notJson => ["the text is not JSON"]
  | unknownSchema _ => []
  | wrongShape => ["a member is missing or of the wrong kind"]

namespace Report

def toJson (r : Report) : Json :=
  .obj [textMember "schema" schema, ("tool", r.tool.toJson),
    textMember "started_at" r.startedAt.text, textMember "finished_at" r.finishedAt.text,
    textMember "verdict" r.verdict.word, ("issues", .arr (r.issues.map Issue.toJson)),
    ("data", r.totals.toJson)]

def serialize (r : Report) : String :=
  r.toJson.pretty

def moment? (v : Json) : Option Moment :=
  v.asString? >>= Moment.parse?

/-- The report that a value of the right schema writes. -/
def ofJson? (v : Json) : Option Report := do
  let members ← record? ["schema", "tool", "started_at", "finished_at", "verdict", "issues",
    "data"] v
  return ⟨← Json.lookup members "tool" >>= Tool.ofJson?,
    ← Json.lookup members "started_at" >>= moment?,
    ← Json.lookup members "finished_at" >>= moment?,
    ← Json.lookup members "verdict" >>= Verdict.ofJson?,
    ← Json.lookup members "issues" >>= items? Issue.ofJson?,
    ← Json.lookup members "data" >>= Totals.ofJson?⟩

/-- The schema that a value names, empty if it names none. -/
def schemaOf (v : Json) : String :=
  ((v.get? "schema").bind Json.asString?).getD ""

/-- The report that a text writes. -/
def parse (text : String) : Except ReportError Report :=
  match Json.parse? text with
  | none => .error .notJson
  | some v =>
    let v := v.sorted
    if schemaOf v ≠ schema then .error (.unknownSchema (schemaOf v))
    else
      match ofJson? v with
      | none => .error .wrongShape
      | some r => .ok r

end Report

end FlowLint
