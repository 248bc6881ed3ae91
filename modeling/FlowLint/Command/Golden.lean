import FlowLint.Command.Execute
import FlowLint.Report.Masking
import FlowLint.Text.Search

/-! # Golden reports

For the upkeep of the linter, reports over known inputs are recorded with all that changes from run to
run masked. They can be written anew, or compared with what the linter reports now.
-/

namespace FlowLint.Command

open FlowLint.Files (Tree)
open FlowLint.Catalog (RuleKind)

/-- A recorded report and what it is about, all relative to the folder of fixtures. -/
structure Golden where
  rules : String
  flows : String
  expected : String
deriving Repr, DecidableEq, Inhabited

/-- The recorded reports. -/
def goldens : List Golden :=
  [⟨"rules/baseline.xml", "flows/clean", "expected/clean.report.json"⟩]

/-- A tree, and what has been said on the way to it. -/
structure Progress where
  tree : Tree
  output : List String := []
  errors : List String := []
deriving Inhabited

def fixturesFolder (project : Path) : Path :=
  (project.join ⟨"tests"⟩).join ⟨"fixtures"⟩

/-- What a recorded report is about. -/
def Golden.lint (x : Golden) (fixtures : Path) : Lint :=
  ⟨fixtures.join ⟨x.rules⟩, [fixtures.join ⟨x.flows⟩]⟩

/-- The report as it should be recorded. -/
def Golden.report (x : Golden) (t : Tree) (span : Span) (fixtures : Path) :
    Except (List String) Json := do
  let r ← ((x.lint fixtures).run t Catalog.registry span).mapError fun e =>
    s!"lint {x.flows} with {x.rules}" :: e.chain
  return (Report.mask r.report.toJson).sorted

/-- Records reports, up to the first that cannot be. -/
def update (span : Span) (fixtures : Path) (p : Progress) :
    List Golden → Progress × Option (List String)
  | [] => (p, none)
  | x :: rest =>
    match x.report p.tree span fixtures with
    | .error chain => (p, some chain)
    | .ok report =>
      let file := fixtures.join ⟨x.expected⟩
      match p.tree.write file (Text.toBytes (report.pretty ++ "\n")) with
      | .error e => (p, some [s!"write {file.text}", e.message])
      | .ok tree =>
        update span fixtures { p with tree, output := p.output ++ [s!"Updated {x.expected}"] } rest

/-- A recorded report. -/
def Golden.recorded (x : Golden) (t : Tree) (fixtures : Path) : Except (List String) Json := do
  let file := fixtures.join ⟨x.expected⟩
  let text ← (t.text file).mapError fun e => [s!"read {file.text}", e.message]
  match Json.parse? text with
  | none => .error [s!"parse {file.text}", "the text is not JSON"]
  | some v => return (Report.mask v.sorted).sorted

/-- The recorded reports that are not what the linter reports now. -/
def stale (t : Tree) (span : Span) (fixtures : Path) :
    List Golden → Except (List String) (List String)
  | [] => .ok []
  | x :: rest => do
    let actual ← x.report t span fixtures
    let recorded ← x.recorded t fixtures
    let others ← stale t span fixtures rest
    return if recorded.same actual then others else x.expected :: others

/-- What is wrong with the explanation of a rule. -/
def explanationFaults (k : RuleKind) : List String :=
  let x := k.explanation
  (if x.title = "" then [s!"Rule '{k.element}' has empty title"] else []) ++
    (if x.description = "" then [s!"Rule '{k.element}' has empty description"] else []) ++
    if Text.contains x.sample k.element then []
    else [s!"Rule '{k.element}' example does not use the element"]

def bullets (faults : List String) : List String :=
  faults.map ("  - " ++ ·)

/-- What can be asked for. -/
def upkeepHelp : List String :=
  ["xtask commands:",
    "  help              Show this message",
    "  update-fixtures   Regenerate golden reports under tests/fixtures/expected",
    "  check-fixtures    Fail if golden reports differ from current output (for CI)",
    "  explain-coverage  Validate every built-in rule element has an explanation"]

/-- The outcome of an upkeep task that failed. -/
def upkeepFailure (p : Progress) (chain : List String) : Result :=
  ⟨1, textOf p.output, textOf p.errors ++ explained ("xtask failed" :: chain), p.tree⟩

def executeUpdate (t : Tree) (span : Span) (fixtures : Path) : Result :=
  match update span fixtures { tree := t } goldens with
  | (p, none) => ⟨0, textOf p.output, "", p.tree⟩
  | (p, some chain) => upkeepFailure p chain

def executeCompare (t : Tree) (span : Span) (fixtures : Path) : Result :=
  match stale t span fixtures goldens with
  | .error chain => upkeepFailure { tree := t } chain
  | .ok [] => ⟨0, s!"✓ {goldens.length} golden report(s) up to date\n", "", t⟩
  | .ok files =>
    let errors := bullets (files.map (· ++ " is stale")) ++
      ["", "Run `cargo xtask update-fixtures` to regenerate."]
    upkeepFailure { tree := t, errors } ["Golden fixture check failed"]

/-- Checks that every rule is explained. -/
def executeCoverage (t : Tree) : Result :=
  match RuleKind.all.flatMap explanationFaults with
  | [] => ⟨0, s!"✓ {RuleKind.all.length} rule elements have explanations\n", "", t⟩
  | faults =>
    upkeepFailure { tree := t, errors := bullets faults }
      [s!"Explain coverage validation failed with {faults.length} errors"]

def executeUpkeep (t : Tree) (span : Span) (project : Path) (arguments : List String) : Result :=
  let fixtures := fixturesFolder project
  match arguments.head?.getD "help" with
  | "help" | "--help" | "-h" => ⟨0, "", textOf upkeepHelp, t⟩
  | "update-fixtures" => executeUpdate t span fixtures
  | "check-fixtures" => executeCompare t span fixtures
  | "explain-coverage" => executeCoverage t
  | other =>
    ⟨1, "", explained [s!"unknown xtask command: {other}\n\nRun `cargo xtask help` for usage."], t⟩

end FlowLint.Command
