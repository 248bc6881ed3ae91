import FlowLint.Catalog.Explanation
import FlowLint.Catalog.Factory
import FlowLint.Command.Arguments
import FlowLint.Report.Annotation
import FlowLint.Report.Codec
import FlowLint.Report.Markdown

/-! # Executing commands

A command turns a file tree into another and says something on the way. What it has said and written
before a failure stays said and written.
-/

namespace FlowLint.Command

open FlowLint.Files (Tree)

/-- What a command has come to. -/
structure Result where
  code : Nat
  output : String
  errors : String
  tree : Tree
deriving Inhabited

def textOf (lines : List String) : String :=
  String.join (lines.map (· ++ "\n"))

/-- The text of an error on one line: what was being done, down to what went wrong. -/
def joined (chain : List String) : String :=
  ": ".intercalate chain

/-- A text whose lines after the first are indented. -/
def hanging (indent text : String) : String :=
  ("\n" ++ indent).intercalate (text.splitOn "\n")

/-- The place of a cause among several, aligned to the right. -/
def causeNumber (n : Nat) : String :=
  let digits := toString n
  String.ofList (List.replicate (5 - digits.length) ' ') ++ digits ++ ": "

/-- Causes with their places, the first at `n`. -/
def numberedCauses (n : Nat) : List String → List String
  | [] => []
  | cause :: rest =>
    (causeNumber n ++ hanging "       " cause) :: numberedCauses (n + 1) rest

def causeLines : List String → List String
  | [] => []
  | [cause] => ["", "Caused by:", "    " ++ hanging "    " cause]
  | causes => "" :: "Caused by:" :: numberedCauses 0 causes

/-- The text of an error with its causes below it. -/
def explained : List String → String
  | [] => ""
  | top :: causes => textOf (("Error: " ++ top) :: causeLines causes)

/-- The tree with a file of the given text, its directory made if it is missing. -/
def writeText (t : Tree) (file : Path) (text : String) : Except (List String) Tree := do
  let directory := file.parent?.getD ⟨""⟩
  let t ←
    if directory.text = "" then pure t
    else (t.makeDirectories directory).mapError fun e =>
      [s!"create directory: {directory.text}", e.message]
  (t.write file (Text.toBytes text)).mapError fun e => [s!"write: {file.text}", e.message]

def readReport (t : Tree) (file : Path) : Except (List String) Report :=
  match t.text file with
  | .error e => .error [s!"read report: {file.text}", e.message]
  | .ok text => (Report.parse text).mapError fun e => e.message :: e.causes

/-- What is said of a run that did not fail. -/
def summary (r : LintResult) : List String :=
  let totals := r.report.totals
  r.report.issues.map (·.message) ++
    [s!"Inspected {totals.artifactsInspected} artifact(s), found {totals.issuesFound} issue(s) " ++
      s!"({r.suppressed} exempted)."]

/-- The result of linting, given what it has come to so far. -/
def lintFailure (output : String) (t : Tree) (chain : List String) : Result :=
  ⟨1, output, s!"cpilint error: {joined chain}\n", t⟩

def executeCheck (t : Tree) (span : Span) (l : Lint) (reportOut : Path)
    (markdownOut : Option Path) : Result :=
  match l.run t Catalog.registry span with
  | .error e => lintFailure "" t e.chain
  | .ok r =>
    let output := textOf (summary r)
    match writeText t reportOut r.report.serialize with
    | .error chain => lintFailure output t ("write report json" :: chain)
    | .ok t =>
      match markdownOut with
      | none => ⟨r.report.verdict.exitCode, output, "", t⟩
      | some file =>
        match writeText t file r.report.view.markdown with
        | .error chain => lintFailure output t ("write markdown" :: chain)
        | .ok t => ⟨r.report.verdict.exitCode, output, "", t⟩

def executeMarkdown (t : Tree) (report : Path) (out : Option Path) : Result :=
  match readReport t report with
  | .error chain => ⟨1, "", explained chain, t⟩
  | .ok r =>
    match out with
    | none => ⟨0, r.view.markdown, "", t⟩
    | some file =>
      match writeText t file r.view.markdown with
      | .error chain => ⟨1, "", explained ("write markdown output" :: chain), t⟩
      | .ok t => ⟨0, "", "", t⟩

def executeAnnotations (t : Tree) (report : Path) (limit : Nat) : Result :=
  match readReport t report with
  | .error chain => ⟨1, "", explained chain, t⟩
  | .ok r => ⟨0, textOf (r.view.annotationsUpTo limit), "", t⟩

def executeExplain (t : Tree) (name : String) : Result :=
  match Catalog.RuleKind.ofElement? name with
  | some k => ⟨0, k.explain, "", t⟩
  | none => ⟨1, "", Catalog.explainUnknown name, t⟩

/-- Executes a command. -/
def execute (t : Tree) (span : Span) : Command → Result
  | check l reportOut markdownOut => executeCheck t span l reportOut markdownOut
  | markdown report out => executeMarkdown t report out
  | annotations report limit => executeAnnotations t report limit
  | explain name => executeExplain t name

/-- What is said of arguments that give no command. -/
def usage : String :=
  "Usage: cpilint [-v]... <check|md|annotations|explain> [OPTIONS]\n"

def executeArguments (t : Tree) (span : Span) (arguments : List String) : Result :=
  match ofArguments? arguments with
  | some c => c.execute t span
  | none => ⟨2, "", usage, t⟩

end FlowLint.Command
