import FlowLint.Catalog.BuiltIn

/-! # The shape of a rules file

A rules file has up to three sections, in a fixed order: imports of other rules files, rules, and
exemptions. The shape is checked before anything in the file is acted on. Rules in a namespace are
left to the extension that claims them. The first violation in document order is reported.
-/

namespace FlowLint.RulesFile

open FlowLint.Markup (Element)
open FlowLint.Catalog (RuleKind)

/-- A section of a rules file. -/
inductive Part
  | imports
  | rules
  | exemptions
deriving Repr, DecidableEq, Inhabited

namespace Part

/-- The sections in order. -/
def all : List Part :=
  [imports, rules, exemptions]

def element : Part → String
  | imports => "imports"
  | rules => "rules"
  | exemptions => "exemptions"

def rank : Part → Nat
  | imports => 0
  | rules => 1
  | exemptions => 2

def ofElement (e : Element) : Except Violation Part :=
  if e.uri.isSome then .error (.namespacedSection e.name)
  else
    match all.find? (·.element = e.name) with
    | some part => .ok part
    | none => .error (.unknownSection e.name)

end Part

def checkNoAttributes (e : Element) : Except Violation Unit :=
  match e.attributes with
  | a :: _ => .error (.unexpectedAttribute a.name e.name)
  | [] => .ok ()

/-- Refuses attributes and child elements. -/
def checkTextOnly (e : Element) : Except Violation Unit := do
  checkNoAttributes e
  match e.children with
  | child :: _ => .error (.notTextOnly e.name child.name)
  | [] => .ok ()

/-- Refuses all but text that is not blank. -/
def checkFilled (e : Element) : Except Violation Unit := do
  checkTextOnly e
  if e.text = "" then .error (.blank e.name) else .ok ()

/-- Refuses elements with another name or in a namespace. -/
def checkName (e : Element) (parent expected : String) : Except Violation Unit :=
  if e.uri.isNone ∧ e.name = expected then .ok ()
  else .error (.unexpectedElement e.name parent expected)

def checkEach (check : Element → Except Violation Unit) : List Element → Except Violation Unit
  | [] => .ok ()
  | e :: rest => do
    check e
    checkEach check rest

/-- An import: the text is a path. -/
def checkImport (e : Element) : Except Violation Unit := do
  checkName e "imports" "import"
  checkFilled e

/-- The section of imports, which is not empty. -/
def checkImports (e : Element) : Except Violation Unit := do
  checkNoAttributes e
  if e.children.isEmpty then .error .noImport else checkEach checkImport e.children

/-- The id of a rule is not empty and has no blanks. -/
def isRuleId (id : String) : Bool :=
  !id.isEmpty && id.toList.all (!Text.isBlank ·)

/-- A rule: if it has no namespace, a built-in one with no attribute but its id. -/
def checkRule (e : Element) : Except Violation Unit :=
  if e.uri.isSome then .ok ()
  else if (RuleKind.ofElement? e.name).isNone then .error (.unknownRule e.name)
  else
    match e.attributes.find? (·.name ≠ "id") with
    | some a => .error (.unexpectedAttribute a.name e.name)
    | none =>
      match (e.attr? "id").filter (!isRuleId ·) with
      | some id => .error (.badRuleId id e.name)
      | none => .ok ()

def checkRules (e : Element) : Except Violation Unit := do
  checkNoAttributes e
  checkEach checkRule e.children

/-- What may follow the artifacts of an exemption. -/
def checkReason : List Element → Except Violation Unit
  | [] => .ok ()
  | reason :: rest => do
    checkName reason "exemption" "reason"
    checkTextOnly reason
    match rest with
    | extra :: _ => .error (.extraElement extra.name)
    | [] => .ok ()

def checkArtifactId (e : Element) : Except Violation Unit := do
  checkName e "exemption" "artifact-id"
  checkFilled e

/-- What follows the rule of an exemption: artifacts, then perhaps a reason. -/
def checkExempted (es : List Element) : Except Violation Unit := do
  let artifacts := es.takeWhile (·.name = "artifact-id")
  checkEach checkArtifactId artifacts
  if artifacts.isEmpty then .error (.missingElement "artifact-id")
  else checkReason (es.dropWhile (·.name = "artifact-id"))

/-- An exemption: the id of a rule, the ids of artifacts, and perhaps a reason. -/
def checkExemption (e : Element) : Except Violation Unit := do
  checkName e "exemptions" "exemption"
  checkNoAttributes e
  match e.children with
  | [] => .error (.missingElement "rule-id")
  | rule :: rest =>
    checkName rule "exemption" "rule-id"
    checkFilled rule
    checkExempted rest

def checkExemptions (e : Element) : Except Violation Unit := do
  checkNoAttributes e
  checkEach checkExemption e.children

def checkPart (e : Element) : Part → Except Violation Unit
  | .imports => checkImports e
  | .rules => checkRules e
  | .exemptions => checkExemptions e

/-- Sections, each after all those that come before it in the order; `last` is the place of the one
before. -/
def checkParts (last : Option Nat) : List Element → Except Violation Unit
  | [] => .ok ()
  | e :: rest => do
    let part ← Part.ofElement e
    if last.any (part.rank ≤ ·) then .error (.misplacedSection e.name)
    else
      checkPart e part
      checkParts (some part.rank) rest

/-- Checks the shape of a rules file. -/
def check (root : Element) : Except Violation Unit :=
  if root.uri.isSome ∨ root.name ≠ "cpilint" then .error (.wrongRoot root.name)
  else do
    checkNoAttributes root
    checkParts none root.children

end FlowLint.RulesFile
