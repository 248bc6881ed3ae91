import FlowLint.Flow.Artifact
import FlowLint.Issue.Basic
import FlowLint.Rule.Error

/-! # Rules

A rule is started once, inspects artifacts, and ends once. What it does in each of these hooks is its
logic: an answer that depends on the hooks entered before, so that any deterministic behaviour is a
logic, whatever it remembers. The rule itself keeps the order of hooks: a call in the wrong stage
enters no hook. A hook that fails leaves the stage as it is, but it has been entered all the same.
-/

namespace FlowLint

open FlowLint.Flow (Artifact)

/-- A hook as it is entered. -/
inductive Hook
  | start
  | inspect (artifact : Artifact)
  | finish
deriving Inhabited

def Hook.name : Hook → HookName
  | start => .start
  | inspect _ => .inspect
  | finish => .finish

/-- What a hook answers: the issues it raises, and why it fails if it does. Issues raised before a
failure are raised nevertheless. -/
structure Response where
  issues : List Issue := []
  failure : Option EvaluationError := none
deriving Inhabited

/-- The answers of a rule to its hooks, given the hooks entered before. Starting raises no issues. -/
structure Logic where
  start : List Hook → Option EvaluationError := fun _ => none
  inspect : List Hook → Artifact → Response
  finish : List Hook → Response := fun _ => {}

/-- The artifacts that have been inspected. -/
def inspected (entered : List Hook) : List Artifact :=
  entered.filterMap fun
    | .inspect a => some a
    | _ => none

/-- The logic that looks at each artifact by itself. -/
def Logic.perArtifact (inspect : Artifact → Response) : Logic :=
  { inspect := fun _ a => inspect a }

/-- The logic that says nothing until it has seen all artifacts. -/
def Logic.perRun (finish : List Artifact → Response) : Logic :=
  { inspect := fun _ _ => {}, finish := fun entered => finish (inspected entered) }

/-- A rule with its place in the run and the hooks it has entered so far. -/
structure Rule where
  kind : String
  id : Option String := none
  stage : Stage := .configured
  logic : Logic
  entered : List Hook := []

/-- The outcome of a call. -/
structure Call where
  rule : Rule
  issues : List Issue
  failure : Option EvaluationError

namespace Rule

def display (r : Rule) : String :=
  match r.id with
  | none => s!"<{r.kind}>"
  | some id => s!"<{r.kind}> (id '{id}')"

/-- The rule with an id, which can be given once. -/
def assignId (r : Rule) (id : String) : Except ConfigurationError Rule :=
  match r.id with
  | some existing => .error (.idAlreadyAssigned existing id)
  | none => .ok { r with id := some id }

/-- The stage in which a hook may be called. -/
def stageFor : HookName → Stage
  | .start => .configured
  | .inspect => .active
  | .finish => .active

/-- The stage after a hook that did not fail. -/
def stageAfter : HookName → Stage
  | .start => .active
  | .inspect => .active
  | .finish => .finalized

/-- The answer of the rule's logic to a hook. -/
def respond (r : Rule) : Hook → Response
  | .start => { failure := r.logic.start r.entered }
  | .inspect a => r.logic.inspect r.entered a
  | .finish => r.logic.finish r.entered

/-- Calls a hook. Issues are stamped with the rule's id unless they carry another. -/
def call (r : Rule) (h : Hook) : Call :=
  if r.stage = stageFor h.name then
    let response := r.respond h
    let entered := r.entered ++ [h]
    { rule :=
        match response.failure with
        | some _ => { r with entered }
        | none => { r with entered, stage := stageAfter h.name }
      issues := response.issues.map (·.withRuleId r.id)
      failure := response.failure }
  else { rule := r, issues := [], failure := some (.lifecycle r.display h.name r.stage) }

end Rule

end FlowLint
