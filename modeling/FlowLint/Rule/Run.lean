import FlowLint.Rule.Basic
import FlowLint.Rule.Sink

/-! # Runs

A run starts every rule, shows each artifact to every rule as it is supplied, and ends every rule,
always in the order of the rules. The first failure ends the run; what it has done up to there stays
visible in its outcome, which also lists the hooks it has called.
-/

namespace FlowLint

open FlowLint.Flow (Artifact)

/-- Why a run ends before its end. -/
inductive RunError
  | evaluation (error : EvaluationError)
  /-- An artifact could not be supplied. -/
  | source (error : Markup.Error)
deriving Repr, DecidableEq, Inhabited

def RunError.message : RunError → String
  | evaluation e => e.message
  | source _ => "artifact source failed"

def RunError.causes : RunError → List String
  | evaluation _ => []
  | source e => [e.message]

/-- A hook called on the rule at a place in the list of rules. -/
structure Step where
  place : Nat
  hook : Hook

/-- One hook called on several rules in turn. -/
structure Pass (σ : Type) where
  rules : List Rule
  sink : σ
  trace : List Step
  failure : Option EvaluationError

variable {σ : Type} [Sink σ]

/-- Calls a hook on rules in order, the first of them at `place`, up to the first failure. -/
def callEach (h : Hook) (place : Nat) (sink : σ) : List Rule → Pass σ
  | [] => ⟨[], sink, [], none⟩
  | r :: rest =>
    let c := r.call h
    let sink := Sink.acceptAll sink c.issues
    match c.failure with
    | some e => ⟨c.rule :: rest, sink, [⟨place, h⟩], some e⟩
    | none =>
      let p := callEach h (place + 1) sink rest
      ⟨c.rule :: p.rules, p.sink, ⟨place, h⟩ :: p.trace, p.failure⟩

/-- What a run has come to. -/
structure Outcome (σ : Type) where
  rules : List Rule
  sink : σ
  trace : List Step
  artifactsInspected : Nat
  failure : Option RunError

/-- What is said of a run that came to its end. -/
structure Summary where
  artifactsInspected : Nat
  /-- The issues that will be reported; those that a sink holds back do not count. -/
  issuesFound : Nat
deriving Repr, DecidableEq, Inhabited

/-- The summary of the run, or why it ended before its end. -/
def Outcome.summary (o : Outcome σ) : Except RunError Summary :=
  match o.failure with
  | some e => .error e
  | none => .ok ⟨o.artifactsInspected, Sink.count o.sink⟩

/-- The outcome with what came before it. -/
def Outcome.after (o : Outcome σ) (trace : List Step) : Outcome σ :=
  { o with trace := trace ++ o.trace }

/-- The outcome of a pass that failed. -/
def Pass.stop (p : Pass σ) (artifactsInspected : Nat) (e : EvaluationError) : Outcome σ :=
  ⟨p.rules, p.sink, p.trace, artifactsInspected, some (.evaluation e)⟩

/-- Shows the rest of the artifacts to the rules, then ends the rules. -/
def runRest (rules : List Rule) (sink : σ) (artifactsInspected : Nat) :
    List (Except Markup.Error Artifact) → Outcome σ
  | [] =>
    let p := callEach .finish 0 sink rules
    ⟨p.rules, p.sink, p.trace, artifactsInspected, p.failure.map .evaluation⟩
  | .error e :: _ => ⟨rules, sink, [], artifactsInspected, some (.source e)⟩
  | .ok a :: rest =>
    let p := callEach (.inspect a) 0 sink rules
    match p.failure with
    | some e => p.stop artifactsInspected e
    | none => (runRest p.rules p.sink (artifactsInspected + 1) rest).after p.trace

/-- Runs rules over artifacts. -/
def run (rules : List Rule) (artifacts : List (Except Markup.Error Artifact)) (sink : σ) :
    Outcome σ :=
  let p := callEach .start 0 sink rules
  match p.failure with
  | some e => p.stop 0 e
  | none => (runRest p.rules p.sink 0 artifacts).after p.trace

end FlowLint
