import FlowLint.Files.Failure
import FlowLint.Markup.Error
import FlowLint.Naming.Scheme
import FlowLint.Path.Basic
import FlowLint.Query.Description

/-! # Errors of rules and rules files

Every error here ends the work it arises in: an error of configuration before a run starts, an error
of evaluation in the middle of a run. An error may have causes, each shown on its own.
-/

namespace FlowLint

/-- What a rule does in a run. -/
inductive HookName
  | start
  | inspect
  | finish
deriving Repr, DecidableEq, Inhabited

def HookName.text : HookName → String
  | start => "start"
  | inspect => "inspect"
  | finish => "end"

/-- Where a rule stands in a run. -/
inductive Stage
  | configured
  | active
  | finalized
deriving Repr, DecidableEq, Inhabited

def Stage.text : Stage → String
  | configured => "Configured"
  | active => "Active"
  | finalized => "Finalized"

/-- Why a rule cannot go on. -/
inductive EvaluationError
  | notUnique (what : Query.NotUnique)
  | lifecycle (rule : String) (call : HookName) (stage : Stage)
  | noArtifacts (rule : String)
deriving Repr, DecidableEq, Inhabited

def EvaluationError.message : EvaluationError → String
  | notUnique what => what.message
  | lifecycle rule call stage => s!"rule {rule}: {call.text} called in state {stage.text}"
  | noArtifacts rule => s!"rule {rule} raised an issue that implicates no artifact"

/-- What a rules file may not contain. -/
inductive Violation
  | wrongRoot (found : String)
  | unexpectedAttribute (attr element : String)
  | misplacedSection (name : String)
  | namespacedSection (name : String)
  | unknownSection (name : String)
  | noImport
  | unexpectedElement (name parent expected : String)
  | extraElement (name : String)
  | missingElement (name : String)
  | notTextOnly (element child : String)
  | blank (element : String)
  | unknownRule (name : String)
  | badRuleId (id rule : String)
deriving Repr, DecidableEq, Inhabited

def Violation.message : Violation → String
  | wrongRoot found => s!"root element must be <cpilint>, found <{found}>"
  | unexpectedAttribute attr element => s!"unexpected attribute '{attr}' on <{element}>"
  | misplacedSection name =>
    s!"<{name}> is out of order or repeated; expected at most one each of imports, rules, " ++
      "exemptions, in that order"
  | namespacedSection name => s!"unexpected namespaced element <{name}> under <cpilint>"
  | unknownSection name => s!"unexpected element <{name}> under <cpilint>"
  | noImport => "<imports> must contain at least one <import>"
  | unexpectedElement name parent expected =>
    s!"unexpected element <{name}> in <{parent}>; expected <{expected}>"
  | extraElement name => s!"unexpected element <{name}> in <exemption>"
  | missingElement name => s!"<exemption> is missing <{name}>"
  | notTextOnly element child => s!"<{element}> must contain text only, found <{child}>"
  | blank element => s!"<{element}> must not be empty"
  | unknownRule name => s!"unknown rule element <{name}>"
  | badRuleId id rule => s!"rule id '{id}' on <{rule}> must be non-empty and contain no whitespace"

/-- What a built-in rule cannot be configured with. -/
inductive Misconfiguration
  | unexpectedChild (name : String)
  | missingChild (name : String)
  | repeatedChild (name : String)
  | emptyChild (name : String)
  | noneOf (name : String)
  | unknownValue (token : String) (expected : List String)
  | unknownSubject (token : String)
  | unknownResourceType (token : String)
deriving Repr, DecidableEq, Inhabited

def Misconfiguration.message : Misconfiguration → String
  | unexpectedChild name => s!"unexpected child element <{name}>"
  | missingChild name => s!"missing <{name}>"
  | repeatedChild name => s!"more than one <{name}>"
  | emptyChild name => s!"<{name}> must not be empty"
  | noneOf name => s!"at least one <{name}> is required"
  | unknownValue token expected =>
    let listed := ", ".intercalate expected
    s!"unknown value '{token}'; expected one of: {listed}"
  | unknownSubject token => s!"unknown <apply-to> subject '{token}'"
  | unknownResourceType token => s!"unknown resource type '{token}'"

/-- What a rule that is not built in objects to, with what may lie behind it. -/
structure ExtensionError where
  message : String
  cause : Option String
deriving Repr, DecidableEq, Inhabited

/-- The name of an element that should be a rule, with its namespace. -/
structure RuleName where
  name : String
  uri : Option String
deriving Repr, DecidableEq, Inhabited

def RuleName.display (n : RuleName) : String :=
  match n.uri with
  | none => s!"<{n.name}>"
  | some uri => "\x7b" ++ uri ++ "\x7d" ++ n.name

/-- Why rules cannot be configured. -/
inductive ConfigurationError
  | schema (path : Path) (violation : Violation)
  | unreadable (path : Path) (failure : FileFailure)
  | markup (path : Path) (error : Markup.Error)
  | circularImport (path : Path)
  | noFactory (element : RuleName)
  | ambiguousFactory (element : RuleName) (count : Nat)
  | naming (error : Naming.Error)
  | invalidRule (element : String) (reason : Misconfiguration)
  | duplicateIds (ids : List String)
  | idAlreadyAssigned (existing requested : String)
  | noRules
  | extension (name uri : String) (error : ExtensionError)
deriving Repr, DecidableEq, Inhabited

namespace ConfigurationError

def message : ConfigurationError → String
  | schema path violation => s!"rules file {path.text} is invalid: {violation.message}"
  | unreadable path _ => s!"cannot read rules file {path.text}"
  | markup path _ => s!"rules file {path.text} is not well-formed XML"
  | circularImport path => s!"circular import of rules file {path.text}"
  | noFactory element => s!"no rule factory accepts element {element.display}"
  | ambiguousFactory element count =>
    s!"element {element.display} is accepted by {count} rule factories"
  | naming error => s!"invalid naming scheme: {error.message}"
  | invalidRule element reason => s!"invalid configuration for <{element}>: {reason.message}"
  | duplicateIds ids => "duplicate rule ids: " ++ ", ".intercalate ids
  | idAlreadyAssigned existing requested =>
    s!"rule already has id '{existing}'; cannot assign '{requested}'"
  | noRules => "no rules configured"
  | extension name uri _ =>
    s!"extension rule <{name}> in namespace '{uri}' rejected its configuration"

/-- The causes of the error, the nearest first. -/
def causes : ConfigurationError → List String
  | unreadable _ failure => [failure.message]
  | markup _ error => [error.message]
  | extension _ _ error => error.message :: error.cause.toList
  | _ => []

end ConfigurationError

end FlowLint
