import FlowLint.Catalog.Configuration
import FlowLint.Naming.Scheme
import FlowLint.Query.Channel
import FlowLint.Rule.Basic

/-! # Naming conventions

A convention says which names must pass a naming scheme. Names are taken from the artifact's tag, its
channels and the file names of its resources.
-/

namespace FlowLint.Catalog

open FlowLint.Flow (Artifact Category)
open FlowLint.Markup (Element)
open FlowLint.Query (ChannelFilter)

/-- What is named. -/
inductive NamingSubject
  | flowName
  | flowId
  | packageName
  | packageId
  | senderChannelName
  | receiverChannelName
  | scriptName
  | mappingName
deriving Repr, DecidableEq, Inhabited

namespace NamingSubject

/-- Every subject, in the order in which a convention looks at them. -/
def all : List NamingSubject :=
  [flowName, flowId, packageName, packageId, senderChannelName, receiverChannelName, scriptName,
    mappingName]

/-- The word in rules files and reports. -/
def token : NamingSubject → String
  | flowName => "iflow.name"
  | flowId => "iflow.id"
  | packageName => "package.name"
  | packageId => "package.id"
  | senderChannelName => "sender-channel.name"
  | receiverChannelName => "receiver-channel.name"
  | scriptName => "script.name"
  | mappingName => "mapping.name"

def ofToken? (word : String) : Option NamingSubject :=
  all.find? (·.token = word)

/-- The subject in running text. -/
def describe : NamingSubject → String
  | flowName => "integration flow name"
  | flowId => "integration flow ID"
  | packageName => "package name"
  | packageId => "package ID"
  | senderChannelName => "sender channel name"
  | receiverChannelName => "receiver channel name"
  | scriptName => "script name"
  | mappingName => "mapping name"

/-- The file names of the resources whose category is of some kind. -/
def resourceNames (a : Artifact) (kind : Category → Bool) : List String :=
  (a.allResources.filter fun r => kind r.category).map (·.fileName)

def channelNames (a : Artifact) (filter : ChannelFilter) : List String :=
  (Query.channels a.document filter).map (·.name)

def names (a : Artifact) : NamingSubject → List String
  | flowName => [a.tag.name]
  | flowId => [a.tag.id]
  | packageName => (a.tag.package.map (·.name)).toList
  | packageId => (a.tag.package.map (·.id)).toList
  | senderChannelName => channelNames a ChannelFilter.senders
  | receiverChannelName => channelNames a ChannelFilter.receivers
  | scriptName => resourceNames a Category.isScript
  | mappingName => resourceNames a Category.isMapping

end NamingSubject

/-- A convention for the names of some subjects. -/
structure NamingConvention where
  scheme : Naming.Scheme
  message : String
  subjects : List NamingSubject
deriving Repr, Inhabited

namespace NamingConvention

def issue (c : NamingConvention) (a : Artifact) (s : NamingSubject) (name : String) : Issue :=
  .single (.namingConvention s.token name) a.tag s!"{c.message} ({s.describe} '{name}')"

/-- Objects to each name that does not pass, subject by subject. -/
def inspect (c : NamingConvention) (a : Artifact) : Response :=
  { issues := (NamingSubject.all.filter c.subjects.contains).flatMap fun s =>
      ((s.names a).filter (!c.scheme.test ·)).map (c.issue a s) }

def readScheme (e : Element) : Except ConfigurationError Naming.Scheme :=
  match e.children with
  | [one] => (Naming.Scheme.ofElement one).mapError .naming
  | others => .error (.naming (.notOneScheme others.length))

def readMessage (e : Element) : Except Misconfiguration String := do
  let message := (← singleChild e "message").text
  if message = "" then .error (.emptyChild "message") else return message

def readSubjects (e : Element) : Except Misconfiguration (List NamingSubject) := do
  let words ← childTexts e "apply-to"
  nonEmpty "apply-to" (← readWords NamingSubject.ofToken? .unknownSubject words)

def read (e : Element) : Except ConfigurationError NamingConvention := do
  ofReading e (onlyChildren e ["scheme", "message", "apply-to"])
  let scheme ← readScheme (← ofReading e (singleChild e "scheme"))
  let message ← ofReading e (readMessage e)
  return ⟨scheme, message, ← ofReading e (readSubjects e)⟩

end NamingConvention

end FlowLint.Catalog
