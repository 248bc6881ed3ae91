import FlowLint.Catalog.Configuration
import FlowLint.Query.ProcessStep
import FlowLint.Rule.Basic

/-! # Allow and disallow lists

Each facet has a domain of values, and the uses of these values in an artifact can be listed with the
channel, step or script that carries them. A disallow list objects to the values on it; an allow list
objects to the rest of the domain. A value outside the domain is nobody's concern.
-/

namespace FlowLint

open FlowLint.Flow (Adapter Artifact Category MappingType ScriptingLanguage)
open FlowLint.Markup (Element)
open FlowLint.Query (ChannelFilter StepFilter)

/-- A value that a list may hold. -/
inductive Listed
  | adapter (value : Adapter)
  | mapping (value : MappingType)
  | language (value : ScriptingLanguage)
deriving Repr, DecidableEq, Inhabited

/-- The word for the value in rules files. -/
def Listed.token : Listed → String
  | adapter a => a.token
  | mapping m => m.token
  | language l => l.token

namespace Facet

/-- Every value of the facet's kind, in the order of reports. -/
def values : Facet → List Listed
  | receiverAdapter | senderAdapter => Adapter.all.map .adapter
  | mappingType => MappingType.all.map .mapping
  | scriptingLanguage => ScriptingLanguage.all.map .language

def domain : Facet → List Listed
  | receiverAdapter => Adapter.receivers.map .adapter
  | senderAdapter => Adapter.senders.map .adapter
  | mappingType => MappingType.all.map .mapping
  | scriptingLanguage => ScriptingLanguage.all.map .language

/-- The value of the domain that a word means. -/
def read? (f : Facet) (word : String) : Option Listed :=
  f.domain.find? (·.token = word)

/-- What the values of the facet are in the plural, as names of rules have it. -/
def plural : Facet → String
  | receiverAdapter => "receiver-adapters"
  | senderAdapter => "sender-adapters"
  | mappingType => "mapping-types"
  | scriptingLanguage => "scripting-languages"

end Facet

namespace Catalog

/-- A use of a value in an artifact. -/
structure Occurrence where
  value : Listed
  /-- What carries the value. -/
  carrier : String
  name : String
deriving Repr, DecidableEq, Inhabited

/-- The uses of adapters in the channels that a filter asks for. -/
def adapterOccurrences (a : Artifact) (filter : ChannelFilter) (domain : List Adapter) :
    List Occurrence :=
  (Query.channels a.document filter).filterMap fun c =>
    (c.adapter?.filter domain.contains).map fun adapter => ⟨.adapter adapter, "channel", c.name⟩

def mappingOccurrences (a : Artifact) : List Occurrence :=
  (Query.processSteps a.document StepFilter.mappings).filterMap fun s =>
    s.mappingType?.map fun m => ⟨.mapping m, "mapping step", s.name⟩

/-- The scripts of a category, each a use of a language. -/
def scriptOccurrences (a : Artifact) (c : Category) (language : ScriptingLanguage) :
    List Occurrence :=
  (a.resourcesOf c).map fun r => ⟨.language language, "script", r.name⟩

/-- The uses of a facet's values in an artifact, in document order or in the order of resources. -/
def occurrences (a : Artifact) : Facet → List Occurrence
  | .receiverAdapter => adapterOccurrences a ChannelFilter.receivers Adapter.receivers
  | .senderAdapter => adapterOccurrences a ChannelFilter.senders Adapter.senders
  | .mappingType => mappingOccurrences a
  | .scriptingLanguage =>
    scriptOccurrences a .groovyScript .groovy ++ scriptOccurrences a .javascript .javascript

/-- A list over a facet. -/
structure ListRule where
  facet : Facet
  allow : Bool
  values : List Listed
deriving Repr, DecidableEq, Inhabited

namespace ListRule

/-- The values that the list objects to, in order. -/
def objectionable (r : ListRule) : List Listed :=
  if r.allow then r.facet.domain.filter (!r.values.contains ·)
  else r.facet.values.filter r.values.contains

def message (r : ListRule) (o : Occurrence) : String :=
  let what := r.facet.describe
  if r.allow then
    s!"{o.value.token} is not on the list of allowed {what}s ({o.carrier} '{o.name}')"
  else s!"{o.value.token} {what} is not allowed ({o.carrier} '{o.name}')"

def issue (r : ListRule) (a : Artifact) (o : Occurrence) : Issue :=
  .single (.disallowedValue r.facet o.value.token (some o.name)) a.tag (r.message o)

/-- Objects to each use of an objectionable value. -/
def inspect (r : ListRule) (a : Artifact) : Response :=
  let found := (occurrences a r.facet).filter fun o => r.objectionable.contains o.value
  { issues := found.map (r.issue a) }

/-- The element of an entry of the list. -/
def entry (allow : Bool) : String :=
  if allow then "allow" else "disallow"

def read (facet : Facet) (allow : Bool) (e : Element) : Except Misconfiguration ListRule := do
  onlyChildren e [entry allow]
  let words ← childTexts e (entry allow)
  let values ← readWords facet.read? (.unknownValue · (facet.domain.map Listed.token)) words
  return ⟨facet, allow, ← nonEmpty (entry allow) values⟩

end ListRule

end Catalog

end FlowLint
