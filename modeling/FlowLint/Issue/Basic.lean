import FlowLint.Flow.Tag
import FlowLint.Flow.Vocabulary
import FlowLint.Json.Value
import FlowLint.Order.Insertion

/-! # Issues

An issue says that something in one or more artifacts breaks a rule. Its tags are never none, and they
are sorted and without repeats, so that two issues about the same artifacts are equal however they
were come by. It carries the id of a rule at most once: an id that is there is never replaced.
-/

namespace FlowLint

open FlowLint.Flow (Tag)

/-- What an allow or disallow list ranges over. -/
inductive Facet
  | receiverAdapter
  | senderAdapter
  | mappingType
  | scriptingLanguage
deriving Repr, DecidableEq, Inhabited

def Facet.all : List Facet :=
  [receiverAdapter, senderAdapter, mappingType, scriptingLanguage]

/-- The facet in running text. -/
def Facet.describe : Facet → String
  | receiverAdapter => "receiver adapter"
  | senderAdapter => "sender adapter"
  | mappingType => "mapping type"
  | scriptingLanguage => "scripting language"

/-- The facet in reports. -/
def Facet.code : Facet → String
  | receiverAdapter => "receiver_adapter"
  | senderAdapter => "sender_adapter"
  | mappingType => "mapping_type"
  | scriptingLanguage => "scripting_language"

/-- A resource that an issue names. -/
structure ResourceRef where
  artifactId : String
  name : String
deriving Repr, DecidableEq, Inhabited

/-- What an issue is about, with the particulars that reports show. -/
inductive Detail
  | disallowedValue (facet : Facet) (value : String) (element : Option String)
  | missingDescription
  | namingConvention (subject name : String)
  | unencryptedEndpoint (channel address : String)
  | cleartextBasicAuth (channel address : String)
  | csrfProtectionMissing (channel : String)
  | duplicateResources (category digest : String) (resources : List ResourceRef)
  | unmatchedProcessDirect (channel address : String)
  /-- Raised by a rule that is not built in, which chooses the code. -/
  | extension (code : String) (data : Json)
deriving Repr, Inhabited

/-- The word that says what kind of issue it is. -/
def Detail.code : Detail → String
  | disallowedValue .. => "disallowed_value"
  | missingDescription => "missing_description"
  | namingConvention .. => "naming_convention"
  | unencryptedEndpoint .. => "unencrypted_endpoint"
  | cleartextBasicAuth .. => "cleartext_basic_auth"
  | csrfProtectionMissing .. => "csrf_protection_missing"
  | duplicateResources .. => "duplicate_resources"
  | unmatchedProcessDirect .. => "unmatched_process_direct"
  | extension code _ => code

structure Issue where
  ruleId : Option String
  detail : Detail
  tags : List Tag
  message : String
  /-- No issue is about nothing. -/
  tags_ne_nil : tags ≠ []
deriving Repr

/-- The tags of a collection, sorted and each once. -/
def sortTags (tags : List Tag) : List Tag :=
  Order.ofList tags

theorem sortTags_ne_nil {tags : List Tag} {t : Tag} (h : t ∈ tags) : sortTags tags ≠ [] :=
  List.ne_nil_of_mem ((Order.mem_ofList t tags).2 h)

namespace Issue

def single (detail : Detail) (tag : Tag) (message : String) : Issue :=
  ⟨none, detail, [tag], message, List.cons_ne_nil tag []⟩

/-- An issue that spans artifacts; none if there are none. -/
def spanning? (detail : Detail) (tags : List Tag) (message : String) : Option Issue :=
  match tags with
  | [] => none
  | t :: rest =>
    some ⟨none, detail, sortTags (t :: rest), message, sortTags_ne_nil List.mem_cons_self⟩

/-- The issue with the id of a rule, unless it carries one. -/
def withRuleId (i : Issue) (id : Option String) : Issue :=
  { i with ruleId := i.ruleId.or id }

/-- The ids of the artifacts that the issue is about. -/
def tagIds (i : Issue) : List String :=
  i.tags.map (·.id)

end Issue

def noArtifactsMessage : String :=
  "an issue must implicate at least one artifact"

end FlowLint
