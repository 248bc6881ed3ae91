import FlowLint.Issue.Basic
import FlowLint.Json.Reader
import FlowLint.Json.Record

/-! # Issues as JSON

The written form of an issue and its reader. Members are written in a fixed order and left out when
they say nothing; they are read in any order. An issue that is read has its tags sorted and each once,
like any other.
-/

namespace FlowLint

open FlowLint.Flow (Package Tag)
open FlowLint.Json (record? text? optional? items? textMember optionalMember)

def Flow.Package.toJson (p : Package) : Json :=
  .obj [textMember "id" p.id, textMember "name" p.name]

def Flow.Package.ofJson? (v : Json) : Option Package := do
  let members ← record? ["id", "name"] v
  return ⟨← text? members "id", ← text? members "name"⟩

def Flow.Tag.toJson (t : Tag) : Json :=
  .obj ([textMember "id" t.id, textMember "name" t.name] ++
    optionalMember "package" (t.package.map Package.toJson))

def Flow.Tag.ofJson? (v : Json) : Option Tag := do
  let members ← record? ["id", "name", "package"] v
  return ⟨← text? members "id", ← text? members "name",
    ← optional? Package.ofJson? members "package"⟩

def ResourceRef.toJson (r : ResourceRef) : Json :=
  .obj [textMember "artifact_id" r.artifactId, textMember "name" r.name]

def ResourceRef.ofJson? (v : Json) : Option ResourceRef := do
  let members ← record? ["artifact_id", "name"] v
  return ⟨← text? members "artifact_id", ← text? members "name"⟩

def Facet.ofCode? (code : String) : Option Facet :=
  all.find? (·.code = code)

/-- The facet that a value writes: its code, or an object with the code as its only key and nothing as
the value. -/
def Facet.ofJson? : Json → Option Facet
  | .str code => ofCode? code
  | .obj [(code, .null)] => ofCode? code
  | .obj [(code, .obj [])] => ofCode? code
  | _ => none

namespace Detail

/-- The kind of a detail: its code, but one kind for all extensions. -/
def kind : Detail → String
  | extension .. => "extension"
  | d => d.code

/-- The particulars as members, without the kind. -/
def members : Detail → List (String × Json)
  | disallowedValue facet value element =>
    [textMember "facet" facet.code, textMember "value" value] ++
      optionalMember "element" (element.map .str)
  | missingDescription => []
  | namingConvention subject name => [textMember "subject" subject, textMember "name" name]
  | unencryptedEndpoint channel address =>
    [textMember "channel" channel, textMember "address" address]
  | cleartextBasicAuth channel address =>
    [textMember "channel" channel, textMember "address" address]
  | csrfProtectionMissing channel => [textMember "channel" channel]
  | duplicateResources category digest resources =>
    [textMember "category" category, textMember "digest" digest,
      ("resources", .arr (resources.map ResourceRef.toJson))]
  | unmatchedProcessDirect channel address =>
    [textMember "channel" channel, textMember "address" address]
  | extension code data =>
    textMember "code" code ::
      match data with
      | .null => []
      | data => [("data", data.sorted)]

def toJson (d : Detail) : Json :=
  .obj (textMember "kind" d.kind :: d.members)

/-- A detail about a channel and its address. -/
def ofChannelAddress? (make : (channel address : String) → Detail) (v : Json) : Option Detail := do
  let members ← record? ["kind", "channel", "address"] v
  return make (← text? members "channel") (← text? members "address")

def ofKind? (v : Json) : String → Option Detail
  | "disallowed_value" => do
    let members ← record? ["kind", "facet", "value", "element"] v
    return .disallowedValue (← Json.lookup members "facet" >>= Facet.ofJson?)
      (← text? members "value") (← optional? Json.asString? members "element")
  | "missing_description" => some .missingDescription
  | "naming_convention" => do
    let members ← record? ["kind", "subject", "name"] v
    return .namingConvention (← text? members "subject") (← text? members "name")
  | "unencrypted_endpoint" => ofChannelAddress? .unencryptedEndpoint v
  | "cleartext_basic_auth" => ofChannelAddress? .cleartextBasicAuth v
  | "csrf_protection_missing" => do
    let members ← record? ["kind", "channel"] v
    return .csrfProtectionMissing (← text? members "channel")
  | "duplicate_resources" => do
    let members ← record? ["kind", "category", "digest", "resources"] v
    return .duplicateResources (← text? members "category") (← text? members "digest")
      (← Json.lookup members "resources" >>= items? ResourceRef.ofJson?)
  | "unmatched_process_direct" => ofChannelAddress? .unmatchedProcessDirect v
  | "extension" => do
    let members ← record? ["kind", "code", "data"] v
    return .extension (← text? members "code") (((Json.lookup members "data").getD .null).sorted)
  | _ => none

def ofJson? (v : Json) : Option Detail := do
  let members ← record? ["kind"] v
  ofKind? v (← text? members "kind")

end Detail

namespace Issue

def toJson (i : Issue) : Json :=
  .obj (optionalMember "rule_id" (i.ruleId.map .str) ++
    [("detail", i.detail.toJson), ("tags", .arr (i.tags.map Tag.toJson)),
      textMember "message" i.message])

def ofJson? (v : Json) : Option Issue := do
  let members ← record? ["rule_id", "detail", "tags", "message"] v
  let ruleId ← optional? Json.asString? members "rule_id"
  let detail ← Json.lookup members "detail" >>= Detail.ofJson?
  let tags ← Json.lookup members "tags" >>= items? Tag.ofJson?
  let i ← spanning? detail tags (← text? members "message")
  return { i with ruleId }

def parse? (text : String) : Option Issue :=
  Json.parse? text >>= ofJson?

end Issue

end FlowLint
