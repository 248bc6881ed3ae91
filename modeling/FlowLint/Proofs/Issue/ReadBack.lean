import FlowLint.Issue.Codec
import FlowLint.Proofs.Catalog.Grouping
import FlowLint.Proofs.Json.Sorted

/-!
# Issues are read back

Each thing that an issue is made of is read back from its written form, for every arrangement of the
members that a reader does not notice. Two things are put in order whenever an issue is made or
read, the tags and the data of an issue that is not built in; an issue in which both are in order is
read back as it is.
-/

namespace FlowLint

open FlowLint.Flow (Package Tag)
open FlowLint.Json (Arrangement arrangement_id arrangement_sorted eachOnce record? text? optional?
  items? textMember optionalMember lookup)

variable {f : Json → Json}

/-! ## What issues name -/

theorem Flow.Package.ofJson?_toJson (hf : Arrangement f) (p : Package) :
    Package.ofJson? (f p.toJson) = some p :=
  hf.texts (by simp [eachOnce, textMember]) (by simp [lookup, textMember])
    (by simp [lookup, textMember]) Package.mk

theorem Flow.Tag.ofJson?_toJson (hf : Arrangement f) (t : Tag) :
    Tag.ofJson? (f t.toJson) = some t := by
  obtain ⟨members, hrecord, hlookup⟩ := hf.record? ["id", "name", "package"]
    ([textMember "id" t.id, textMember "name" t.name] ++
      optionalMember "package" (t.package.map Package.toJson))
    (by cases t.package <;> simp [eachOnce, textMember, optionalMember])
  have hid : text? members "id" = some t.id := hf.text? hlookup (by
    cases t.package <;> simp [lookup, textMember, optionalMember])
  have hname : text? members "name" = some t.name := hf.text? hlookup (by
    cases t.package <;> simp [lookup, textMember, optionalMember])
  have hpackage : optional? Package.ofJson? members "package" = some t.package :=
    Arrangement.optional? hlookup Package.ofJson? Package.toJson
      (by cases t.package <;> simp [lookup, textMember, optionalMember])
      fun p _ => ⟨hf.obj_ne_null _, Package.ofJson?_toJson hf p⟩
  rw [ofJson?, toJson, hrecord]
  simp only [Option.bind_eq_bind, Option.bind_some, hid, hname, hpackage]
  rfl

theorem ResourceRef.ofJson?_toJson (hf : Arrangement f) (r : ResourceRef) :
    ResourceRef.ofJson? (f r.toJson) = some r :=
  hf.texts (by simp [eachOnce, textMember]) (by simp [lookup, textMember])
    (by simp [lookup, textMember]) ResourceRef.mk

/-- The codes of facets tell them apart. -/
@[simp] theorem Facet.ofCode?_code (facet : Facet) : ofCode? facet.code = some facet := by
  cases facet <;> decide

theorem Facet.ofJson?_code (hf : Arrangement f) (facet : Facet) :
    Facet.ofJson? (f (.str facet.code)) = some facet := by
  rw [hf.str]
  exact facet.ofCode?_code

/-! ## Details -/

/-- The data of a detail has its members in order. -/
def Detail.Proper : Detail → Prop
  | extension _ data => data.sorted = data
  | _ => True

namespace Detail

variable {d : Detail}

@[simp] theorem eachOnce_kind (d : Detail) :
    eachOnce ["kind"] (textMember "kind" d.kind :: d.members) = true := by
  cases d with
  | disallowedValue facet value element =>
    cases element <;> simp [eachOnce, textMember, optionalMember, members]
  | extension code data => cases data <;> simp [eachOnce, textMember, members]
  | _ => simp [eachOnce, textMember, members]

@[simp] theorem lookup_kind (d : Detail) :
    lookup (textMember "kind" d.kind :: d.members) "kind" = some (.str d.kind) := by
  cases d with
  | disallowedValue facet value element =>
    cases element <;> simp [lookup, textMember, optionalMember, members]
  | extension code data => cases data <;> simp [lookup, textMember, members]
  | _ => simp [lookup, textMember, members]

theorem ofKind?_disallowedValue (hf : Arrangement f) (facet : Facet) (value : String)
    (element : Option String) :
    ofKind? (f (disallowedValue facet value element).toJson) "disallowed_value" =
      some (disallowedValue facet value element) := by
  obtain ⟨members, hrecord, hlookup⟩ := hf.record? ["kind", "facet", "value", "element"]
    (textMember "kind" "disallowed_value" ::
      (disallowedValue facet value element).members)
    (by cases element <;> simp [eachOnce, textMember, optionalMember, Detail.members])
  have hfacet : (lookup members "facet").bind Facet.ofJson? = some facet :=
    (Arrangement.value hlookup Facet.ofJson? (v := .str facet.code) (by
      cases element <;> simp [lookup, textMember, optionalMember, Detail.members])).trans
      (facet.ofJson?_code hf)
  have hvalue : text? members "value" = some value := hf.text? hlookup (by
    cases element <;> simp [lookup, textMember, optionalMember, Detail.members])
  have helement : optional? Json.asString? members "element" = some element :=
    hf.optionalText? hlookup
      (by cases element <;> simp [lookup, textMember, optionalMember, Detail.members])
  have hjson : (disallowedValue facet value element).toJson =
      .obj (textMember "kind" "disallowed_value" ::
        (disallowedValue facet value element).members) := rfl
  rw [hjson]
  unfold ofKind?
  simp only [hrecord, Option.bind_eq_bind, Option.bind_some, hfacet, hvalue, helement]
  rfl

theorem ofKind?_csrfProtectionMissing (hf : Arrangement f) (channel : String) :
    ofKind? (f (csrfProtectionMissing channel).toJson) "csrf_protection_missing" =
      some (csrfProtectionMissing channel) := by
  obtain ⟨members, hrecord, hlookup⟩ := hf.record? ["kind", "channel"]
    [textMember "kind" "csrf_protection_missing", textMember "channel" channel]
    (by simp [eachOnce, textMember])
  have hchannel : text? members "channel" = some channel :=
    hf.text? hlookup (by simp [lookup, textMember])
  have hjson : (csrfProtectionMissing channel).toJson =
      .obj [textMember "kind" "csrf_protection_missing", textMember "channel" channel] := rfl
  rw [hjson]
  unfold ofKind?
  simp only [hrecord, Option.bind_eq_bind, Option.bind_some, hchannel]
  rfl

theorem ofKind?_duplicateResources (hf : Arrangement f) (category digest : String)
    (resources : List ResourceRef) :
    ofKind? (f (duplicateResources category digest resources).toJson) "duplicate_resources" =
      some (duplicateResources category digest resources) := by
  obtain ⟨members, hrecord, hlookup⟩ :=
    hf.record? ["kind", "category", "digest", "resources"]
      (textMember "kind" "duplicate_resources" ::
        (duplicateResources category digest resources).members)
      (by simp [eachOnce, textMember, Detail.members])
  have hcategory : text? members "category" = some category :=
    hf.text? hlookup (by simp [lookup, textMember, Detail.members])
  have hdigest : text? members "digest" = some digest :=
    hf.text? hlookup (by simp [lookup, textMember, Detail.members])
  have hresources : (lookup members "resources").bind (items? ResourceRef.ofJson?) =
      some resources :=
    (Arrangement.value hlookup (items? ResourceRef.ofJson?)
      (v := .arr (resources.map ResourceRef.toJson))
      (by simp [lookup, textMember, Detail.members])).trans
      (hf.items? fun r _ => r.ofJson?_toJson hf)
  have hjson : (duplicateResources category digest resources).toJson =
      .obj (textMember "kind" "duplicate_resources" ::
        (duplicateResources category digest resources).members) := rfl
  rw [hjson]
  unfold ofKind?
  simp only [hrecord, Option.bind_eq_bind, Option.bind_some, hcategory, hdigest, hresources]
  rfl

/-- Null data is not written, and what is missing is read as null. -/
theorem ofKind?_extension (hf : Arrangement f) (code : String) {data : Json}
    (hdata : data.sorted = data) :
    ofKind? (f (extension code data).toJson) "extension" = some (extension code data) := by
  obtain ⟨members, hrecord, hlookup⟩ := hf.record? ["kind", "code", "data"]
    (textMember "kind" "extension" :: (extension code data).members)
    (by cases data <;> simp [eachOnce, textMember, Detail.members])
  have hcode : text? members "code" = some code :=
    hf.text? hlookup (by cases data <;> simp [lookup, textMember, Detail.members])
  have hread : ((lookup members "data").getD .null).sorted = data := by
    rw [hlookup]
    cases data with
    | null => simp [lookup, textMember, Detail.members, Json.sorted]
    | _ => simp [lookup, textMember, Detail.members, hf.sorted, hdata]
  have hjson : (extension code data).toJson =
      .obj (textMember "kind" "extension" :: (extension code data).members) := rfl
  rw [hjson]
  unfold ofKind?
  simp only [hrecord, Option.bind_eq_bind, Option.bind_some, hcode, hread]
  rfl

/-- A detail is read back by its kind. -/
theorem ofKind?_toJson (hf : Arrangement f) (h : d.Proper) :
    ofKind? (f d.toJson) d.kind = some d := by
  cases d with
  | disallowedValue facet value element => exact ofKind?_disallowedValue hf facet value element
  | missingDescription => rfl
  | namingConvention subject name =>
    exact hf.texts (by simp [eachOnce, textMember, members]) (by simp [lookup, textMember, members])
      (by simp [lookup, textMember, members]) namingConvention
  | unencryptedEndpoint channel address =>
    exact hf.texts (by simp [eachOnce, textMember, members]) (by simp [lookup, textMember, members])
      (by simp [lookup, textMember, members]) unencryptedEndpoint
  | cleartextBasicAuth channel address =>
    exact hf.texts (by simp [eachOnce, textMember, members]) (by simp [lookup, textMember, members])
      (by simp [lookup, textMember, members]) cleartextBasicAuth
  | csrfProtectionMissing channel => exact ofKind?_csrfProtectionMissing hf channel
  | duplicateResources category digest resources =>
    exact ofKind?_duplicateResources hf category digest resources
  | unmatchedProcessDirect channel address =>
    exact hf.texts (by simp [eachOnce, textMember, members]) (by simp [lookup, textMember, members])
      (by simp [lookup, textMember, members]) unmatchedProcessDirect
  | extension code data => exact ofKind?_extension hf code h

/-- A detail is read back from its written form. -/
theorem ofJson?_toJson (hf : Arrangement f) (h : d.Proper) : ofJson? (f d.toJson) = some d := by
  have heachOnce : eachOnce ["kind"] (textMember "kind" d.kind :: d.members) = true :=
    eachOnce_kind d
  obtain ⟨members, hrecord, hlookup⟩ := hf.record? ["kind"]
    (textMember "kind" d.kind :: d.members) heachOnce
  have hkind : text? members "kind" = some d.kind := hf.text? hlookup (lookup_kind d)
  have hjson : d.toJson = .obj (textMember "kind" d.kind :: d.members) := rfl
  rw [ofJson?, hjson, hrecord]
  simp only [Option.bind_eq_bind, Option.bind_some, hkind]
  exact ofKind?_toJson hf h

theorem proper_of_ofKind? {v : Json} {kind : String} (h : ofKind? v kind = some d) : d.Proper := by
  unfold ofKind? at h
  split at h
  all_goals simp only [ofChannelAddress?, Option.bind_eq_bind, Option.bind_eq_some_iff,
    Option.pure_def, Option.some.injEq, reduceCtorEq] at h
  case h_1 => obtain ⟨_, -, _, -, _, -, _, -, rfl⟩ := h; trivial
  case h_2 => subst h; trivial
  case h_6 => obtain ⟨_, -, _, -, rfl⟩ := h; trivial
  case h_7 => obtain ⟨_, -, _, -, _, -, _, -, rfl⟩ := h; trivial
  case h_9 =>
    obtain ⟨_, -, _, -, rfl⟩ := h
    exact Json.sorted_sorted _
  all_goals
    obtain ⟨_, -, _, -, _, -, rfl⟩ := h
    trivial

theorem proper_of_ofJson? {v : Json} (h : ofJson? v = some d) : d.Proper := by
  obtain ⟨members, -, h⟩ := Option.bind_eq_some_iff.mp h
  obtain ⟨kind, -, h⟩ := Option.bind_eq_some_iff.mp h
  exact proper_of_ofKind? h

end Detail

/-! ## Issues -/

/-- An issue as it can be made: its tags are in order and each there once, and its data has its
members in order. -/
structure Issue.Proper (i : Issue) : Prop where
  detail : i.detail.Proper
  tags : i.tags.Pairwise (· < ·)

theorem sortTags_of_pairwise {tags : List Tag} (h : tags.Pairwise (· < ·)) :
    sortTags tags = tags :=
  Order.ofList_of_pairwise h

namespace Issue

variable {i : Issue}

/-- However an issue is made, it is in its proper form. -/
theorem proper_single {detail : Detail} (h : detail.Proper) (tag : Tag) (message : String) :
    (single detail tag message).Proper :=
  ⟨h, List.pairwise_singleton _ tag⟩

/-- Issues over several artifacts are proper if their detail is. -/
theorem proper_spanning {detail : Detail} (h : detail.Proper) {tags : List Tag} {message : String}
    (hi : spanning? detail tags message = some i) : i.Proper := by
  cases tags with
  | nil => cases hi
  | cons t rest =>
    cases hi
    exact ⟨h, Order.sorted_ofList (t :: rest)⟩

theorem proper_withRuleId (h : i.Proper) (id : Option String) : (i.withRuleId id).Proper :=
  ⟨h.detail, h.tags⟩

/-- Whatever is read as an issue is proper, so that the codec never leaves the issues it is for. -/
theorem proper_of_ofJson? {v : Json} (h : ofJson? v = some i) : i.Proper := by
  simp only [ofJson?, Option.bind_eq_bind, Option.bind_eq_some_iff, Option.pure_def,
    Option.some.injEq] at h
  obtain ⟨_, -, ruleId, -, detail, ⟨_, -, hdetail⟩, tags, -, message, -, i', hi, rfl⟩ := h
  have hproper : detail.Proper := Detail.proper_of_ofJson? hdetail
  obtain ⟨hdetail, htags⟩ := proper_spanning hproper hi
  exact ⟨hdetail, htags⟩

theorem spanning?_tags (h : i.tags.Pairwise (· < ·)) :
    spanning? i.detail i.tags i.message = some { i with ruleId := none } := by
  obtain ⟨ruleId, detail, tags, message, hne⟩ := i
  cases tags with
  | nil => exact absurd rfl hne
  | cons t rest => simp only [spanning?, sortTags_of_pairwise h]

/-- What stands in the written form of an issue. -/
theorem record?_toJson (hf : Arrangement f) (i : Issue) : ∃ members,
    record? ["rule_id", "detail", "tags", "message"] (f i.toJson) = some members ∧
      optional? Json.asString? members "rule_id" = some i.ruleId ∧
      lookup members "detail" = some (f i.detail.toJson) ∧
      lookup members "tags" = some (f (.arr (i.tags.map Tag.toJson))) ∧
      text? members "message" = some i.message := by
  obtain ⟨members, hrecord, hlookup⟩ := hf.record? ["rule_id", "detail", "tags", "message"]
    (optionalMember "rule_id" (i.ruleId.map .str) ++
      [("detail", i.detail.toJson), ("tags", .arr (i.tags.map Tag.toJson)),
        textMember "message" i.message])
    (by cases i.ruleId <;> simp [eachOnce, textMember, optionalMember])
  have hrule : optional? Json.asString? members "rule_id" = some i.ruleId :=
    hf.optionalText? hlookup
      (by cases i.ruleId <;> simp [lookup, textMember, optionalMember])
  have hdetail : lookup members "detail" = some (f i.detail.toJson) := by
    rw [hlookup]
    cases i.ruleId <;> simp [lookup, textMember, optionalMember]
  have htags : lookup members "tags" = some (f (.arr (i.tags.map Tag.toJson))) := by
    rw [hlookup]
    cases i.ruleId <;> simp [lookup, textMember, optionalMember]
  have hmessage : text? members "message" = some i.message := hf.text? hlookup (by
    cases i.ruleId <;> simp [lookup, textMember, optionalMember])
  exact ⟨members, hrecord, hrule, hdetail, htags, hmessage⟩

/-- A proper issue is read back in any arrangement of its members. -/
theorem ofJson?_toJson (hf : Arrangement f) (h : i.Proper) : ofJson? (f i.toJson) = some i := by
  obtain ⟨members, hrecord, hrule, hdetail, htags, hmessage⟩ := record?_toJson hf i
  have hread : items? Tag.ofJson? (f (.arr (i.tags.map Tag.toJson))) = some i.tags :=
    hf.items? fun t _ => t.ofJson?_toJson hf
  rw [ofJson?, hrecord]
  simp only [Option.bind_eq_bind, Option.bind_some, hrule, hdetail,
    Detail.ofJson?_toJson hf h.detail, htags, hread, hmessage, spanning?_tags h.tags]
  rfl

/-- The written form of an issue holds the id that it carries, whatever else is in it. -/
theorem ruleId_of_ofJson? {j : Issue} (hf : Arrangement f) (h : ofJson? (f i.toJson) = some j) :
    j.ruleId = i.ruleId := by
  obtain ⟨members, hrecord, hrule, -⟩ := record?_toJson hf i
  rw [ofJson?, hrecord] at h
  simp only [Option.bind_eq_bind, Option.bind_some, hrule, Option.bind_eq_some_iff,
    Option.pure_def, Option.some.injEq] at h
  obtain ⟨_, -, _, -, _, -, _, -, rfl⟩ := h
  rfl

end Issue

end FlowLint
