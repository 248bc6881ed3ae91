import FlowLint.Proofs.Issue.ReadBack
import FlowLint.Proofs.Json.ReadBack
import FlowLint.Proofs.Time.MomentText
import FlowLint.Report.Codec

/-!
# Reports are read back

A report is first read from its text as a JSON value, whose members are then put in the order of
their keys, and from that value as a report. The second step is shown part by part for the value as
it is written and in order at once. The first holds for every report whose data is legible: texts
may be any, but a number that does not come back from its own text, or data with too many levels, is
lost. A report that is read need not agree with itself, and nothing is said of that here.

Records are read from objects. Other readers also take an array of a record's values in their order;
here such an array is refused, at the top and for any part, so that it is among the values from which
no issue is read.
-/

namespace FlowLint

open FlowLint.Json (Arrangement arrangement_id arrangement_sorted eachOnce record? text? items?
  textMember lookup)

variable {f : Json → Json}

/-! ## The parts of a report -/

theorem counter?_counterJson (hf : Arrangement f) (n : UInt32) :
    counter? (f (counterJson n)) = some n := by
  have hlt : n.toNat < UInt32.size := n.toNat_lt
  have hnat : (f (counterJson n)).asNat? = some n.toNat := by
    rw [counterJson, Json.ofNat, hf.num, Json.asNat?, if_pos (Int.natCast_nonneg _), Int.toNat_natCast]
  rw [counter?, hnat, Option.bind_eq_bind, Option.bind_some, if_pos hlt, UInt32.ofNat_toNat]

theorem Tool.ofJson?_toJson (hf : Arrangement f) (t : Tool) : Tool.ofJson? (f t.toJson) = some t :=
  hf.texts (by simp [eachOnce, textMember]) (by simp [lookup, textMember])
    (by simp [lookup, textMember]) Tool.mk

theorem Verdict.ofJson?_word (hf : Arrangement f) (v : Verdict) :
    Verdict.ofJson? (f (.str v.word)) = some v := by
  rw [hf.str]
  cases v <;> decide

theorem Report.moment?_text (hf : Arrangement f) (m : Moment) :
    moment? (f (.str m.text)) = some m := by
  simp [hf.str, moment?, Json.asString?]

theorem Totals.ofJson?_toJson (hf : Arrangement f) (t : Totals) :
    Totals.ofJson? (f t.toJson) = some t := by
  obtain ⟨members, hrecord, hlookup⟩ := hf.record? ["artifacts_inspected", "issues_found",
      "rules_loaded", "exemptions_configured"]
    [("artifacts_inspected", counterJson t.artifactsInspected),
      ("issues_found", counterJson t.issuesFound), ("rules_loaded", counterJson t.rulesLoaded),
      ("exemptions_configured", counterJson t.exemptionsConfigured)]
    (by simp [eachOnce])
  have hcounter : ∀ key n, lookup _ key = some (counterJson n) →
      (lookup members key).bind counter? = some n := fun key n h =>
    (Arrangement.value hlookup counter? h).trans (counter?_counterJson hf n)
  rw [ofJson?, toJson, hrecord]
  simp only [Option.bind_eq_bind, Option.bind_some,
    hcounter "artifacts_inspected" t.artifactsInspected (by simp [lookup]),
    hcounter "issues_found" t.issuesFound (by simp [lookup]),
    hcounter "rules_loaded" t.rulesLoaded (by simp [lookup]),
    hcounter "exemptions_configured" t.exemptionsConfigured (by simp [lookup])]
  rfl

/-! ## Reports -/

namespace Report

variable {r : Report}

/-- A report of proper issues is read back in any arrangement of its members. -/
theorem ofJson?_toJson (hf : Arrangement f) (h : ∀ i ∈ r.issues, i.Proper) :
    ofJson? (f r.toJson) = some r := by
  obtain ⟨members, hrecord, hlookup⟩ := hf.record? ["schema", "tool", "started_at",
      "finished_at", "verdict", "issues", "data"]
    [textMember "schema" schema, ("tool", r.tool.toJson),
      textMember "started_at" r.startedAt.text, textMember "finished_at" r.finishedAt.text,
      textMember "verdict" r.verdict.word, ("issues", .arr (r.issues.map Issue.toJson)),
      ("data", r.totals.toJson)]
    (by simp [eachOnce, textMember])
  have htool : (lookup members "tool").bind Tool.ofJson? = some r.tool :=
    (Arrangement.value hlookup Tool.ofJson? (by simp [lookup, textMember])).trans
      (r.tool.ofJson?_toJson hf)
  have hstarted : (lookup members "started_at").bind moment? = some r.startedAt :=
    (Arrangement.value hlookup moment? (by simp [lookup, textMember])).trans
      (moment?_text hf r.startedAt)
  have hfinished : (lookup members "finished_at").bind moment? = some r.finishedAt :=
    (Arrangement.value hlookup moment? (by simp [lookup, textMember])).trans
      (moment?_text hf r.finishedAt)
  have hverdict : (lookup members "verdict").bind Verdict.ofJson? = some r.verdict :=
    (Arrangement.value hlookup Verdict.ofJson? (by simp [lookup, textMember])).trans
      (r.verdict.ofJson?_word hf)
  have hissues : (lookup members "issues").bind (items? Issue.ofJson?) = some r.issues :=
    (Arrangement.value hlookup (items? Issue.ofJson?) (by simp [lookup, textMember])).trans
      (hf.items? fun i hi => Issue.ofJson?_toJson hf (h i hi))
  have htotals : (lookup members "data").bind Totals.ofJson? = some r.totals :=
    (Arrangement.value hlookup Totals.ofJson? (by simp [lookup, textMember])).trans
      (r.totals.ofJson?_toJson hf)
  rw [ofJson?, toJson, hrecord]
  simp only [Option.bind_eq_bind, Option.bind_some, htool, hstarted, hfinished, hverdict, hissues,
    htotals]
  rfl

/-- The schema is found in a report without reading the rest. -/
theorem schemaOf_sorted_toJson (r : Report) : schemaOf r.toJson.sorted = schema := by
  rw [schemaOf, toJson, Json.sorted, Json.get?, Json.lookup_sorted]
  simp [lookup, textMember, Json.sorted, Json.asString?]

/-- A text that is the JSON of a report is parsed as the report. -/
theorem parse_of_parse? {text : String} (h : Json.parse? text = some r.toJson)
    (hissues : ∀ i ∈ r.issues, i.Proper) : parse text = .ok r := by
  simp only [parse, h, schemaOf_sorted_toJson, ne_eq, not_true_eq_false, ↓reduceIte,
    ofJson?_toJson arrangement_sorted hissues]

end Report

/-! ## Written reports -/

open FlowLint.Json (Legible)

variable {levels : Nat}

/-- The data of a detail is legible. -/
def Detail.LegibleData (levels : Nat) : Detail → Prop
  | extension _ data => Legible levels data
  | _ => True

theorem legible_counterJson (n : UInt32) : Legible levels (counterJson n) := by
  have hlt : n.toNat < UInt32.size := n.toNat_lt
  have hsize : UInt32.size ≤ UInt64.size := by decide
  exact .num (Json.Number.ofChars?_write_int ⟨by omega, by omega⟩)

theorem Flow.Tag.legible_toJson (t : Flow.Tag) : Legible (levels + 2) t.toJson := by
  refine .obj ?_
  cases t.package <;>
    simp [textMember, Json.optionalMember, Legible.str, Flow.Package.toJson, Legible.obj]

theorem Detail.legible_toJson {d : Detail} (h : d.Proper) (hd : d.LegibleData (levels + 2)) :
    Legible (levels + 3) d.toJson := by
  refine .obj (List.forall_mem_cons.mpr ⟨.str _, ?_⟩)
  cases d with
  | disallowedValue facet value element =>
    cases element <;> simp [members, textMember, Json.optionalMember, Legible.str]
  | duplicateResources category digest resources =>
    have hresources : Legible (levels + 2) (.arr (resources.map ResourceRef.toJson)) :=
      .arr (List.forall_mem_map.mpr fun r _ => .obj (by simp [textMember, Legible.str]))
    simp [members, textMember, Legible.str, hresources]
  | extension code data =>
    have hsorted : data.sorted = data := h
    have hdata : Legible (levels + 2) data := hd
    cases data <;> simp [members, textMember, Legible.str, hsorted, hdata]
  | _ => simp [members, textMember, Legible.str]

/-- An issue is at most two levels deeper than its detail's data. -/
theorem Issue.legible_toJson {i : Issue} (h : i.detail.Proper)
    (hd : i.detail.LegibleData (levels + 2)) : Legible (levels + 4) i.toJson := by
  have htags : Legible (levels + 3) (.arr (i.tags.map Flow.Tag.toJson)) :=
    .arr (List.forall_mem_map.mpr fun t _ => t.legible_toJson)
  refine .obj ?_
  cases i.ruleId <;>
    simp [textMember, Json.optionalMember, Legible.str, htags, Detail.legible_toJson h hd]

namespace Report

variable {r : Report}

theorem legible_toJson_of_details (h : ∀ i ∈ r.issues, i.detail.Proper)
    (hdata : ∀ i ∈ r.issues, i.detail.LegibleData (levels + 2)) :
    Legible (levels + 6) r.toJson := by
  have htool : Legible (levels + 5) r.tool.toJson := .obj (by simp [textMember, Legible.str])
  have hissues : Legible (levels + 5) (.arr (r.issues.map Issue.toJson)) :=
    .arr (List.forall_mem_map.mpr fun i hi => Issue.legible_toJson (h i hi) (hdata i hi))
  have htotals : Legible (levels + 5) r.totals.toJson := .obj (by simp [legible_counterJson])
  exact .obj (by simp [textMember, Legible.str, htool, hissues, htotals])

/-- A report is legible if the data of all its details is. -/
theorem legible_toJson (h : ∀ i ∈ r.issues, i.Proper)
    (hdata : ∀ i ∈ r.issues, i.detail.LegibleData (levels + 2)) : Legible (levels + 6) r.toJson :=
  legible_toJson_of_details (fun i hi => (h i hi).detail) hdata

/-- A report is read back from its text if the data in it has legible numbers and no more levels
than may be open below the four of the report, its issues, the issue and its detail. -/
theorem parse_serialize (h : ∀ i ∈ r.issues, i.Proper)
    (hdata : ∀ i ∈ r.issues, i.detail.LegibleData (Json.depthLimit - 4)) :
    parse r.serialize = .ok r :=
  parse_of_parse? (Json.parse?_pretty (legible_toJson h hdata)) h

end Report

/-- **Reports and issues are read back.** If the written form of a report is read from its text as
the JSON value that it is, the report is read back; `Report.parse_serialize` says when it is. An
issue that is read from any value at all is read again from its written form, in the order in which
its members are written and in the order of their keys. -/
theorem report_readBack :
    (∀ r : Report, (∀ i ∈ r.issues, i.Proper) → Json.parse? r.toJson.pretty = some r.toJson →
      Report.parse r.serialize = .ok r) ∧
    (∀ v i, Issue.ofJson? v = some i →
      Issue.ofJson? i.toJson = some i ∧ Issue.ofJson? i.toJson.sorted = some i) := by
  have hparse : ∀ r : Report, (∀ i ∈ r.issues, i.Proper) →
      Json.parse? r.toJson.pretty = some r.toJson → Report.parse r.serialize = .ok r :=
    fun r hissues hjson => Report.parse_of_parse? hjson hissues
  refine ⟨hparse, fun v i hi => ?_⟩
  have hproper := Issue.proper_of_ofJson? hi
  exact ⟨Issue.ofJson?_toJson arrangement_id hproper, Issue.ofJson?_toJson arrangement_sorted hproper⟩

/-- An issue of a rule that is not built in, in two artifacts. -/
def unusedScript : Issue where
  ruleId := some "ext:unused-script"
  detail := .extension "unused_script" (.obj [("bytes", .ofNat 12), ("callers", .arr [.null])])
  tags := [⟨"a", "A", none⟩, ⟨"b", "B", some ⟨"p", "P"⟩⟩]
  message := "not called"
  tags_ne_nil := List.cons_ne_nil _ _

/-- The issue as a value, its members out of order, its data too and one tag there twice. -/
def unusedScriptShuffled : Json :=
  let b : Json := .obj [("package", .obj [("name", .str "P"), ("id", .str "p")]),
    ("name", .str "B"), ("id", .str "b")]
  .obj [("tags", .arr [b, .obj [("id", .str "a"), ("name", .str "A"), ("package", .null)], b]),
    ("message", .str "not called"), ("rule_id", .str "ext:unused-script"),
    ("detail", .obj [("data", .obj [("callers", .arr [.null]), ("bytes", .ofNat 12)]),
      ("code", .str "unused_script"), ("kind", .str "extension")])]

/-- A report with one issue. -/
def unusedScriptReport : Report :=
  ⟨⟨"cpilint", "0.1.0"⟩, .epoch, .epoch, .fail, [unusedScript], ⟨2, 1, 1, 0⟩⟩

theorem report_readBack_unusedScript :
    Report.parse unusedScriptReport.serialize = .ok unusedScriptReport ∧
      Issue.ofJson? unusedScriptShuffled = some unusedScript ∧
      Issue.ofJson? unusedScript.toJson = some unusedScript := by
  have hread : Issue.ofJson? unusedScriptShuffled = some unusedScript := by with_unfolding_all rfl
  have hproper : ∀ i ∈ unusedScriptReport.issues, i.Proper :=
    List.forall_mem_singleton.mpr (Issue.proper_of_ofJson? hread)
  have hdata : unusedScript.detail.LegibleData (Json.depthLimit - 4) :=
    .obj (List.forall_mem_cons.mpr ⟨.num rfl,
      List.forall_mem_singleton.mpr (.arr (List.forall_mem_singleton.mpr .null))⟩)
  have hjson : Json.parse? unusedScriptReport.toJson.pretty = some unusedScriptReport.toJson :=
    Json.parse?_pretty (Report.legible_toJson hproper (List.forall_mem_singleton.mpr hdata))
  have hparse : Report.parse unusedScriptReport.serialize = .ok unusedScriptReport :=
    report_readBack.1 _ hproper hjson
  have hofJson : Issue.ofJson? unusedScript.toJson = some unusedScript :=
    (report_readBack.2 _ _ hread).1
  exact ⟨hparse, hread, hofJson⟩

end FlowLint
