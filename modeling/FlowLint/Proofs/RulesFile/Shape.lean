import FlowLint.Proofs.RulesFile.Grammar
import FlowLint.Proofs.Text.Trimming
import Mathlib.Data.List.Sort
import Mathlib.Data.List.TakeWhile

/-!
# The grammar of rules files

A rules file is described here as a tree: what each element is called, which attributes it may
have and what stands below it. The checks walk through a document in order, with a rank for the
section before and a split of the entries of an exemption; they pass exactly the trees of the
grammar. Elements in a namespace below the rules are in the grammar whatever they look like, and
which of several violations is reported is not said.
-/

namespace FlowLint.RulesFile

open FlowLint.Markup (Element)
open FlowLint.Catalog (RuleKind)

/-! ## The grammar -/

/-- An element of a name, without namespace. -/
structure IsPlain (name : String) (e : Element) : Prop where
  uri : e.uri = none
  named : e.name = name

/-- An element that holds nothing but text. -/
structure IsLeaf (name : String) (e : Element) : Prop extends IsPlain name e where
  attributes : e.attributes = []
  children : e.children = []

/-- An element that holds nothing but text, some of it not blank. -/
structure IsFilled (name : String) (e : Element) : Prop extends IsLeaf name e where
  filled : ∃ c ∈ e.content.toList, Text.isBlank c = false

structure IsBuiltInRule (e : Element) : Prop where
  known : ∃ kind : RuleKind, e.name = kind.element
  attributes : ∀ a ∈ e.attributes, a.name = "id"
  id : ∀ id, e.attr? "id" = some id → id ≠ "" ∧ ∀ c ∈ id.toList, Text.isBlank c = false

structure IsExemption (e : Element) : Prop extends IsPlain "exemption" e where
  attributes : e.attributes = []
  entries : ∃ rule artifacts reasons, e.children = rule :: artifacts ++ reasons ∧
    IsFilled "rule-id" rule ∧ artifacts ≠ [] ∧ (∀ a ∈ artifacts, IsFilled "artifact-id" a) ∧
    reasons.length ≤ 1 ∧ ∀ r ∈ reasons, IsLeaf "reason" r

/-- What may stand in a section. -/
def Part.Admits : Part → List Element → Prop
  | imports, es => es ≠ [] ∧ ∀ e ∈ es, IsFilled "import" e
  | rules, es => ∀ e ∈ es, e.uri ≠ none ∨ IsBuiltInRule e
  | exemptions, es => ∀ e ∈ es, IsExemption e

structure IsSection (part : Part) (e : Element) : Prop extends IsPlain part.element e where
  attributes : e.attributes = []
  entries : part.Admits e.children

structure IsRulesFile (root : Element) : Prop extends IsPlain "cpilint" root where
  attributes : root.attributes = []
  /-- Some of the sections, in their order and none of them twice. -/
  sections : ∃ parts : List Part, parts.Sublist Part.all ∧ List.Forall₂ IsSection parts root.children

/-! ## Leaves -/

variable {e : Element} {es : List Element} {name parent : String}

@[simp] theorem checkName_passes_iff : checkName e parent name = .ok () ↔ IsPlain name e := by
  rw [checkName_eq_ok]
  constructor
  · rintro ⟨huri, hnamed⟩
    exact ⟨huri, hnamed⟩
  · intro h
    exact ⟨h.uri, h.named⟩

@[simp]
theorem checkTextOnly_eq_ok : checkTextOnly e = .ok () ↔ e.attributes = [] ∧ e.children = [] := by
  rw [checkTextOnly, check_bind_eq_ok, checkNoAttributes_eq_ok]
  cases e.children <;> simp

@[simp]
theorem text_eq_empty_iff : e.text = "" ↔ ∀ c ∈ e.content.toList, Text.isBlank c = true := by
  simp [Element.text, Text.isBlankText]

@[simp] theorem checkFilled_eq_ok :
    checkFilled e = .ok () ↔ e.attributes = [] ∧ e.children = [] ∧
      ∃ c ∈ e.content.toList, Text.isBlank c = false := by
  have hfilled : ¬ e.text = "" ↔ ∃ c ∈ e.content.toList, Text.isBlank c = false := by
    rw [text_eq_empty_iff]
    simp only [not_forall, Bool.not_eq_true, exists_prop]
  rw [checkFilled, check_bind_eq_ok, checkTextOnly_eq_ok, and_assoc, ← hfilled]
  by_cases htext : e.text = "" <;> simp [htext]

theorem isFilled_iff : checkName e parent name = .ok () ∧ checkFilled e = .ok () ↔
    IsFilled name e := by
  rw [checkName_passes_iff, checkFilled_eq_ok]
  constructor
  · rintro ⟨hplain, hattributes, hchildren, hfilled⟩
    exact ⟨⟨hplain, hattributes, hchildren⟩, hfilled⟩
  · intro h
    exact ⟨h.toIsPlain, h.attributes, h.children, h.filled⟩

theorem isLeaf_iff : checkName e parent name = .ok () ∧ checkTextOnly e = .ok () ↔
    IsLeaf name e := by
  rw [checkName_passes_iff, checkTextOnly_eq_ok]
  constructor
  · rintro ⟨hplain, hattributes, hchildren⟩
    exact ⟨hplain, hattributes, hchildren⟩
  · intro h
    exact ⟨h.toIsPlain, h.attributes, h.children⟩

/-! ## Entries of sections -/

@[simp] theorem checkImport_eq_ok : checkImport e = .ok () ↔ IsFilled "import" e := by
  rw [checkImport, check_bind_eq_ok, isFilled_iff]

@[simp] theorem checkArtifactId_eq_ok : checkArtifactId e = .ok () ↔ IsFilled "artifact-id" e := by
  rw [checkArtifactId, check_bind_eq_ok, isFilled_iff]

theorem isRuleId_iff {id : String} :
    isRuleId id = true ↔ id ≠ "" ∧ ∀ c ∈ id.toList, Text.isBlank c = false := by
  simp [isRuleId, List.all_eq_true]

theorem mem_all_kinds (kind : RuleKind) : kind ∈ RuleKind.all := by
  cases kind with
  | list facet allow => cases facet <;> cases allow <;> decide
  | description | naming | endpoints | passwords | protection | duplicates | directCalls => decide

@[simp] theorem isSome_ofElement?_iff :
    (RuleKind.ofElement? name).isSome ↔ ∃ kind : RuleKind, name = kind.element := by
  rw [RuleKind.ofElement?, List.find?_isSome]
  constructor
  · rintro ⟨kind, -, hname⟩
    exact ⟨kind, (of_decide_eq_true hname).symm⟩
  · rintro ⟨kind, hname⟩
    refine ⟨kind, mem_all_kinds kind, ?_⟩
    exact decide_eq_true hname.symm

/-- Of several attributes `id` the first is the id, and the others are not looked at. -/
theorem checkRule_plain (huri : e.uri = none) : checkRule e = .ok () ↔
    (RuleKind.ofElement? e.name).isSome ∧ (∀ a ∈ e.attributes, a.name = "id") ∧
      ∀ id, e.attr? "id" = some id → isRuleId id = true := by
  have hothers : e.attributes.find? (·.name ≠ "id") = none ↔
      ∀ a ∈ e.attributes, a.name = "id" := by simp
  rw [checkRule, huri, ← hothers]
  cases RuleKind.ofElement? e.name with
  | none => simp
  | some kind =>
    cases e.attributes.find? (·.name ≠ "id") with
    | some a => simp
    | none =>
      cases e.attr? "id" with
      | none => simp
      | some id => cases hid : isRuleId id <;> simp [Option.filter, hid]

@[simp] theorem checkRule_eq_ok : checkRule e = .ok () ↔ e.uri ≠ none ∨ IsBuiltInRule e := by
  cases huri : e.uri with
  | some uri => simp [checkRule, huri]
  | none =>
    rw [checkRule_plain huri, isSome_ofElement?_iff]
    simp only [isRuleId_iff]
    constructor
    · rintro ⟨hknown, hattributes, hid⟩
      exact .inr ⟨hknown, hattributes, hid⟩
    · rintro (hne | h)
      · exact absurd rfl hne
      · exact ⟨h.known, h.attributes, h.id⟩

@[simp] theorem checkReason_eq_ok :
    checkReason es = .ok () ↔ es.length ≤ 1 ∧ ∀ r ∈ es, IsLeaf "reason" r := by
  cases es with
  | nil => simp [checkReason]
  | cons reason rest =>
    unfold checkReason
    rw [check_bind_eq_ok, check_bind_eq_ok, ← and_assoc, isLeaf_iff]
    cases rest <;> simp

/-- The artifacts end where the names do, so no other split of the entries fits the grammar. -/
theorem checkExempted_eq_ok : checkExempted es = .ok () ↔
    ∃ artifacts reasons, es = artifacts ++ reasons ∧ artifacts ≠ [] ∧
      (∀ a ∈ artifacts, IsFilled "artifact-id" a) ∧
      reasons.length ≤ 1 ∧ ∀ r ∈ reasons, IsLeaf "reason" r := by
  rw [checkExempted, check_bind_eq_ok, checkEach_eq_ok]
  simp only [checkArtifactId_eq_ok]
  constructor
  · rintro ⟨hartifacts, hrest⟩
    split at hrest
    · cases hrest
    · next hsome =>
      obtain ⟨hlength, hreasons⟩ := checkReason_eq_ok.mp hrest
      refine ⟨_, _, List.takeWhile_append_dropWhile.symm, ?_, hartifacts, hlength, hreasons⟩
      intro hnil
      exact hsome (by rw [hnil]; rfl)
  · rintro ⟨artifacts, reasons, rfl, hne, hartifacts, hlength, hreasons⟩
    have hnamed : ∀ a ∈ artifacts, decide (a.name = "artifact-id") = true := fun a ha =>
      decide_eq_true (hartifacts a ha).named
    have hothers : ∀ r ∈ reasons, ¬ decide (r.name = "artifact-id") = true := by
      intro r hr
      rw [(hreasons r hr).named]
      decide
    have hstop : reasons.takeWhile (·.name = "artifact-id") = [] := by
      cases reasons with
      | nil => rfl
      | cons r rest => exact List.takeWhile_cons_of_neg (hothers r List.mem_cons_self)
    have hkeep : reasons.dropWhile (·.name = "artifact-id") = reasons := by
      cases reasons with
      | nil => rfl
      | cons r rest => exact List.dropWhile_cons_of_neg (hothers r List.mem_cons_self)
    rw [List.takeWhile_append_of_pos hnamed, List.dropWhile_append_of_pos hnamed, hstop, hkeep,
      List.append_nil]
    refine ⟨hartifacts, ?_⟩
    rw [if_neg (by simpa using hne)]
    exact checkReason_eq_ok.mpr ⟨hlength, hreasons⟩

@[simp] theorem checkExemption_eq_ok : checkExemption e = .ok () ↔ IsExemption e := by
  rw [checkExemption, check_bind_eq_ok, check_bind_eq_ok, checkName_passes_iff,
    checkNoAttributes_eq_ok]
  constructor
  · rintro ⟨hplain, hattributes, hentries⟩
    refine ⟨hplain, hattributes, ?_⟩
    cases hes : e.children with
    | nil =>
      rw [hes] at hentries
      cases hentries
    | cons rule rest =>
      rw [hes] at hentries
      obtain ⟨hname, hentries⟩ := check_bind_eq_ok.mp hentries
      obtain ⟨hfilled, hentries⟩ := check_bind_eq_ok.mp hentries
      obtain ⟨artifacts, reasons, rfl, hexempted⟩ := checkExempted_eq_ok.mp hentries
      have hisFilled : IsFilled "rule-id" rule := isFilled_iff.mp ⟨hname, hfilled⟩
      exact ⟨rule, artifacts, reasons, rfl, hisFilled, hexempted⟩
  · rintro ⟨hplain, hattributes, rule, artifacts, reasons, hes, hrule, hexempted⟩
    refine ⟨hplain, hattributes, ?_⟩
    rw [hes]
    obtain ⟨hname, hfilled⟩ := isFilled_iff.mpr hrule
    apply check_bind_eq_ok.mpr
    refine ⟨hname, check_bind_eq_ok.mpr ⟨hfilled, ?_⟩⟩
    exact checkExempted_eq_ok.mpr ⟨artifacts, reasons, rfl, hexempted⟩

/-! ## Sections -/

theorem checkPart_eq_ok {part : Part} :
    checkPart e part = .ok () ↔ e.attributes = [] ∧ part.Admits e.children := by
  cases part with
  | imports =>
    rw [checkPart, checkImports, check_bind_eq_ok, checkNoAttributes_eq_ok, Part.Admits]
    simp only [← checkImport_eq_ok, ← checkEach_eq_ok]
    cases e.children <;> simp
  | rules =>
    rw [checkPart, checkRules, check_bind_eq_ok, checkNoAttributes_eq_ok, checkEach_eq_ok,
      Part.Admits]
    simp
  | exemptions =>
    rw [checkPart, checkExemptions, check_bind_eq_ok, checkNoAttributes_eq_ok, checkEach_eq_ok,
      Part.Admits]
    simp

theorem isSection_iff {part : Part} :
    Part.ofElement e = .ok part ∧ checkPart e part = .ok () ↔ IsSection part e := by
  rw [ofElement_eq_ok, checkPart_eq_ok]
  constructor
  · rintro ⟨⟨huri, hname⟩, hattributes, hentries⟩
    exact ⟨⟨huri, hname⟩, hattributes, hentries⟩
  · intro h
    exact ⟨⟨h.uri, h.named⟩, h.attributes, h.entries⟩

/-- Sections pass one after the other if their ranks go up, from that of the section before. -/
theorem checkParts_eq_ok {last : Option Nat} : checkParts last es = .ok () ↔
    ∃ parts : List Part, (∀ part ∈ parts, last.all (· < part.rank)) ∧
      parts.Pairwise (·.rank < ·.rank) ∧ List.Forall₂ IsSection parts es := by
  induction es generalizing last with
  | nil => simp [checkParts]
  | cons e rest ih =>
    rw [checkParts_cons]
    constructor
    · rintro ⟨part, hpart, hlast, hcheck, hrest⟩
      obtain ⟨parts, hranks, hup, hsections⟩ := ih.mp hrest
      have hsection : IsSection part e := isSection_iff.mp ⟨hpart, hcheck⟩
      have habove : ∀ later ∈ parts, part.rank < later.rank := by
        intro later hlater
        simpa using hranks later hlater
      refine ⟨part :: parts, ?_, List.pairwise_cons.mpr ⟨habove, hup⟩, .cons hsection hsections⟩
      intro later hlater
      rcases List.mem_cons.mp hlater with rfl | hlater
      · exact hlast
      · have hlt := habove later hlater
        cases last with
        | none => rfl
        | some n =>
          simp only [Option.all_some, decide_eq_true_eq] at hlast ⊢
          omega
    · rintro ⟨parts, hranks, hup, hsections⟩
      obtain ⟨part, later, hsection, hrest, rfl⟩ := List.forall₂_cons_right_iff.mp hsections
      obtain ⟨hpart, hcheck⟩ := isSection_iff.mpr hsection
      obtain ⟨habove, hup⟩ := List.pairwise_cons.mp hup
      refine ⟨part, hpart, hranks part List.mem_cons_self, hcheck, ih.mpr ⟨later, ?_, hup, hrest⟩⟩
      intro next hnext
      simpa using habove next hnext

/-- Increasing ranks are the order of the grammar. -/
theorem sublist_all_iff {parts : List Part} :
    parts.Sublist Part.all ↔ parts.Pairwise (·.rank < ·.rank) := by
  have hall : Part.all.Pairwise (·.rank < ·.rank) := by decide
  constructor
  · intro h
    exact hall.sublist h
  · intro hup
    have hinj : Function.Injective Part.rank := by
      intro a b
      cases a <;> cases b <;> decide
    have hnodup : parts.Nodup := hup.imp fun hlt heq => by rw [heq] at hlt; exact lt_irrefl _ hlt
    have hsubset : parts ⊆ Part.all := fun part _ => by cases part <;> decide
    have hantisymm : Std.Antisymm fun a b : Part => a.rank ≤ b.rank :=
      ⟨fun a b hab hba => hinj (le_antisymm hab hba)⟩
    have hsubperm : parts.Subperm Part.all := List.subperm_of_subset hnodup hsubset
    exact List.sublist_of_subperm_of_pairwise (r := fun a b : Part => a.rank ≤ b.rank)
      hsubperm (hup.imp le_of_lt) (hall.imp le_of_lt)

/-- A document passes the check exactly if it is a tree of the grammar. -/
theorem check_passes_iff (root : Element) : check root = .ok () ↔ IsRulesFile root := by
  have hsections : checkParts none root.children = .ok () ↔
      ∃ parts : List Part, parts.Sublist Part.all ∧ List.Forall₂ IsSection parts root.children := by
    rw [checkParts_eq_ok]
    simp only [Option.all_none, implies_true, true_and, sublist_all_iff]
  have hbody : (do checkNoAttributes root; checkParts none root.children) = .ok () ↔
      root.attributes = [] ∧ ∃ parts : List Part, parts.Sublist Part.all ∧
        List.Forall₂ IsSection parts root.children := by
    simp [hsections]
  constructor
  · intro h
    unfold check at h
    split at h
    · cases h
    · next hroot =>
      obtain ⟨huri, hname⟩ := not_or.mp hroot
      obtain ⟨hattributes, hparts⟩ := hbody.mp h
      exact ⟨⟨by simpa using huri, not_not.mp hname⟩, hattributes, hparts⟩
  · intro h
    have hroot : ¬ (root.uri.isSome ∨ root.name ≠ "cpilint") := by simp [h.uri, h.named]
    rw [check, if_neg hroot]
    exact hbody.mpr ⟨h.attributes, h.sections⟩

end FlowLint.RulesFile
