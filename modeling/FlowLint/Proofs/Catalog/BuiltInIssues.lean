import FlowLint.Catalog.Factory
import FlowLint.Proofs.Catalog.SharedContents
import FlowLint.Proofs.Rule.Independence
import FlowLint.Proofs.Rule.Suppression
import FlowLint.Proofs.RulesFile.MergeOrder

/-!
# The issues of built-in rules

What all answers of a logic keep to, the issues of a run of such rules keep to. No built-in rule
answers with an issue that has a code and data of its own choice, and rules files that are loaded
without extensions hold built-in rules only, so no such issue is raised by a run of them.
-/

namespace FlowLint

open FlowLint.Flow (Artifact)

variable {P : Detail → Prop} {r : Rule} {rules : List Rule} {artifacts : List Artifact}

/-- All issues that a logic answers with have details of some kind, whatever it is asked. -/
structure Logic.Raises (l : Logic) (P : Detail → Prop) : Prop where
  inspect : ∀ entered a, ∀ i ∈ (l.inspect entered a).issues, P i.detail
  finish : ∀ entered, ∀ i ∈ (l.finish entered).issues, P i.detail

theorem raises_perArtifact {judge : Artifact → Response}
    (h : ∀ a, ∀ i ∈ (judge a).issues, P i.detail) : (Logic.perArtifact judge).Raises P :=
  ⟨fun _ => h, fun _ _ hi => absurd hi List.not_mem_nil⟩

theorem raises_perRun {judge : List Artifact → Response}
    (h : ∀ artifacts, ∀ i ∈ (judge artifacts).issues, P i.detail) :
    (Logic.perRun judge).Raises P :=
  ⟨fun _ _ _ hi => absurd hi List.not_mem_nil, fun _ => h _⟩

/-! ## The issues of a run -/

@[simp] theorem Rule.logic_call (r : Rule) (h : Hook) : (r.call h).rule.logic = r.logic := by
  unfold Rule.call
  split
  · dsimp only
    split <;> rfl
  · rfl

theorem Rule.of_mem_call (hr : r.logic.Raises P) {h : Hook} {i : Issue}
    (hi : i ∈ (r.call h).issues) : P i.detail := by
  unfold Rule.call at hi
  split at hi
  · obtain ⟨raised, hraised, rfl⟩ := List.mem_map.mp hi
    cases h with
    | start => exact absurd hraised List.not_mem_nil
    | inspect a => exact hr.inspect _ a raised hraised
    | finish => exact hr.finish _ raised hraised
  · exact absurd hi List.not_mem_nil

/-- A property of all details that the logic raises holds along a whole course. -/
theorem Rule.of_mem_issuesAlong {hooks : List Hook} (hr : r.logic.Raises P) {i : Issue}
    (hi : i ∈ r.issuesAlong hooks) : P i.detail := by
  induction hooks generalizing r with
  | nil => exact absurd hi List.not_mem_nil
  | cons h rest ih =>
    rcases List.mem_append.mp hi with hi | hi
    · exact r.of_mem_call hr hi
    · exact ih (r.logic_call h ▸ hr) hi

/-- The issues that a run reports are of the kind that its rules raise. -/
theorem of_mem_run {exemptions : List Exemption} (hrules : ∀ r ∈ rules, r.logic.Raises P)
    (hrun : (run rules (artifacts.map .ok)
      ({ exemptions, inner := {} } : ExemptionFilter Collector)).Succeeds) {i : Issue}
    (hi : i ∈ (run rules (artifacts.map .ok)
      ({ exemptions, inner := {} } : ExemptionFilter Collector)).sink.inner.issues) :
    P i.detail := by
  have hbare : (run rules (artifacts.map .ok) ({} : Collector)).Succeeds := by
    rw [Outcome.succeeds_iff] at hrun ⊢
    rwa [run_into] at hrun
  rw [run_into, Outcome.into, ExemptionFilter.acceptAll_new] at hi
  have hraised := (interleaving_issues_run hbare).perm.mem_iff.mp (List.mem_of_mem_filter hi)
  obtain ⟨along, halong, hi⟩ := List.mem_flatten.mp hraised
  obtain ⟨r, hr, rfl⟩ := List.mem_map.mp halong
  exact r.of_mem_issuesAlong (hrules r hr) hi

/-! ## Built-in rules -/

/-- The detail has no code and data of a rule's own choice. -/
def Detail.IsBuiltIn : Detail → Prop
  | extension .. => False
  | _ => True

namespace Catalog

theorem isBuiltIn_reportGroups (groups : List Group) :
    ∀ i ∈ (reportGroups groups).issues, i.detail.IsBuiltIn := by
  induction groups with
  | nil => exact fun _ hi => absurd hi List.not_mem_nil
  | cons g rest ih =>
    rw [reportGroups]
    cases hissue : g.issue? with
    | none => exact fun _ hi => absurd hi List.not_mem_nil
    | some i =>
      refine List.forall_mem_cons.mpr ⟨?_, ih⟩
      rw [(of_spanning? hissue).2.1]
      exact trivial

/-- No built-in rule raises the detail of an extension. -/
theorem BuiltIn.raises (b : BuiltIn) : b.logic.Raises Detail.IsBuiltIn := by
  cases b with
  | list r => exact raises_perArtifact fun a => List.forall_mem_map.mpr fun o _ => trivial
  | description =>
    refine raises_perArtifact fun a i hi => ?_
    unfold inspectDescription at hi
    split at hi
    · exact absurd hi List.not_mem_nil
    · exact absurd hi List.not_mem_nil
    · rw [List.mem_singleton.mp hi]
      exact trivial
  | naming c =>
    refine raises_perArtifact fun a i hi => ?_
    obtain ⟨s, -, hi⟩ := List.mem_flatMap.mp hi
    obtain ⟨name, -, rfl⟩ := List.mem_map.mp hi
    exact trivial
  | endpoints | passwords | protection =>
    exact raises_perArtifact fun a => List.forall_mem_map.mpr fun c _ => trivial
  | duplicates categories => exact raises_perRun fun artifacts => isBuiltIn_reportGroups _
  | directCalls => exact raises_perRun fun artifacts => List.forall_mem_map.mpr fun c _ => trivial

/-- Without extensions an element configures a built-in rule. -/
theorem exists_builtIn_of_create {e : Markup.Element} {rule : Rule}
    (h : registry.create e = .ok rule) : ∃ b : BuiltIn, rule.logic = b.logic := by
  unfold Registry.create at h
  split at h
  · next one hone =>
    have hmem : one ∈ registry.factories :=
      List.mem_of_mem_filter (hone ▸ List.mem_singleton_self one)
    obtain ⟨kinds, -, rfl⟩ := List.mem_map.mp hmem
    dsimp only [factoryOf] at h
    split at h
    · next kind hkind =>
      cases hread : kind.read e with
      | error error => simp [hread, Except.map] at h
      | ok b =>
        rw [hread] at h
        exact ⟨b, Except.ok.inj h ▸ rfl⟩
    · cases h
  · cases h
  · cases h

theorem exists_builtIn_of_buildRule {e : Markup.Element} {rule : Rule}
    (h : RulesFile.buildRule registry e = .ok rule) : ∃ b : BuiltIn, rule.logic = b.logic := by
  obtain ⟨created, hcreated, h⟩ := RulesFile.bind_eq_ok.mp h
  obtain ⟨b, hb⟩ := exists_builtIn_of_create hcreated
  refine ⟨b, hb ▸ ?_⟩
  split at h
  · rw [← Except.ok.inj h]
  · unfold Rule.assignId at h
    split at h
    · cases h
    · rw [← Except.ok.inj h]

theorem exists_builtIn_of_buildRules {es : List Markup.Element} {rules : List Rule}
    (h : RulesFile.buildRules registry es = .ok rules) :
    ∀ r ∈ rules, ∃ b : BuiltIn, r.logic = b.logic := by
  replace h := RulesFile.buildRules_eq_ok.mp h
  induction h with
  | nil => exact fun _ hr => absurd hr List.not_mem_nil
  | cons hrule _ ih => exact List.forall_mem_cons.mpr ⟨exists_builtIn_of_buildRule hrule, ih⟩

/-- Rules that are loaded without extensions are built in. -/
theorem exists_builtIn_of_load {s : RulesFile.Source} {entry : Path} {file : RulesFile}
    (h : RulesFile.load s registry entry = .ok file) :
    ∀ r ∈ file.rules, ∃ b : BuiltIn, r.logic = b.logic := by
  obtain ⟨start, l, -, -, hload, rfl, -, -⟩ := RulesFile.load_eq_ok_iff.mp h
  intro r hr
  obtain ⟨p, hp, hr⟩ := List.mem_flatMap.mp hr
  obtain ⟨root, own, hroot, -, hown⟩ := hload p (List.mem_eraseDups.mp hp)
  obtain ⟨rules, hrules, rfl⟩ := RulesFile.own_eq_ok.mp hown
  rw [RulesFile.contribution_eq hroot hown] at hr
  exact exists_builtIn_of_buildRules hrules r hr

/-- A run of rules that are loaded without extensions reports built-in issues only. -/
theorem isBuiltIn_of_mem_run {s : RulesFile.Source} {entry : Path} {file : RulesFile}
    (hload : RulesFile.load s registry entry = .ok file)
    (hrun : (run file.rules (artifacts.map .ok)
      ({ exemptions := file.exemptions, inner := {} } : ExemptionFilter Collector)).Succeeds)
    {i : Issue} (hi : i ∈ (run file.rules (artifacts.map .ok)
      ({ exemptions := file.exemptions, inner := {} } :
        ExemptionFilter Collector)).sink.inner.issues) :
    i.detail.IsBuiltIn := by
  refine of_mem_run (fun r hr => ?_) hrun hi
  obtain ⟨b, hb⟩ := exists_builtIn_of_load hload r hr
  rw [hb]
  exact b.raises

end Catalog

end FlowLint
