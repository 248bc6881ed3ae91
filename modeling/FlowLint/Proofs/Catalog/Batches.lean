import FlowLint.Catalog.BuiltIn
import FlowLint.Proofs.Rule.Judgement

/-!
# Batches of artifacts

Built-in rules that judge each artifact by itself can be run over artifacts in batches: if no
batch fails, the issues of the batches, one after the other, are those of a run over everything.
A pass over such rules raises what they find in one artifact and leaves them as they were but for
the hooks behind them, so an artifact has no influence on what is raised for a later one. Nothing
is said of the two rules that wait for the end of a run.
-/

namespace FlowLint

open FlowLint.Flow (Artifact)
open FlowLint.Markup (Element)

variable {r : Rule} {rules : List Rule} {a : Artifact}
  {supply batch next : List (Except Markup.Error Artifact)}

namespace Rule

/-- The rule judges each artifact by itself. -/
def JudgesSingly (r : Rule) : Prop :=
  ∃ judge, r.logic = .perArtifact judge

/-- The issues that a rule raises for an artifact which it is shown before any other. -/
def findings (r : Rule) (a : Artifact) : List Issue :=
  (r.logic.inspect [] a).issues.map (·.withRuleId r.id)

@[simp] theorem issues_call_start (r : Rule) : (r.call .start).issues = [] := by
  rw [call]
  split <;> rfl

/-- What is raised for an artifact does not depend on those inspected before. -/
theorem JudgesSingly.issues_call_inspect (h : r.JudgesSingly) (hstage : r.stage = .active)
    (a : Artifact) : (r.call (.inspect a)).issues = r.findings a := by
  obtain ⟨judge, hlogic⟩ := h
  rw [call_inspect hstage, findings, hlogic]
  rfl

theorem JudgesSingly.issues_call_finish (h : r.JudgesSingly) (hstage : r.stage = .active) :
    (r.call .finish).issues = [] := by
  obtain ⟨judge, hlogic⟩ := h
  rw [(call_finish hstage).1, hlogic]
  rfl

/-- A rule gets through all artifacts exactly if it gets through both parts. -/
theorem JudgesSingly.passes_append (h : r.JudgesSingly) {artifacts later : List Artifact} :
    r.Passes (hooksOf (artifacts ++ later)) ↔
      r.Passes (hooksOf artifacts) ∧ r.Passes (hooksOf later) := by
  obtain ⟨judge, hlogic⟩ := h
  rw [passes_hooksOf_perArtifact hlogic, passes_hooksOf_perArtifact hlogic,
    passes_hooksOf_perArtifact hlogic, List.forall_mem_append]
  exact and_and_left

end Rule

/-! ## One pass -/

/-- A pass in which no rule fails puts its hook behind every rule and collects what they raise. -/
theorem callEach_of_passed {h : Hook} {place : Nat} {c : Collector}
    (hpass : (callEach h place c rules).failure = none) :
    (callEach h place c rules).rules = rules.map (·.advanced [h]) ∧
      (callEach h place c rules).sink.issues =
        c.issues ++ rules.flatMap fun r => (r.call h).issues := by
  induction rules generalizing place c with
  | nil => exact ⟨rfl, (List.append_nil _).symm⟩
  | cons r rest ih =>
    cases hcall : (r.call h).failure with
    | some e =>
      rw [callEach_failed hcall] at hpass
      cases hpass
    | none =>
      rw [callEach_passed hcall] at hpass ⊢
      obtain ⟨hrules, hissues⟩ := ih hpass
      constructor
      · rw [List.map_cons, ← hrules, Rule.call_of_passed hcall]
      · simp [hissues]

/-- Rules that are ready for an artifact judge as they did before the hook that made them so. -/
theorem ready_of_advanced {h : Hook} (hstage : Rule.stageAfter h.name = .active)
    (hsingly : ∀ r ∈ rules, r.JudgesSingly) :
    (∀ r ∈ rules.map (·.advanced [h]), r.JudgesSingly) ∧
      (∀ r ∈ rules.map (·.advanced [h]), r.stage = .active) ∧
      ∀ a, (rules.map (·.advanced [h])).flatMap (·.findings a) = rules.flatMap (·.findings a) := by
  refine ⟨List.forall_mem_map.mpr hsingly, List.forall_mem_map.mpr fun _ _ => hstage, fun a => ?_⟩
  rw [List.flatMap_map]
  rfl

/-! ## Runs -/

/-- After its start, a run of rules that judge singly raises for each artifact what every rule
finds in it. -/
theorem issues_runRest {c : Collector} {inspected : Nat}
    (hsingly : ∀ r ∈ rules, r.JudgesSingly) (hactive : ∀ r ∈ rules, r.stage = .active)
    (h : (runRest rules c inspected supply).failure = none) :
    (runRest rules c inspected supply).sink.issues =
      c.issues ++ (readable supply).flatMap fun a => rules.flatMap (·.findings a) := by
  induction supply generalizing rules c inspected with
  | nil =>
    have hpass : (callEach .finish 0 c rules).failure = none := Option.map_eq_none_iff.mp h
    have hissues := (callEach_of_passed hpass).2
    rw [List.flatMap_eq_nil_iff.mpr fun r hr =>
      (hsingly r hr).issues_call_finish (hactive r hr)] at hissues
    exact hissues
  | cons item rest ih =>
    cases item with
    | error e => cases h
    | ok a =>
      rw [runRest_ok] at h ⊢
      obtain ⟨hpass, heq, hrest⟩ := Pass.proceed_passed h
      obtain ⟨hrules, hissues⟩ := callEach_of_passed hpass
      obtain ⟨hsingly', hactive', hfindings⟩ := ready_of_advanced (h := .inspect a) rfl hsingly
      have hfirst : (rules.flatMap fun r => (r.call (.inspect a)).issues) =
          rules.flatMap (·.findings a) :=
        List.flatMap_congr fun r hr => (hsingly r hr).issues_call_inspect (hactive r hr) a
      rw [hrules] at heq hrest
      rw [heq, Outcome.after, ih hsingly' hactive' hrest, hissues, hfirst, List.append_assoc]
      simp only [hfindings]
      rfl

/-- A run of rules that judge singly raises for each artifact, in turn, what every rule finds. -/
theorem issues_run_singly (hsingly : ∀ r ∈ rules, r.JudgesSingly)
    (h : (run rules supply ({} : Collector)).Succeeds) :
    (run rules supply ({} : Collector)).sink.issues =
      (readable supply).flatMap fun a => rules.flatMap (·.findings a) := by
  rw [Outcome.succeeds_iff] at h
  rw [run_eq] at h ⊢
  obtain ⟨hpass, heq, hrest⟩ := Pass.proceed_passed h
  obtain ⟨hrules, hissues⟩ := callEach_of_passed hpass
  rw [List.flatMap_eq_nil_iff.mpr fun r _ => r.issues_call_start] at hissues
  obtain ⟨hsingly', hactive, hfindings⟩ := ready_of_advanced (h := .start) rfl hsingly
  rw [hrules] at heq hrest
  rw [heq, Outcome.after, issues_runRest hsingly' hactive hrest, hissues]
  simp only [hfindings]
  rfl

@[simp] theorem readable_append (batch next : List (Except Markup.Error Artifact)) :
    readable (batch ++ next) = readable batch ++ readable next :=
  List.filterMap_append

/-- A run over both batches succeeds exactly if the runs over each of them do. -/
theorem succeeds_append (hsingly : ∀ r ∈ rules, r.JudgesSingly) :
    (run rules (batch ++ next) ({} : Collector)).Succeeds ↔
      (run rules batch ({} : Collector)).Succeeds ∧
        (run rules next ({} : Collector)).Succeeds := by
  have hpasses : (∀ r ∈ rules, r.Passes (hooksOf (readable (batch ++ next)))) ↔
      (∀ r ∈ rules, r.Passes (hooksOf (readable batch))) ∧
        ∀ r ∈ rules, r.Passes (hooksOf (readable next)) := by
    rw [readable_append, ← forall₂_and]
    exact forall₂_congr fun r hr => (hsingly r hr).passes_append
  rw [run_succeeds_iff, run_succeeds_iff, run_succeeds_iff, hpasses, List.forall_mem_append]
  exact and_and_and_comm

/-! ## Built-in rules -/

namespace Catalog

/-- The rule is of a kind that does not wait for the end of a run. -/
def BuiltIn.Stateless (b : BuiltIn) : Prop :=
  b.kind ≠ .duplicates ∧ b.kind ≠ .directCalls

/-- A stateless rule is one that judges artifact by artifact. -/
theorem BuiltIn.Stateless.exists_judge {b : BuiltIn} (h : b.Stateless) :
    ∃ judge, b.logic = .perArtifact judge := by
  cases b with
  | duplicates categories => exact absurd rfl h.1
  | directCalls => exact absurd rfl h.2
  | list | description | naming | endpoints | passwords | protection => exact ⟨_, rfl⟩

/-- **Artifacts do not influence each other**: a run of built-in rules that do not wait for its
end, over artifacts and then others, succeeds exactly if runs of the same rules over the ones and
over the others do, and its issues are those of the first and then those of the second. -/
theorem run_batches (hrules : ∀ r ∈ rules, ∃ b : BuiltIn, b.Stateless ∧ r.logic = b.logic)
    (batch next : List (Except Markup.Error Artifact)) :
    let both := run rules (batch ++ next) ({} : Collector)
    let first := run rules batch ({} : Collector)
    let second := run rules next ({} : Collector)
    (both.Succeeds ↔ first.Succeeds ∧ second.Succeeds) ∧
      (both.Succeeds → both.sink.issues = first.sink.issues ++ second.sink.issues) := by
  intro both first second
  have hsingly : ∀ r ∈ rules, r.JudgesSingly := fun r hr => by
    obtain ⟨b, hstateless, hlogic⟩ := hrules r hr
    obtain ⟨judge, hjudge⟩ := hstateless.exists_judge
    exact ⟨judge, hlogic.trans hjudge⟩
  have hsucceeds : both.Succeeds ↔ first.Succeeds ∧ second.Succeeds := succeeds_append hsingly
  refine ⟨hsucceeds, fun h => ?_⟩
  obtain ⟨hfirst, hsecond⟩ := hsucceeds.mp h
  rw [issues_run_singly hsingly h, issues_run_singly hsingly hfirst,
    issues_run_singly hsingly hsecond, readable_append, List.flatMap_append]

/-- A flow that nothing is said about. -/
def undescribed (id : String) : Artifact where
  tag := { id, name := id }
  document := (Element.named "definitions").withChild (.named "collaboration")

theorem run_batches_undescribed :
    let rules := [{ BuiltIn.description.toRule with id := some "d" }, BuiltIn.endpoints.toRule]
    let batch : List (Except Markup.Error Artifact) := [.ok (undescribed "A"), .ok (undescribed "B")]
    let next : List (Except Markup.Error Artifact) := [.ok (undescribed "C")]
    (∀ r ∈ rules, ∃ b : BuiltIn, b.Stateless ∧ r.logic = b.logic) ∧
      (run rules (batch ++ next) ({} : Collector)).Succeeds ∧
      (run rules (batch ++ next) ({} : Collector)).sink.issues =
        (run rules batch ({} : Collector)).sink.issues ++
          (run rules next ({} : Collector)).sink.issues := by
  intro rules batch next
  have hrules : ∀ r ∈ rules, ∃ b : BuiltIn, b.Stateless ∧ r.logic = b.logic := by
    intro r hr
    rcases List.mem_pair.mp hr with rfl | rfl
    · exact ⟨.description, ⟨by decide, by decide⟩, rfl⟩
    · exact ⟨.endpoints, ⟨by decide, by decide⟩, rfl⟩
  have hsucceeds : (run rules (batch ++ next) ({} : Collector)).Succeeds :=
    Outcome.succeeds_iff.mpr (by with_unfolding_all rfl)
  exact ⟨hrules, hsucceeds, (run_batches hrules batch next).2 hsucceeds⟩

end Catalog

end FlowLint
