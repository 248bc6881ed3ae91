import FlowLint.Proofs.Rule.Independence

/-!
# Rules that judge artifacts singly, and rules that judge them together

Most rules judge each artifact by itself: whatever else is in a run, they raise for it what
they would raise for it alone. The others say nothing until they have been shown everything.
What a rule of either kind raises in a run, and when it fails, is said here by its judgement
and the artifacts. Rules that remember anything else are not covered.
-/

namespace FlowLint

open FlowLint.Flow (Artifact)

variable {r : Rule} {artifacts : List Artifact}

namespace Rule

/-! ## The three hooks -/

theorem call_start (hstage : r.stage = .configured) (hstart : r.logic.start r.entered = none) :
    r.call .start = ⟨r.advanced [.start], [], none⟩ := by
  have hfits : r.stage = stageFor Hook.start.name := hstage
  exact call_of_answer hfits hstart

/-- An active rule stays active through an inspection, whether it fails or not. -/
theorem call_inspect (hstage : r.stage = .active) (a : Artifact) :
    r.call (.inspect a) = ⟨r.advanced [.inspect a],
      (r.logic.inspect r.entered a).issues.map (·.withRuleId r.id),
      (r.logic.inspect r.entered a).failure⟩ := by
  have hstage' : r.stage = stageFor (Hook.inspect a).name := hstage
  have hentered : { r with entered := r.entered ++ [Hook.inspect a] } =
      r.advanced [.inspect a] := by
    rw [advanced, hstage]
    rfl
  rw [call, if_pos hstage', ← hentered]
  simp only [respond]
  cases (r.logic.inspect r.entered a).failure with
  | none =>
    rw [hentered]
    rfl
  | some e => rfl

theorem call_finish (hstage : r.stage = .active) :
    (r.call .finish).issues = (r.logic.finish r.entered).issues.map (·.withRuleId r.id) ∧
      (r.call .finish).failure = (r.logic.finish r.entered).failure := by
  have hstage' : r.stage = stageFor Hook.finish.name := hstage
  rw [call, if_pos hstage']
  exact ⟨rfl, rfl⟩

theorem passes_hooksOf_iff (hstart : r.logic.start r.entered = none) :
    r.Passes (hooksOf artifacts) ↔ r.stage = .configured ∧
      (r.advanced [.start]).Passes (artifacts.map .inspect ++ [.finish]) := by
  constructor
  · intro h
    have hstage : r.stage = .configured := stage_of_passed h.1
    have hrest := h.2
    rw [call_start hstage hstart] at hrest
    exact ⟨hstage, hrest⟩
  · rintro ⟨hstage, hrest⟩
    have hcall := call_start hstage hstart
    exact ⟨congrArg Call.failure hcall, by rw [hcall]; exact hrest⟩

theorem issuesAlong_hooksOf (hstage : r.stage = .configured)
    (hstart : r.logic.start r.entered = none) :
    r.issuesAlong (hooksOf artifacts) =
      (r.advanced [.start]).issuesAlong (artifacts.map .inspect ++ [.finish]) := by
  rw [hooksOf, List.cons_append, issuesAlong, call_start hstage hstart]
  rfl

/-! ## Artifacts by themselves -/

section PerArtifact

variable {judge : Artifact → Response}

/-- A rule that judges artifact by artifact passes exactly if it passes each of them. -/
theorem passes_perArtifact (hstage : r.stage = .active) (hlogic : r.logic = .perArtifact judge) :
    r.Passes (artifacts.map .inspect ++ [.finish]) ↔
      ∀ a ∈ artifacts, (judge a).failure = none := by
  induction artifacts generalizing r with
  | nil =>
    refine iff_of_true ⟨?_, trivial⟩ nofun
    rw [(call_finish hstage).2, hlogic]
    rfl
  | cons a rest ih =>
    have hanswer : r.logic.inspect r.entered a = judge a := by rw [hlogic]; rfl
    rw [List.map_cons, List.cons_append, Passes, call_inspect hstage, hanswer,
      List.forall_mem_cons]
    have hrest : (r.advanced [.inspect a]).Passes (rest.map .inspect ++ [.finish]) ↔
        ∀ a ∈ rest, (judge a).failure = none :=
      ih rfl hlogic
    rw [hrest]

theorem issuesAlong_perArtifact (hstage : r.stage = .active)
    (hlogic : r.logic = .perArtifact judge) :
    r.issuesAlong (artifacts.map .inspect ++ [.finish]) =
      artifacts.flatMap fun a => (judge a).issues.map (·.withRuleId r.id) := by
  induction artifacts generalizing r with
  | nil =>
    rw [List.map_nil, List.nil_append, issuesAlong, (call_finish hstage).1, hlogic]
    rfl
  | cons a rest ih =>
    have hanswer : r.logic.inspect r.entered a = judge a := by rw [hlogic]; rfl
    rw [List.map_cons, List.cons_append, issuesAlong, call_inspect hstage, hanswer,
      List.flatMap_cons]
    have hrest : (r.advanced [.inspect a]).issuesAlong (rest.map .inspect ++ [.finish]) =
        rest.flatMap fun a => (judge a).issues.map (·.withRuleId r.id) :=
      ih rfl hlogic
    rw [hrest]

/-- A rule that judges each artifact by itself fails at any artifact that it cannot judge. -/
theorem passes_hooksOf_perArtifact (hlogic : r.logic = .perArtifact judge) :
    r.Passes (hooksOf artifacts) ↔
      r.stage = .configured ∧ ∀ a ∈ artifacts, (judge a).failure = none := by
  rw [passes_hooksOf_iff (by rw [hlogic]; rfl)]
  have hactive : (r.advanced [.start]).Passes (artifacts.map .inspect ++ [.finish]) ↔
      ∀ a ∈ artifacts, (judge a).failure = none :=
    passes_perArtifact rfl hlogic
  rw [hactive]

/-- Along a whole course such a rule raises what it raises for each artifact. -/
theorem issuesAlong_hooksOf_perArtifact (hstage : r.stage = .configured)
    (hlogic : r.logic = .perArtifact judge) :
    r.issuesAlong (hooksOf artifacts) =
      artifacts.flatMap fun a => (judge a).issues.map (·.withRuleId r.id) := by
  rw [issuesAlong_hooksOf hstage (by rw [hlogic]; rfl)]
  exact issuesAlong_perArtifact (r := r.advanced _) rfl hlogic

end PerArtifact

/-! ## All artifacts together -/

section PerRun

variable {judge : List Artifact → Response}

@[simp] theorem inspected_advanced_inspect (r : Rule) (a : Artifact) (rest : List Artifact) :
    inspected (r.advanced [.inspect a]).entered ++ rest = inspected r.entered ++ a :: rest := by
  have hentered : inspected (r.entered ++ [.inspect a]) = inspected r.entered ++ [a] :=
    List.filterMap_append
  rw [List.append_cons, ← hentered]
  rfl

@[simp] theorem inspected_advanced_start (r : Rule) :
    inspected (r.advanced [.start]).entered = inspected r.entered :=
  List.filterMap_append.trans (List.append_nil _)

theorem passes_perRun (hstage : r.stage = .active) (hlogic : r.logic = .perRun judge) :
    r.Passes (artifacts.map .inspect ++ [.finish]) ↔
      (judge (inspected r.entered ++ artifacts)).failure = none := by
  induction artifacts generalizing r with
  | nil =>
    rw [List.append_nil, List.map_nil, List.nil_append, Passes, (call_finish hstage).2, hlogic]
    exact and_iff_left trivial
  | cons a rest ih =>
    -- The artifact moves from those to come to those that the rule has inspected.
    have hanswer : r.logic.inspect r.entered a = {} := by rw [hlogic]; rfl
    rw [List.map_cons, List.cons_append, Passes, call_inspect hstage, hanswer,
      ← inspected_advanced_inspect]
    exact (and_iff_right rfl).trans (ih (r := r.advanced _) rfl hlogic)

theorem issuesAlong_perRun (hstage : r.stage = .active) (hlogic : r.logic = .perRun judge) :
    r.issuesAlong (artifacts.map .inspect ++ [.finish]) =
      (judge (inspected r.entered ++ artifacts)).issues.map (·.withRuleId r.id) := by
  induction artifacts generalizing r with
  | nil =>
    rw [List.append_nil, List.map_nil, List.nil_append, issuesAlong, (call_finish hstage).1,
      hlogic]
    exact List.append_nil _
  | cons a rest ih =>
    have hanswer : r.logic.inspect r.entered a = {} := by rw [hlogic]; rfl
    rw [List.map_cons, List.cons_append, issuesAlong, call_inspect hstage, hanswer,
      ← inspected_advanced_inspect]
    exact ih (r := r.advanced _) rfl hlogic

/-- A rule that judges at the end passes exactly if its judgement does. -/
theorem passes_hooksOf_perRun (hlogic : r.logic = .perRun judge) :
    r.Passes (hooksOf artifacts) ↔ r.stage = .configured ∧
      (judge (inspected r.entered ++ artifacts)).failure = none := by
  rw [passes_hooksOf_iff (by rw [hlogic]; rfl), ← inspected_advanced_start]
  have hactive : (r.advanced [.start]).Passes (artifacts.map .inspect ++ [.finish]) ↔
      (judge (inspected (r.advanced [.start]).entered ++ artifacts)).failure = none :=
    passes_perRun rfl hlogic
  rw [hactive]

/-- Along a whole course such a rule raises what it raises at the end. -/
theorem issuesAlong_hooksOf_perRun (hstage : r.stage = .configured)
    (hlogic : r.logic = .perRun judge) :
    r.issuesAlong (hooksOf artifacts) =
      (judge (inspected r.entered ++ artifacts)).issues.map (·.withRuleId r.id) := by
  rw [issuesAlong_hooksOf hstage (by rw [hlogic]; rfl), ← inspected_advanced_start]
  exact issuesAlong_perRun (r := r.advanced _) rfl hlogic

end PerRun

end Rule

end FlowLint
