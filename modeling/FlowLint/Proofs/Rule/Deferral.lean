import FlowLint.Proofs.Rule.Judgement

/-!
# Rules that wait for the end

A rule that judges all artifacts together has nothing to say of any of them before the run has
shown it the last. What it raises then, and when it fails, is what its judgement of all the
artifacts says. Nothing is said of runs in which the rule had been shown artifacts before.
-/

namespace FlowLint

open FlowLint.Flow (Artifact)

namespace Rule

variable {r : Rule} {artifacts : List Artifact}

/-- In a run over artifacts the rule passes every hook, is silent while it is shown them, and
raises the issues when it is ended. -/
structure Defers (r : Rule) (artifacts : List Artifact) (issues : List Issue) : Prop where
  passes : r.Passes (hooksOf artifacts)
  silent : r.issuesAlong (.start :: artifacts.map .inspect) = []
  atEnd : ((r.after (.start :: artifacts.map .inspect)).call .finish).issues = issues

theorem issuesAlong_append (r : Rule) (hooks more : List Hook) :
    r.issuesAlong (hooks ++ more) = r.issuesAlong hooks ++ (r.after hooks).issuesAlong more := by
  induction hooks generalizing r with
  | nil => rfl
  | cons h rest ih =>
    simp [issuesAlong, ih]

section PerRun

variable {judge : List Artifact → Response}

theorem issuesAlong_inspect_perRun (hstage : r.stage = .active)
    (hlogic : r.logic = .perRun judge) : r.issuesAlong (artifacts.map .inspect) = [] := by
  induction artifacts generalizing r with
  | nil => rfl
  | cons a rest ih =>
    have hanswer : r.logic.inspect r.entered a = {} := by rw [hlogic]; rfl
    rw [List.map_cons, issuesAlong, call_inspect hstage, hanswer]
    exact ih (r := r.advanced _) rfl hlogic

/-- A rule that judges all artifacts of a run together raises what it judges at the end. -/
theorem defers_perRun (hlogic : r.logic = .perRun judge) (hstage : r.stage = .configured)
    (hentered : r.entered = []) (hpassed : (judge artifacts).failure = none) :
    r.Defers artifacts ((judge artifacts).issues.map (·.withRuleId r.id)) := by
  have hstart : r.logic.start r.entered = none := by rw [hlogic]; rfl
  have hseen : inspected r.entered ++ artifacts = artifacts := by rw [hentered]; rfl
  have hsilent : r.issuesAlong (.start :: artifacts.map .inspect) = [] := by
    rw [issuesAlong, call_start hstage hstart]
    exact issuesAlong_inspect_perRun (r := r.advanced _) rfl hlogic
  refine ⟨?_, hsilent, ?_⟩
  · rw [passes_hooksOf_perRun hlogic, hseen]
    exact ⟨hstage, hpassed⟩
  · -- All issues of the hooks together are those of the last one.
    have hall : r.issuesAlong (hooksOf artifacts) = _ := issuesAlong_hooksOf_perRun hstage hlogic
    have hlast : ∀ s : Rule, s.issuesAlong [.finish] = (s.call .finish).issues := fun s =>
      List.append_nil _
    rw [hseen, hooksOf, issuesAlong_append, hsilent, List.nil_append, hlast] at hall
    exact hall

end PerRun

end Rule

end FlowLint
