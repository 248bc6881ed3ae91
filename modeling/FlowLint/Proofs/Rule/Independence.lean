import FlowLint.Proofs.Rule.Lifecycle

/-!
# Rules do not see each other

Rules of one run take turns, artifact by artifact, and give their issues to one sink. Yet each
of them does what it would do in a run of its own over the same artifacts: the run comes to
its end exactly if all of these do, and its issues are theirs, interleaved. The rules need not
have just been configured; one that refuses to start does so in both runs.
-/

namespace FlowLint

open FlowLint.Flow (Artifact)
open FlowLint.Order

variable {σ : Type} [Sink σ] {rules : List Rule}
  {supply : List (Except Markup.Error Artifact)} {sink : σ}

/-! ## A run seen from its rules -/

/-- The canonical trace goes through exactly if each rule gets through its own hooks. -/
theorem eachPasses_canonicalTrace_iff :
    EachPasses rules (canonicalTrace rules.length supply) ↔
      ∀ r ∈ rules, r.Passes (hooksOf (readable supply)) := by
  constructor
  · intro h r hr
    obtain ⟨place, hplace⟩ := List.mem_iff_getElem?.mp hr
    have hpasses := h place r hplace
    rwa [hooksAt_canonicalTrace (List.getElem?_eq_some_iff.mp hplace).1] at hpasses
  · intro h place r hplace
    rw [hooksAt_canonicalTrace (List.getElem?_eq_some_iff.mp hplace).1]
    exact h r (List.mem_of_getElem? hplace)

/-- A run succeeds exactly if all can be read and every rule passes all hooks. -/
theorem run_succeeds_iff :
    (run rules supply sink).Succeeds ↔ (∀ item ∈ supply, ∃ a, item = .ok a) ∧
      ∀ r ∈ rules, r.Passes (hooksOf (readable supply)) := by
  simp [(run_outcome rules supply sink).2.1, carryOut_passed_iff, eachPasses_canonicalTrace_iff]

theorem trace_of_succeeds (h : (run rules supply sink).Succeeds) :
    (run rules supply sink).trace = canonicalTrace rules.length supply := by
  obtain ⟨htrace, hfailure, -⟩ := run_outcome rules supply sink
  rw [Outcome.succeeds_iff, hfailure] at h
  rw [htrace, carryOut_eq_of_passed h, calls_plan]

/-- The issues of a run are those of the steps it took, one after the other. -/
theorem issues_run (rules : List Rule) (supply : List (Except Markup.Error Artifact)) :
    (run rules supply ({} : Collector)).sink.issues =
      (attributed rules (run rules supply ({} : Collector)).trace).map Prod.snd :=
  (run_carries rules supply).issues

/-- What a rule raises in a run that succeeds is raised by its own hooks. -/
theorem labelled_attributed_run (h : (run rules supply sink).Succeeds) {place : Nat} {r : Rule}
    (hr : rules[place]? = some r) :
    labelled place (attributed rules (run rules supply sink).trace) =
      r.issuesAlong (hooksOf (readable supply)) := by
  rw [trace_of_succeeds h, labelled_attributed _ _ hr,
    hooksAt_canonicalTrace (List.getElem?_eq_some_iff.mp hr).1]

/-- The issues of a run that succeeds are those of its rules, interleaved. -/
theorem interleaving_issues_run (h : (run rules supply ({} : Collector)).Succeeds) :
    Interleaving (rules.map (·.issuesAlong (hooksOf (readable supply))))
      (run rules supply ({} : Collector)).sink.issues := by
  have hlists : (List.range rules.length).map
      (labelled · (attributed rules (run rules supply ({} : Collector)).trace)) =
        rules.map (·.issuesAlong (hooksOf (readable supply))) := by
    apply List.ext_getElem (by simp)
    intro place hplace hrules
    rw [List.length_map] at hrules
    rw [List.getElem_map, List.getElem_map, List.getElem_range]
    exact labelled_attributed_run h (List.getElem?_eq_getElem hrules)
  rw [issues_run, ← hlists]
  exact interleaving_labelled _ _ fun _ hx => lt_length_of_mem_attributed hx

/-- The issues of a rule that is run on its own. -/
theorem issues_run_alone {r : Rule} (h : (run [r] supply ({} : Collector)).Succeeds) :
    (run [r] supply ({} : Collector)).sink.issues = r.issuesAlong (hooksOf (readable supply)) := by
  rw [← labelled_attributed_run h (List.getElem?_cons_zero), issues_run]
  refine (labelled_eq_map_snd fun x hx => ?_).symm
  have hlt : x.1 < [r].length := lt_length_of_mem_attributed hx
  exact Nat.lt_one_iff.mp hlt

/-! ## Runs of their own -/

/-- Rules run together do what each of them does in a run of its own. -/
theorem run_independent (rules : List Rule) (artifacts : List Artifact) :
    let joint := run rules (artifacts.map .ok) ({} : Collector)
    let alone (r : Rule) := run [r] (artifacts.map .ok) ({} : Collector)
    (joint.Succeeds ↔ ∀ r ∈ rules, (alone r).Succeeds) ∧
      (joint.Succeeds →
        joint.sink.issues = (attributed rules joint.trace).map Prod.snd ∧
          (∀ (place : Nat) (r : Rule), rules[place]? = some r →
            labelled place (attributed rules joint.trace) = (alone r).sink.issues) ∧
          Interleaving (rules.map fun r => (alone r).sink.issues) joint.sink.issues) := by
  intro joint alone
  have hreadable : ∀ item ∈ (artifacts.map .ok : List (Except Markup.Error Artifact)),
      ∃ a, item = .ok a := by
    simp
  have hsucceeds : joint.Succeeds ↔ ∀ r ∈ rules, (alone r).Succeeds := by
    have hjoint : joint.Succeeds ↔ ∀ r ∈ rules, r.Passes (hooksOf (readable _)) :=
      run_succeeds_iff.trans (and_iff_right hreadable)
    have halone : ∀ r, (alone r).Succeeds ↔ r.Passes (hooksOf (readable _)) := fun r =>
      run_succeeds_iff.trans ((and_iff_right hreadable).trans List.forall_mem_singleton)
    rw [hjoint]
    exact forall₂_congr fun r _ => (halone r).symm
  refine ⟨hsucceeds, fun h => ⟨issues_run rules _, fun place r hr => ?_, ?_⟩⟩
  · have hr' := hsucceeds.mp h r (List.mem_of_getElem? hr)
    rw [issues_run_alone hr']
    exact labelled_attributed_run h hr
  · have halone : rules.map (fun r => (alone r).sink.issues) =
        rules.map (·.issuesAlong (hooksOf (readable (artifacts.map .ok)))) :=
      List.map_congr_left fun r hr => issues_run_alone (hsucceeds.mp h r hr)
    rw [halone]
    exact interleaving_issues_run h

/-- A rule that names each artifact when it sees it, and one that names them all at the end. -/
def earlyAndLate : List Rule :=
  let say (text : String) (a : Artifact) : Issue := .single .missingDescription a.tag text
  [{ kind := "early", logic := .perArtifact fun a => { issues := [say "seen" a] } },
    { kind := "late", id := some "late"
      logic := .perRun fun artifacts => { issues := artifacts.map (say "kept") } }]

theorem run_earlyAndLate :
    let artifacts := bareArtifacts ["A", "B"]
    let joint := run earlyAndLate (artifacts.map .ok) ({} : Collector)
    joint.Succeeds ∧ joint.sink.issues.map (·.message) = ["seen", "seen", "kept", "kept"] ∧
      ∀ place r, earlyAndLate[place]? = some r →
        labelled place (attributed earlyAndLate joint.trace) =
          (run [r] (artifacts.map .ok) ({} : Collector)).sink.issues := by
  intro artifacts joint
  have hsucceeds : joint.Succeeds := Outcome.succeeds_iff.mpr rfl
  exact ⟨hsucceeds, rfl, ((run_independent earlyAndLate artifacts).2 hsucceeds).2.1⟩

end FlowLint
