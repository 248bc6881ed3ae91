import FlowLint.Proofs.Rule.Plan
import Mathlib.Data.List.Nodup

/-!
# The hooks of one rule in a run

Seen from the place of one rule, a run starts it, shows it each artifact that can be read, in
the order of the supply, and ends it. As long as no hook fails, each of these hooks finds a
rule that has just been configured in the stage that it needs, so that the rule refuses none.
-/

namespace FlowLint

open FlowLint.Flow (Artifact)

/-- The hooks that a run calls on a rule to show it artifacts. -/
def hooksOf (artifacts : List Artifact) : List Hook :=
  .start :: artifacts.map .inspect ++ [.finish]

/-- The items of a supply that can be read. -/
def readable (supply : List (Except Markup.Error Artifact)) : List Artifact :=
  supply.filterMap Except.toOption

/-- Artifacts with nothing in them. -/
def bareArtifacts (ids : List String) : List Artifact :=
  ids.map fun id => { tag := { id, name := id }, document := .named "definitions" }

/-! ## Places in the canonical trace -/

theorem hooksAt_callAll (h : Hook) {place count : Nat} (hplace : place < count) :
    hooksAt place (callAll h count) = [h] := by
  have hmem : place ∈ List.range count := List.mem_range.mpr hplace
  have hfilter : (List.range count).filter (· = place) = [place] := by
    rw [List.filter_eq, List.count_eq_one_of_mem List.nodup_range hmem, List.replicate_one]
  rw [hooksAt, callAll, List.filter_map, List.map_map]
  exact congrArg (List.map _) hfilter

theorem hooksAt_inspections {place count : Nat} (hplace : place < count)
    (supply : List (Except Markup.Error Artifact)) :
    hooksAt place (supply.flatMap (inspections count)) = (readable supply).map .inspect := by
  induction supply with
  | nil => rfl
  | cons item rest ih =>
    rw [List.flatMap_cons, hooksAt_append, ih]
    cases item with
    | error e => rfl
    | ok a =>
      have hitem : inspections count (.ok a) = callAll (.inspect a) count := rfl
      rw [hitem, hooksAt_callAll _ hplace]
      rfl

/-- Every rule is started once, given each readable artifact and finished once. -/
theorem hooksAt_canonicalTrace {place count : Nat} (hplace : place < count)
    (supply : List (Except Markup.Error Artifact)) :
    hooksAt place (canonicalTrace count supply) = hooksOf (readable supply) := by
  rw [canonicalTrace, hooksAt_append, hooksAt_append, hooksAt_callAll _ hplace,
    hooksAt_inspections hplace, hooksAt_callAll _ hplace]
  rfl

/-! ## Stages -/

/-- The stage after hooks of which none fails. -/
def stageThrough (stage : Stage) (hooks : List Hook) : Stage :=
  hooks.foldl (fun _ h => Rule.stageAfter h.name) stage

@[simp] theorem stageThrough_map_inspect (artifacts : List Artifact) :
    stageThrough .active (artifacts.map .inspect) = .active := by
  induction artifacts with
  | nil => rfl
  | cons a rest ih => exact ih

@[simp] theorem stageThrough_hooksOf (stage : Stage) (artifacts : List Artifact) :
    stageThrough stage (hooksOf artifacts) = .finalized :=
  List.foldl_append

/-- A hook of a run is called in the stage that the hooks before it lead to. -/
theorem stageFor_of_planned {artifacts : List Artifact} {before : List Hook} {h : Hook}
    (hplan : before ++ [h] <+: hooksOf artifacts) :
    stageThrough .configured before = Rule.stageFor h.name := by
  cases before with
  | nil =>
    obtain ⟨rest, hrest⟩ := hplan
    obtain ⟨rfl, -⟩ := List.cons.inj hrest
    rfl
  | cons first before =>
    obtain ⟨hfirst, hrest⟩ := List.cons_prefix_cons.mp hplan
    subst hfirst
    rcases List.prefix_concat_iff.mp hrest with hall | hinspect
    · obtain ⟨hbefore, hlast⟩ := List.append_inj' hall rfl
      obtain ⟨rfl, -⟩ := List.cons.inj hlast
      rw [hbefore]
      exact stageThrough_map_inspect artifacts
    · obtain ⟨more, hmore⟩ := hinspect
      have hsplit : artifacts.map .inspect = before ++ h :: more :=
        hmore.symm.trans (List.append_assoc before [h] more)
      obtain ⟨shown, last, -, rfl, hlast⟩ := List.map_eq_append_iff.mp hsplit
      obtain ⟨a, -, -, rfl, -⟩ := List.map_eq_cons_iff.mp hlast
      exact stageThrough_map_inspect shown

namespace Rule

/-- The rule with hooks behind it of which none has failed. -/
def advanced (r : Rule) (hooks : List Hook) : Rule :=
  { r with entered := r.entered ++ hooks, stage := stageThrough r.stage hooks }

/-- A hook that a rule does not refuse is answered by its logic. -/
theorem call_of_stage {r : Rule} {h : Hook} (hstage : r.stage = stageFor h.name) :
    r.call h = ⟨(r.call h).rule, (r.respond h).issues.map (·.withRuleId r.id),
      (r.respond h).failure⟩ := by
  rw [call, if_pos hstage]

/-- A call in the wrong stage changes nothing and says so. -/
theorem call_of_refused {r : Rule} {h : Hook} (hstage : r.stage ≠ stageFor h.name) :
    r.call h = ⟨r, [], some (.lifecycle r.display h.name r.stage)⟩ :=
  if_neg hstage

/-- A hook that fits the stage, and to which the logic has an answer, leads on. -/
theorem call_of_answer {r : Rule} {h : Hook} (hstage : r.stage = stageFor h.name)
    (hanswer : (r.respond h).failure = none) :
    r.call h = ⟨r.advanced [h], (r.respond h).issues.map (·.withRuleId r.id), none⟩ := by
  simp only [call, if_pos hstage, hanswer]
  rfl

theorem entered_call {r : Rule} {h : Hook} (hstage : r.stage = stageFor h.name) :
    (r.call h).rule.entered = r.entered ++ [h] := by
  rw [call, if_pos hstage]
  dsimp only
  cases (r.respond h).failure <;> rfl

theorem stage_of_passed {r : Rule} {h : Hook} (hpassed : (r.call h).failure = none) :
    r.stage = stageFor h.name := by
  by_contra hstage
  rw [call_of_refused hstage] at hpassed
  cases hpassed

theorem call_of_passed {r : Rule} {h : Hook} (hpassed : (r.call h).failure = none) :
    (r.call h).rule = r.advanced [h] := by
  have hstage := stage_of_passed hpassed
  rw [call_of_stage hstage] at hpassed
  rw [call, if_pos hstage]
  dsimp only at hpassed ⊢
  rw [hpassed]
  rfl

/-- A rule that has passed its hooks has advanced through them. -/
theorem after_of_passes {r : Rule} {hooks : List Hook} (h : r.Passes hooks) :
    r.after hooks = r.advanced hooks := by
  induction hooks generalizing r with
  | nil =>
    rw [advanced, List.append_nil]
    rfl
  | cons first rest ih =>
    obtain ⟨hfirst, hrest⟩ := h
    rw [after_cons, ih hrest, call_of_passed hfirst]
    simp only [advanced, List.append_assoc, List.singleton_append]
    rfl

/-- The rule has no use for its stage in its answers. -/
theorem respond_advanced (r : Rule) (hooks : List Hook) (h : Hook) :
    (r.advanced hooks).respond h = { r with entered := r.entered ++ hooks }.respond h := by
  cases h <;> rfl

/-- The next hook of a run finds the rule in the stage that it needs. -/
theorem stage_after {r : Rule} (hstage : r.stage = .configured) {artifacts : List Artifact}
    {before : List Hook} {h : Hook} (hpassed : r.Passes before)
    (hplan : before ++ [h] <+: hooksOf artifacts) :
    (r.after before).stage = stageFor h.name := by
  rw [after_of_passes hpassed, ← stageFor_of_planned hplan, ← hstage]
  rfl

end Rule

end FlowLint
