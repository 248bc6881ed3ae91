import FlowLint.Proofs.Rule.Judgement
import FlowLint.Proofs.Rule.Suppression

/-!
# The order of a supply

A rule may be one for which the order of artifacts makes no difference. A run of such rules
succeeds in every order of its supply or in none, and reports the same up to order. Of runs
that fail nothing is said, since the order decides what fails first.
-/

namespace FlowLint

open FlowLint.Flow (Artifact)

namespace Rule

variable {r : Rule}

/-- The order of artifacts makes no difference to what the rule does in a run. -/
structure OrderFree (r : Rule) : Prop where
  passes : ∀ xs ys : List Artifact, xs.Perm ys → r.Passes (hooksOf xs) → r.Passes (hooksOf ys)
  issues : ∀ xs ys : List Artifact, xs.Perm ys → r.Passes (hooksOf xs) →
    (r.issuesAlong (hooksOf xs)).Perm (r.issuesAlong (hooksOf ys))

theorem orderFree_perArtifact {judge : Artifact → Response}
    (hlogic : r.logic = .perArtifact judge) : r.OrderFree where
  passes xs ys h hxs := by
    rw [passes_hooksOf_perArtifact hlogic] at hxs ⊢
    have hothers : ∀ a ∈ ys, (judge a).failure = none := fun a ha => hxs.2 a (h.mem_iff.mpr ha)
    exact ⟨hxs.1, hothers⟩
  issues xs ys h hxs := by
    have hstage := ((passes_hooksOf_perArtifact hlogic).mp hxs).1
    rw [issuesAlong_hooksOf_perArtifact hstage hlogic,
      issuesAlong_hooksOf_perArtifact hstage hlogic]
    exact h.flatMap_right _

/-- The order makes no difference to a rule whose judgement of all artifacts does not depend on
it. -/
theorem orderFree_perRun {judge : List Artifact → Response} (hlogic : r.logic = .perRun judge)
    (hfailure : ∀ xs ys : List Artifact, xs.Perm ys → (judge xs).failure = (judge ys).failure)
    (hissues : ∀ xs ys : List Artifact, xs.Perm ys → (judge xs).issues.Perm (judge ys).issues) :
    r.OrderFree where
  passes xs ys h hxs := by
    rw [passes_hooksOf_perRun hlogic] at hxs ⊢
    have hfailure' : (judge (inspected r.entered ++ ys)).failure = none :=
      (hfailure _ _ (h.append_left _)).symm.trans hxs.2
    exact ⟨hxs.1, hfailure'⟩
  issues xs ys h hxs := by
    have hstage := ((passes_hooksOf_perRun hlogic).mp hxs).1
    rw [issuesAlong_hooksOf_perRun hstage hlogic, issuesAlong_hooksOf_perRun hstage hlogic]
    have hperm : (judge (inspected r.entered ++ xs)).issues.Perm
        (judge (inspected r.entered ++ ys)).issues :=
      hissues _ _ (h.append_left _)
    exact hperm.map _

end Rule

/-! ## Runs -/

variable {rules : List Rule} {supply supply' : List (Except Markup.Error Artifact)}

/-- Rules that raise the same up to order one by one do so together. -/
theorem flatten_issuesAlong_perm {xs ys : List Artifact}
    (h : ∀ r ∈ rules, (r.issuesAlong (hooksOf xs)).Perm (r.issuesAlong (hooksOf ys))) :
    (rules.map (·.issuesAlong (hooksOf xs))).flatten.Perm
      (rules.map (·.issuesAlong (hooksOf ys))).flatten := by
  induction rules with
  | nil => exact .nil
  | cons r rest ih =>
    obtain ⟨hr, hrest⟩ := List.forall_mem_cons.mp h
    exact hr.append (ih hrest)

/-- Success does not depend on the order of the supply. -/
theorem succeeds_of_perm {σ : Type} [Sink σ] {sink : σ} (hrules : ∀ r ∈ rules, r.OrderFree)
    (h : supply.Perm supply') (hs : (run rules supply sink).Succeeds) :
    (run rules supply' sink).Succeeds := by
  rw [run_succeeds_iff] at hs ⊢
  have hreadable : ∀ item ∈ supply', ∃ a, item = .ok a :=
    fun item hitem => hs.1 item (h.mem_iff.mpr hitem)
  refine ⟨hreadable, fun r hr => ?_⟩
  exact (hrules r hr).passes _ _ (h.filterMap _) (hs.2 r hr)

/-- Neither do the issues, as a collection. -/
theorem issues_perm_of_perm (hrules : ∀ r ∈ rules, r.OrderFree) (h : supply.Perm supply')
    (hs : (run rules supply ({} : Collector)).Succeeds) :
    (run rules supply ({} : Collector)).sink.issues.Perm
      (run rules supply' ({} : Collector)).sink.issues := by
  have hs' := succeeds_of_perm hrules h hs
  have hpasses := (run_succeeds_iff.mp hs).2
  refine (interleaving_issues_run hs).perm.trans (.trans ?_ (interleaving_issues_run hs').perm.symm)
  exact flatten_issuesAlong_perm fun r hr =>
    (hrules r hr).issues _ _ (h.filterMap _) (hpasses r hr)

/-! ## Reports -/

/-- Two runs come to their end or neither does, and then they say the same, up to the order of
the issues that they report. -/
structure SameReport {σ : Type} [Sink σ] (reported : σ → List Issue) (o o' : Outcome σ) :
    Prop where
  succeeds : o.Succeeds ↔ o'.Succeeds
  summary : o.Succeeds → o.summary = o'.summary
  issues : o.Succeeds → (reported o.sink).Perm (reported o'.sink)

theorem summary_of_succeeds {σ : Type} [Sink σ] {o : Outcome σ} (h : o.Succeeds) :
    o.summary = .ok ⟨o.artifactsInspected, Sink.count o.sink⟩ := by
  rw [Outcome.summary, Outcome.succeeds_iff.mp h]

@[simp] theorem succeeds_into {σ : Type} [Sink σ] (o : Outcome Collector) (sink : σ) :
    (o.into sink).Succeeds ↔ o.Succeeds := by
  rw [Outcome.succeeds_iff, Outcome.succeeds_iff]
  rfl

theorem sameReport_of_orderFree (hrules : ∀ r ∈ rules, r.OrderFree) (h : supply.Perm supply') :
    SameReport Collector.issues (run rules supply ({} : Collector))
      (run rules supply' ({} : Collector)) where
  succeeds := ⟨succeeds_of_perm hrules h, succeeds_of_perm hrules h.symm⟩
  summary hs := by
    have hs' := succeeds_of_perm hrules h hs
    have hcount : Sink.count (run rules supply ({} : Collector)).sink =
        Sink.count (run rules supply' ({} : Collector)).sink :=
      (issues_perm_of_perm hrules h hs).length_eq
    rw [summary_of_succeeds hs, summary_of_succeeds hs', hcount,
      artifactsInspected_run (Outcome.succeeds_iff.mp hs),
      artifactsInspected_run (Outcome.succeeds_iff.mp hs'), h.length_eq]
  issues := issues_perm_of_perm hrules h

/-- What is reported behind a filter is the same if all is the same that is found. -/
theorem SameReport.filtered {o o' : Outcome Collector} (h : SameReport Collector.issues o o')
    (exemptions : List Exemption) :
    let filter : ExemptionFilter Collector := { exemptions, inner := {} }
    SameReport (·.inner.issues) (o.into filter) (o'.into filter) := by
  intro filter
  have hissues : o.Succeeds →
      (o.into filter).sink.inner.issues.Perm (o'.into filter).sink.inner.issues := fun hs => by
    simp only [Outcome.into, filter, ExemptionFilter.acceptAll_new]
    exact (h.issues hs).filter _
  refine ⟨?_, fun hs => ?_, fun hs => hissues ((succeeds_into o filter).mp hs)⟩
  · rw [succeeds_into, succeeds_into]
    exact h.succeeds
  · have ho := (succeeds_into o filter).mp hs
    have ho' := h.succeeds.mp ho
    have hsummary := h.summary ho
    rw [summary_of_succeeds ho, summary_of_succeeds ho'] at hsummary
    have hinspected : (o.into filter).artifactsInspected = (o'.into filter).artifactsInspected :=
      congrArg Summary.artifactsInspected (Except.ok.inj hsummary)
    have hcount : Sink.count (o.into filter).sink = Sink.count (o'.into filter).sink :=
      (hissues ho).length_eq
    have hsucceeds : (o'.into filter).Succeeds := (succeeds_into o' filter).mpr ho'
    rw [summary_of_succeeds hs, summary_of_succeeds hsucceeds, hinspected, hcount]

end FlowLint
