import FlowLint.Proofs.Rule.Emission
import Mathlib.Data.List.Basic

/-!
# Runs with exemptions

A run behind a filter differs from the plain run only in that exempt issues are held back
and counted. Whether an issue is exempt is said without the table that groups exemptions by
rule: it carries the id of a rule, and each artifact it is about is paired with that rule.
The two agree because no issue is about nothing; without artifacts, an issue would be
exempt from every rule by the pairs and from few by the table.
-/

namespace FlowLint

open FlowLint.Flow (Artifact)

variable {σ : Type} [Sink σ] {table : ExemptionTable} {exemptions : List Exemption} {i : Issue}

/-- An issue carries the id of a rule that every artifact it is about is exempted from. -/
def Exempted (exemptions : List Exemption) (i : Issue) : Prop :=
  ∃ rule, i.ruleId = some rule ∧ ∀ artifact ∈ i.tagIds, ⟨rule, artifact⟩ ∈ exemptions

instance : Decidable (Exempted exemptions i) :=
  match h : i.ruleId with
  | none => .isFalse fun ⟨_, hrule, _⟩ => by simp [h] at hrule
  | some rule => decidable_of_iff (∀ artifact ∈ i.tagIds, ⟨rule, artifact⟩ ∈ exemptions) (by
      simp [Exempted, h])

/-! ## The table -/

namespace ExemptionTable

/-- The artifacts exempted from a rule. -/
def artifacts (table : ExemptionTable) (rule : String) : List String :=
  (table.lookup rule).getD []

theorem lookup_cons (rule found : String) (listed : List String) (rest : ExemptionTable) :
    List.lookup rule ((found, listed) :: rest) =
      if rule = found then some listed else rest.lookup rule := by
  rw [List.lookup_cons]
  by_cases h : rule = found
  · rw [if_pos h, beq_iff_eq.mpr h]
  · rw [if_neg h, beq_false_of_ne h]

theorem lookup_add (x : Exemption) (table : ExemptionTable) (rule : String) :
    (table.add x).lookup rule =
      if rule = x.ruleId then some (Order.insert x.artifactId (table.artifacts rule))
      else table.lookup rule := by
  induction table with
  | nil => exact lookup_cons rule x.ruleId [x.artifactId] []
  | cons entry rest ih =>
    obtain ⟨found, listed⟩ := entry
    rw [add, artifacts, lookup_cons]
    by_cases hfound : found = x.ruleId
    · rw [if_pos hfound, lookup_cons, hfound]
      by_cases hrule : rule = x.ruleId
      · rw [if_pos hrule, if_pos hrule, if_pos hrule, Option.getD_some]
      · rw [if_neg hrule, if_neg hrule, if_neg hrule]
    · rw [if_neg hfound, lookup_cons, ih]
      by_cases hrule : rule = found
      · have hne : rule ≠ x.ruleId := fun h => hfound (hrule.symm.trans h)
        rw [if_pos hrule, if_pos hrule, if_neg hne]
      · rw [if_neg hrule, if_neg hrule]
        rfl

theorem mem_artifacts_ofExemptions (exemptions : List Exemption) (rule artifact : String) :
    artifact ∈ artifacts (ofExemptions exemptions) rule ↔ ⟨rule, artifact⟩ ∈ exemptions := by
  induction exemptions with
  | nil => simp [ofExemptions, artifacts]
  | cons x rest ih =>
    have hadd : ofExemptions (x :: rest) = (ofExemptions rest).add x := rfl
    rw [hadd, artifacts, lookup_add]
    by_cases hrule : rule = x.ruleId
    · rw [if_pos hrule, Option.getD_some, Order.mem_insert, ih, List.mem_cons]
      refine or_congr ?_ Iff.rfl
      cases x
      simp_all
    · rw [if_neg hrule]
      have hne : (⟨rule, artifact⟩ : Exemption) ≠ x := by
        rintro rfl
        exact hrule rfl
      rw [List.mem_cons, or_iff_right hne]
      exact ih

/-- A rule without exemptions is no special case, since an issue is about some artifact. -/
theorem isExempt_iff : table.isExempt i = true ↔
    ∃ rule, i.ruleId = some rule ∧ ∀ artifact ∈ i.tagIds, artifact ∈ table.artifacts rule := by
  unfold isExempt artifacts
  cases hrule : i.ruleId with
  | none => simp
  | some rule =>
    dsimp only
    cases hlisted : table.lookup rule with
    | some listed => simp [hlisted, List.all_eq_true]
    | none =>
      obtain ⟨tag, htag⟩ := List.exists_mem_of_ne_nil _ i.tags_ne_nil
      have hid : tag.id ∈ i.tagIds := List.mem_map_of_mem htag
      constructor
      · intro h
        cases h
      · rintro ⟨_, heq, hall⟩
        obtain rfl := Option.some.inj heq
        have hnone := hall tag.id hid
        rw [hlisted] at hnone
        exact absurd hnone List.not_mem_nil

end ExemptionTable

/-- The table exempts an issue exactly if the pairs it was made from do. -/
theorem isExempt_ofExemptions :
    (ExemptionTable.ofExemptions exemptions).isExempt i = decide (Exempted exemptions i) := by
  rw [Bool.eq_iff_iff, decide_eq_true_iff, ExemptionTable.isExempt_iff]
  simp only [ExemptionTable.mem_artifacts_ofExemptions, Exempted]

/-! ## The filter -/

namespace ExemptionFilter

theorem accept_exempt {f : ExemptionFilter σ} (h : f.table.isExempt i = true) :
    Sink.accept f i = { f with suppressed := f.suppressed + 1 } :=
  if_pos h

theorem accept_reported {f : ExemptionFilter σ} (h : ¬ f.table.isExempt i = true) :
    Sink.accept f i = { f with inner := Sink.accept f.inner i } :=
  if_neg h

/-- A filter passes on the issues that are not exempt, as they are and in order, and counts
the others. -/
theorem acceptAll_eq (f : ExemptionFilter σ) (issues : List Issue) :
    Sink.acceptAll f issues =
      { f with
        inner := Sink.acceptAll f.inner (issues.filter (!f.table.isExempt ·))
        suppressed := f.suppressed + (issues.filter (f.table.isExempt ·)).length } := by
  induction issues generalizing f with
  | nil => rfl
  | cons i rest ih =>
    rw [Sink.acceptAll_cons]
    by_cases h : f.table.isExempt i = true
    · rw [accept_exempt h, ih, List.filter_cons_of_neg (by simp [h]), List.filter_cons_of_pos h,
        List.length_cons, Nat.add_assoc, Nat.add_comm 1]
    · rw [accept_reported h, ih, List.filter_cons_of_pos (by simp [h]), List.filter_cons_of_neg h,
        Sink.acceptAll_cons]

end ExemptionFilter

/-! ## Runs -/

/-- How a run behind a filter relates to the plain run. -/
structure FilteredRun (exemptions : List Exemption) (bare : Outcome Collector)
    (filtered : Outcome (ExemptionFilter Collector)) : Prop where
  rules : filtered.rules = bare.rules
  trace : filtered.trace = bare.trace
  inspected : filtered.artifactsInspected = bare.artifactsInspected
  failure : filtered.failure = bare.failure
  kept : filtered.sink.inner.issues = bare.sink.issues.filter (¬ Exempted exemptions ·)
  suppressed : filtered.sink.suppressed = (bare.sink.issues.filter (Exempted exemptions ·)).length
  failed : ∀ e, filtered.summary = .error e ↔ bare.summary = .error e
  succeeded : ∀ summary, bare.summary = .ok summary → ∃ summary', filtered.summary = .ok summary' ∧
    summary'.artifactsInspected = summary.artifactsInspected ∧
    summary'.issuesFound = filtered.sink.inner.issues.length ∧
    summary'.issuesFound + filtered.sink.suppressed = summary.issuesFound

/-- A new filter in front of a sink that keeps everything. -/
theorem ExemptionFilter.acceptAll_new (exemptions : List Exemption) (issues : List Issue) :
    Sink.acceptAll ({ exemptions, inner := {} } : ExemptionFilter Collector) issues =
      { exemptions
        inner := ⟨issues.filter (¬ Exempted exemptions ·)⟩
        suppressed := (issues.filter (Exempted exemptions ·)).length } := by
  have hinner : ∀ kept, Sink.acceptAll ({} : Collector) kept = ⟨kept⟩ := by
    intro kept
    have hissues : (Sink.acceptAll ({} : Collector) kept).issues = kept :=
      Collector.issues_acceptAll {} kept
    exact congrArg Collector.mk hissues
  rw [acceptAll_eq]
  simp only [hinner, Nat.zero_add, isExempt_ofExemptions, decide_not]

/-- Exemptions take the exempt issues out of a run and change nothing else about it. -/
theorem run_exemptionFilter (rules : List Rule) (supply : List (Except Markup.Error Artifact))
    (exemptions : List Exemption) :
    FilteredRun exemptions (run rules supply ({} : Collector))
      (run rules supply ({ exemptions, inner := {} } : ExemptionFilter Collector)) := by
  rw [run_into rules supply ({ exemptions, inner := {} } : ExemptionFilter Collector)]
  generalize run rules supply ({} : Collector) = bare
  obtain ⟨rules', sink, trace, inspected, failure⟩ := bare
  rw [Outcome.into, ExemptionFilter.acceptAll_new]
  refine ⟨rfl, rfl, rfl, rfl, rfl, rfl, fun e => ?_, fun summary h => ?_⟩
  · cases failure with
    | some e' => rfl
    | none =>
      constructor
      · intro h
        cases h
      · intro h
        cases h
  · cases failure with
    | some e' => cases h
    | none =>
      cases h
      refine ⟨_, rfl, rfl, rfl, ?_⟩
      have hsplit := List.length_eq_length_filter_add (l := sink.issues)
        fun i => decide (Exempted exemptions i)
      simp only [Sink.count, decide_not]
      omega

end FlowLint
