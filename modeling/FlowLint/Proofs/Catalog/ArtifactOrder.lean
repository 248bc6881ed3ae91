import FlowLint.Catalog.BuiltIn
import FlowLint.Proofs.Catalog.Grouping
import FlowLint.Proofs.Query.Selection
import FlowLint.Proofs.Rule.SupplyOrder

/-!
# Built-in rules and the order of artifacts

Artifacts may be supplied in any order: the built-in rules find the same. Those that judge
each artifact by itself do so by what they are. Of the two that judge all artifacts together,
one sorts what it has seen, and the other asks of each call only whether any artifact serves
its address, so that a call may come before its server. The order of the issues is not the
same, nor is the failure of a run that fails.
-/

namespace FlowLint.Catalog

open FlowLint.Flow (Artifact)
open FlowLint.Markup (Element)
open FlowLint.Query (channelElement)

/-- The calls that nobody serves do not depend on the order of artifacts, up to their own
order. -/
theorem finishDirectCalls_perm {xs ys : List Artifact} (h : xs.Perm ys) :
    (finishDirectCalls xs).issues.Perm (finishDirectCalls ys).issues := by
  have hserved : ∀ address, (xs.flatMap servedAddresses).contains address =
      (ys.flatMap servedAddresses).contains address := fun address => by
    rw [Bool.eq_iff_iff, List.contains_iff_mem, List.contains_iff_mem]
    exact (h.flatMap_right servedAddresses).mem_iff
  simp only [finishDirectCalls, hserved]
  exact ((h.flatMap_right directCalls).filter _).map _

/-- Every built-in rule is free of the order: it judges artifact by artifact, or at the end whatever
the order of the artifacts. -/
theorem BuiltIn.orderFree (b : BuiltIn) {r : Rule} (hlogic : r.logic = b.logic) :
    r.OrderFree := by
  cases b with
  | list rule => exact Rule.orderFree_perArtifact hlogic
  | description => exact Rule.orderFree_perArtifact hlogic
  | naming convention => exact Rule.orderFree_perArtifact hlogic
  | endpoints => exact Rule.orderFree_perArtifact hlogic
  | passwords => exact Rule.orderFree_perArtifact hlogic
  | protection => exact Rule.orderFree_perArtifact hlogic
  | duplicates categories =>
    have hsame : ∀ xs ys : List Artifact, xs.Perm ys →
        finishDuplicates categories xs = finishDuplicates categories ys :=
      fun xs ys h => finishDuplicates_of_perm categories h
    refine Rule.orderFree_perRun hlogic (fun xs ys h => ?_) fun xs ys h => ?_
    · rw [hsame xs ys h]
    · rw [hsame xs ys h]
  | directCalls =>
    exact Rule.orderFree_perRun hlogic (fun _ _ _ => rfl) fun xs ys h => finishDirectCalls_perm h

/-! ## Runs -/

variable {rules : List Rule} {supply supply' : List (Except Markup.Error Artifact)}

/-- Built-in rules find the same in whatever order artifacts are supplied, and the same is
reported of it behind exemptions. -/
theorem run_reordered (hrules : ∀ r ∈ rules, ∃ b : BuiltIn, r.logic = b.logic)
    (h : supply.Perm supply') :
    SameReport Collector.issues (run rules supply ({} : Collector))
        (run rules supply' ({} : Collector)) ∧
      ∀ exemptions, SameReport (·.inner.issues)
        (run rules supply ({ exemptions, inner := {} } : ExemptionFilter Collector))
        (run rules supply' ({ exemptions, inner := {} } : ExemptionFilter Collector)) := by
  have hfree : ∀ r ∈ rules, r.OrderFree := fun r hr => by
    obtain ⟨b, hb⟩ := hrules r hr
    exact b.orderFree hb
  have hplain := sameReport_of_orderFree hfree h
  refine ⟨hplain, fun exemptions => ?_⟩
  rw [run_into, run_into rules supply']
  exact hplain.filtered exemptions

/-- A flow that calls another and one that is called. -/
def callerAndServer : List Artifact :=
  let flow id direction : Artifact :=
    { tag := { id, name := id }
      document := { Element.named "definitions" with
        children := [channelElement id [("direction", direction),
          ("ComponentType", "ProcessDirect"), ("address", "/orders")]] } }
  [flow "Caller" "Receiver", flow "Server" "Sender"]

theorem run_callerAndServer :
    let rules := [BuiltIn.directCalls.toRule, (BuiltIn.duplicates usualCategories).toRule]
    let supply : List (Except Markup.Error Artifact) := callerAndServer.map .ok
    (∀ r ∈ rules, ∃ b : BuiltIn, r.logic = b.logic) ∧ supply.Perm supply.reverse ∧
      (run rules supply ({} : Collector)).Succeeds ∧
      SameReport Collector.issues (run rules supply ({} : Collector))
        (run rules supply.reverse ({} : Collector)) := by
  intro rules supply
  have hrules : ∀ r ∈ rules, ∃ b : BuiltIn, r.logic = b.logic := by
    intro r hr
    rcases List.mem_pair.mp hr with rfl | rfl
    · exact ⟨.directCalls, rfl⟩
    · exact ⟨.duplicates usualCategories, rfl⟩
  have hperm : supply.Perm supply.reverse := supply.reverse_perm.symm
  have hsameReport : SameReport Collector.issues (run rules supply { })
      (run rules supply.reverse { }) :=
    (run_reordered hrules hperm).1
  exact ⟨hrules, hperm, Outcome.succeeds_iff.mpr rfl, hsameReport⟩

end FlowLint.Catalog
