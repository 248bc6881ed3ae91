import FlowLint.Proofs.Issue.ReadBack
import FlowLint.Proofs.Rule.Suppression
import Mathlib.Logic.Relation

/-!
# Issues about the same artifacts are equal

However an issue is made, its tags are sorted and each there once, and there is one at least. So
an issue is determined by its kind, its message and the set of its tags, in whatever order and
however often these are given. What is done with an issue later, its stamping and its way through
a written form, does not take the id of a rule from it or put another in its place. That every
tag of an issue is exempt is never said of no tag at all.
-/

namespace FlowLint

open FlowLint.Flow (Tag)
open FlowLint.Json (Arrangement optional? textMember optionalMember lookup)
open Relation (ReflTransGen)

/-- Tags sorted, without those that repeat the one before. -/
def sortedOnce (tags : List Tag) : List Tag :=
  (tags.mergeSort fun a b => !decide (b < a)).destutter (· ≠ ·)

theorem sortTags_eq_sortedOnce (tags : List Tag) : sortTags tags = sortedOnce tags :=
  (Order.destutter_mergeSort tags).symm

namespace Issue

variable {i j : Issue} {detail : Detail} {message rule : String} {tags xs ys : List Tag}

/-- The ways to come by an issue. -/
inductive Made : Issue → Prop
  | alone (detail : Detail) (tag : Tag) (message : String) : Made (single detail tag message)
  | across {detail : Detail} {tags : List Tag} {message : String} {i : Issue}
      (spans : spanning? detail tags message = some i) : Made i
  | stamped {i : Issue} (made : Made i) (id : Option String) : Made (i.withRuleId id)
  | read {v : Json} {i : Issue} (read : ofJson? v = some i) : Made i

/-- What becomes of an issue: it is stamped, or written, in any arrangement, and read back. -/
inductive Becomes : Issue → Issue → Prop
  | stamped (i : Issue) (id : Option String) : Becomes i (i.withRuleId id)
  | reread {i j : Issue} {f : Json → Json} (arranged : Arrangement f)
      (read : ofJson? (f i.toJson) = some j) : Becomes i j

/-- What holds of an issue however it was made. -/
structure Canonical (i : Issue) : Prop where
  nonempty : i.tags ≠ []
  increasing : i.tags.Pairwise (· < ·)
  same : ∀ tags, (∀ t, t ∈ tags ↔ t ∈ i.tags) →
    spanning? i.detail tags i.message = some { i with ruleId := none }
  kept : ∀ j, ReflTransGen Becomes i j → ∀ rule, i.ruleId = some rule → j.ruleId = some rule
  tested : ∀ exemptions, isExempt exemptions i = true → ∃ rule, i.ruleId = some rule ∧
    ∃ t ∈ i.tags, (⟨rule, t.id⟩ : Exemption) ∈ exemptions

/-! ## Tags -/

/-- An issue over several artifacts has their tags in order. -/
theorem tags_of_spanning? (h : spanning? detail tags message = some i) :
    i.tags = sortTags tags := by
  cases tags with
  | nil => cases h
  | cons t rest =>
    cases h
    rfl

theorem increasing_of_spanning? (h : spanning? detail tags message = some i) :
    i.tags.Pairwise (· < ·) := by
  rw [tags_of_spanning? h]
  exact Order.sorted_ofList tags

theorem Made.increasing (h : Made i) : i.tags.Pairwise (· < ·) := by
  induction h with
  | alone detail tag message => exact List.pairwise_singleton _ tag
  | across spans => exact increasing_of_spanning? spans
  | stamped _ id ih => exact ih
  | read read => exact (proper_of_ofJson? read).tags

/-- An issue has to be about some artifact. -/
theorem spanning?_eq_none : spanning? detail tags message = none ↔ tags = [] := by
  cases tags with
  | nil => exact iff_of_true rfl rfl
  | cons t rest => exact iff_of_false nofun nofun

/-- Issues of one kind with one message are equal exactly if they span the same tags. -/
theorem spanning?_eq_iff : spanning? detail xs message = spanning? detail ys message ↔
    ∀ t, t ∈ xs ↔ t ∈ ys := by
  constructor
  · intro h
    cases hxs : spanning? detail xs message with
    | none =>
      rw [spanning?_eq_none.mp hxs, spanning?_eq_none.mp (h.symm.trans hxs)]
      exact fun t => Iff.rfl
    | some i =>
      have hsort : sortTags xs = sortTags ys :=
        (tags_of_spanning? hxs).symm.trans (tags_of_spanning? (h.symm.trans hxs))
      exact Order.ofList_eq_ofList_iff.mp hsort
  · intro h
    cases xs with
    | nil =>
      obtain rfl : ys = [] := List.eq_nil_iff_forall_not_mem.mpr fun t ht => nomatch (h t).mpr ht
      rfl
    | cons x xs =>
      cases ys with
      | nil => exact absurd ((h x).mp List.mem_cons_self) List.not_mem_nil
      | cons y ys =>
        have hsort : sortTags (x :: xs) = sortTags (y :: ys) :=
          Order.ofList_eq_ofList_iff.mpr h
        simp only [spanning?, hsort]

/-! ## The id of a rule -/

theorem Becomes.ruleId_kept (h : Becomes i j) (hrule : i.ruleId = some rule) :
    j.ruleId = some rule := by
  cases h with
  | stamped id => rw [withRuleId, hrule, Option.some_or]
  | reread hf read => rw [ruleId_of_ofJson? hf read, hrule]

/-- Nothing that happens to an issue later takes its rule away. -/
theorem ruleId_kept_of_becomes (h : ReflTransGen Becomes i j) (hrule : i.ruleId = some rule) :
    j.ruleId = some rule := by
  induction h with
  | refl => exact hrule
  | tail _ hstep ih => exact hstep.ruleId_kept ih

/-! ## Exemptions -/

/-- An issue is exempt because some artifact is. -/
theorem exists_tag_of_isExempt {exemptions : List Exemption}
    (h : isExempt exemptions i = true) : ∃ rule, i.ruleId = some rule ∧
      ∃ t ∈ i.tags, (⟨rule, t.id⟩ : Exemption) ∈ exemptions := by
  rw [isExempt, isExempt_ofExemptions, decide_eq_true_iff] at h
  obtain ⟨rule, hrule, hall⟩ := h
  obtain ⟨t, ht⟩ := List.exists_mem_of_ne_nil _ i.tags_ne_nil
  have hmem : ⟨rule, t.id⟩ ∈ exemptions := hall t.id (List.mem_map_of_mem ht)
  exact ⟨rule, hrule, t, ht, hmem⟩

/-! ## Issues -/

/-- **Issues are canonical**: an issue, however it is made, has tags, in strict order; it is what
any collection with these tags spans, but for the id of a rule, which nothing changes once it is
there; and it is exempt only if some artifact is. What a collection of tags spans depends on
their set alone and is missing only if that is empty. -/
theorem made_canonical :
    (∀ i, Made i → Canonical i) ∧
      ∀ (detail : Detail) (message : String) (xs : List Tag),
        (spanning? detail xs message = none ↔ xs = []) ∧
        (∀ i, spanning? detail xs message = some i → i.tags = sortedOnce xs) ∧
        ∀ ys, spanning? detail xs message = spanning? detail ys message ↔
          ∀ t, t ∈ xs ↔ t ∈ ys := by
  refine ⟨fun i h => ?_, fun detail message xs => ?_⟩
  · have hincreasing := h.increasing
    have hexempt : ∀ exemptions, isExempt exemptions i = true →
        ∃ rule, i.ruleId = some rule ∧ ∃ t ∈ i.tags, ⟨rule, t.id⟩ ∈ exemptions :=
      fun exemptions => exists_tag_of_isExempt
    refine ⟨i.tags_ne_nil, hincreasing, fun tags hsame => ?_, fun j hj rule hrule => ?_, hexempt⟩
    · rw [← spanning?_tags hincreasing]
      exact spanning?_eq_iff.mpr hsame
    · exact ruleId_kept_of_becomes hj hrule
  · refine ⟨spanning?_eq_none, fun i h => ?_, fun ys => spanning?_eq_iff⟩
    rw [tags_of_spanning? h, sortTags_eq_sortedOnce]

/-- Of two tags that differ in their package alone, the one without comes first. -/
example :
    let delivered : Tag := ⟨"a", "A", some ⟨"p", "P"⟩⟩
    (spanning? .missingDescription [⟨"b", "B", none⟩, delivered, ⟨"a", "A", none⟩, delivered]
      "no description").map (·.tags) = some [⟨"a", "A", none⟩, delivered, ⟨"b", "B", none⟩] := by
  decide

end Issue

end FlowLint
