import FlowLint.Order.Insertion
import FlowLint.Rule.Sink
import Mathlib.Data.String.Basic
import Mathlib.Data.List.Destutter
import Mathlib.Data.List.Sort

/-!
# Sorted lists are determined by their values

Insertion keeps a list strictly increasing, so two lists have the same written form
exactly when they have the same values. The order is only asked to be strict and total;
it is shown to be so for strings and for values that compare by one key and then another.
-/

namespace FlowLint.Order

section Sorted

variable {α : Type} [LT α] [DecidableLT α] [DecidableEq α]

theorem union_ofList (xs ys : List α) : union (ofList xs) ys = ofList (ys ++ xs) := by
  rw [union, ofList, ofList, List.foldr_append]

variable [IsStrictTotalOrder α (· < ·)]

theorem sorted_insert (x : α) {xs : List α} (h : xs.Pairwise (· < ·)) :
    (insert x xs).Pairwise (· < ·) := by
  induction xs with
  | nil => exact List.pairwise_singleton _ x
  | cons y rest ih =>
    obtain ⟨hy, hrest⟩ := List.pairwise_cons.mp h
    rcases trichotomous_of (· < ·) x y with hlt | rfl | hgt
    · have hx : ∀ z ∈ y :: rest, x < z := by
        intro z hz
        rcases List.mem_cons.mp hz with rfl | hz
        · exact hlt
        · exact trans_of (· < ·) hlt (hy z hz)
      rw [insert, if_pos hlt]
      exact List.pairwise_cons.mpr ⟨hx, h⟩
    · rw [insert, if_neg (irrefl x), if_pos rfl]
      exact h
    · have hy' : ∀ z ∈ insert x rest, y < z := by
        intro z hz
        rcases (mem_insert x z rest).mp hz with rfl | hz
        · exact hgt
        · exact hy z hz
      rw [insert, if_neg (asymm hgt), if_neg (ne_of_irrefl' hgt)]
      exact List.pairwise_cons.mpr ⟨hy', ih hrest⟩

/-- What is inserted one by one is in order and without repetition. -/
theorem sorted_ofList (xs : List α) : (ofList xs).Pairwise (· < ·) := by
  induction xs with
  | nil => exact List.Pairwise.nil
  | cons x rest ih => exact sorted_insert x ih

/-- The written form depends on the values alone, not on their order or number. -/
theorem ofList_eq_ofList_iff {xs ys : List α} :
    ofList xs = ofList ys ↔ ∀ z, z ∈ xs ↔ z ∈ ys := by
  constructor
  · intro h z
    rw [← mem_ofList, h, mem_ofList]
  · intro h
    refine (sorted_ofList xs).eq_of_mem_iff (sorted_ofList ys) fun z => ?_
    simp [h z]

theorem ofList_of_pairwise {xs : List α} (h : xs.Pairwise (· < ·)) : ofList xs = xs :=
  (sorted_ofList xs).eq_of_mem_iff h fun z => mem_ofList z xs

/-- Sorting a list and then dropping what repeats the value before it gives its written form. -/
theorem destutter_mergeSort (xs : List α) :
    (xs.mergeSort fun a b => !decide (b < a)).destutter (· ≠ ·) = ofList xs := by
  have hsorted : (xs.mergeSort fun a b => !decide (b < a)).Pairwise fun a b => ¬ b < a := by
    refine (List.pairwise_mergeSort (fun a b c hab hbc => ?_) (fun a b => ?_) xs).imp (by simp)
    · simp only [Bool.not_eq_true', decide_eq_false_iff_not] at hab hbc ⊢
      intro hca
      rcases trichotomous_of (· < ·) a b with hlt | rfl | hgt
      · exact hbc (trans_of (· < ·) hca hlt)
      · exact hbc hca
      · exact hab hgt
    · rw [Bool.or_eq_true, Bool.not_eq_true', Bool.not_eq_true', decide_eq_false_iff_not,
        decide_eq_false_iff_not, ← not_and_or]
      exact fun h => asymm h.1 h.2
  have hantisymm : Std.Antisymm fun a b : α => ¬ b < a :=
    ⟨fun a b hba hab => Std.Trichotomous.trichotomous (r := (· < ·)) a b hab hba⟩
  rw [hsorted.destutter_eq_dedup]
  -- Neighbours in order that differ are strictly in order.
  have hstrict : ((xs.mergeSort fun a b => !decide (b < a)).dedup).Pairwise (· < ·) := by
    have hboth := (hsorted.sublist (List.dedup_sublist _)).and (List.nodup_dedup _)
    refine hboth.imp fun {a b} h => ?_
    obtain ⟨hba, hne⟩ := h
    rcases trichotomous_of (· < ·) a b with hlt | heq | hgt
    · exact hlt
    · exact absurd heq hne
    · exact absurd hgt hba
  refine hstrict.eq_of_mem_iff (sorted_ofList xs) fun z => ?_
  simp

end Sorted

/-- Values that compare by one key and then by another are in a strict total order if their
keys are. -/
theorem isStrictTotalOrder_lex {α β γ : Type} {r : β → β → Prop} {s : γ → γ → Prop}
    [IsStrictTotalOrder β r] [IsStrictTotalOrder γ s] {t : α → α → Prop} (f : α → β) (g : α → γ)
    (t_iff : ∀ a b : α, t a b ↔ r (f a) (f b) ∨ (f a = f b ∧ s (g a) (g b)))
    (ext : ∀ a b : α, f a = f b → g a = g b → a = b) : IsStrictTotalOrder α t where
  trichotomous a b hab hba := by
    rw [t_iff] at hab hba
    push Not at hab hba
    have hf : f a = f b := Std.Trichotomous.trichotomous _ _ hab.1 hba.1
    have heq : g a = g b := Std.Trichotomous.trichotomous _ _ (hab.2 hf) (hba.2 hf.symm)
    exact ext a b hf heq
  irrefl a h := by
    rcases (t_iff a a).mp h with hf | ⟨-, hg⟩
    · exact irrefl_of r (f a) hf
    · exact irrefl_of s (g a) hg
  trans a b c hab hbc := by
    rw [t_iff] at hab hbc ⊢
    rcases hab with hab | ⟨hab, hab'⟩ <;> rcases hbc with hbc | ⟨hbc, hbc'⟩
    · exact .inl (trans_of r hab hbc)
    · exact .inl (hbc ▸ hab)
    · exact .inl (hab ▸ hbc)
    · exact .inr ⟨hab.trans hbc, trans_of s hab' hbc'⟩

/-- An order by two keys is strict and total if the keys tell elements apart. -/
theorem isStrictTotalOrder_of_keys {α β γ : Type} [LT α] [LT β] [LT γ]
    [IsStrictTotalOrder β (· < ·)] [IsStrictTotalOrder γ (· < ·)] (f : α → β) (g : α → γ)
    (lt_iff : ∀ a b : α, a < b ↔ f a < f b ∨ (f a = f b ∧ g a < g b))
    (ext : ∀ a b : α, f a = f b → g a = g b → a = b) :
    IsStrictTotalOrder α (· < ·) :=
  isStrictTotalOrder_lex f g lt_iff ext

instance : IsStrictTotalOrder Exemption (· < ·) :=
  isStrictTotalOrder_of_keys Exemption.ruleId Exemption.artifactId (fun _ _ => Iff.rfl)
    fun a b hr ha => by cases a; cases b; simp_all

end FlowLint.Order
