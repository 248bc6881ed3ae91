import FlowLint.Catalog.Duplicates
import FlowLint.Proofs.Order.Canonical

/-!
# Groups of resources

Groups come in the order of their keys and their members in order, each once, so the groups of
resources depend on the entries alone, not on the order or the number in which these arrive.
For this the orders of tags, members and keys must be strict and total, which they are:
nothing is compared that is equal in one respect and different in another.
-/

namespace FlowLint.Catalog

open FlowLint.Flow (Artifact Category Package Tag packageBefore)

/-! ## Orders -/

instance : IsStrictTotalOrder Package (· < ·) :=
  Order.isStrictTotalOrder_of_keys Package.id Package.name (fun _ _ => Iff.rfl)
    fun a b hid hname => by cases a; cases b; simp_all

instance : IsStrictTotalOrder (Option Package) packageBefore where
  trichotomous a b hab hba := by
    cases a with
    | none =>
      cases b with
      | none => rfl
      | some b => exact absurd trivial hab
    | some a =>
      cases b with
      | none => exact absurd trivial hba
      | some b =>
        have hab' : ¬ a < b := hab
        have hba' : ¬ b < a := hba
        have heq : a = b := Std.Trichotomous.trichotomous a b hab' hba'
        rw [heq]
  irrefl a h := by
    cases a with
    | none => exact h
    | some a => exact irrefl_of (· < ·) a h
  trans a b c hab hbc := by
    cases a with
    | none =>
      cases c with
      | none => cases b <;> exact absurd hbc id
      | some c => trivial
    | some a =>
      cases b with
      | none => exact absurd hab id
      | some b =>
        cases c with
        | none => exact absurd hbc id
        | some c => exact trans_of (· < ·) hab hbc

/-- By name, then package. -/
def namedBefore (a b : String × Option Package) : Prop :=
  a.1 < b.1 ∨ (a.1 = b.1 ∧ packageBefore a.2 b.2)

instance : IsStrictTotalOrder (String × Option Package) namedBefore :=
  Order.isStrictTotalOrder_lex (r := (· < ·)) (s := packageBefore) Prod.fst Prod.snd
    (fun _ _ => Iff.rfl) fun _ _ => Prod.ext

instance : IsStrictTotalOrder Tag (· < ·) :=
  Order.isStrictTotalOrder_lex (r := (· < ·)) (s := namedBefore) Tag.id
    (fun t => (t.name, t.package)) (fun _ _ => Iff.rfl)
    fun a b hid hrest => by cases a; cases b; simp_all

instance : IsStrictTotalOrder Member (· < ·) :=
  Order.isStrictTotalOrder_of_keys Member.tag Member.name (fun _ _ => Iff.rfl)
    fun a b htag hname => by cases a; cases b; simp_all

@[simp] theorem categoryRank_inj {a b : Category} : categoryRank a = categoryRank b ↔ a = b :=
  List.idxOf_inj (Category.mem_all a)

instance : IsStrictTotalOrder ContentKey (· < ·) :=
  Order.isStrictTotalOrder_of_keys (fun k => categoryRank k.category) ContentKey.digest
    (fun a b => by rw [categoryRank_inj]; rfl)
    fun a b hrank hdigest => by
      have hcategory := categoryRank_inj.mp hrank
      cases a
      cases b
      simp_all

/-! ## Groups -/

/-- The groups of entries depend on the entries alone. -/
theorem groupsOf_congr {xs ys : List Entry} (h : ∀ e, e ∈ xs ↔ e ∈ ys) :
    groupsOf xs = groupsOf ys := by
  have hkeys : Order.ofList (xs.map (·.key)) = Order.ofList (ys.map (·.key)) :=
    Order.ofList_eq_ofList_iff.mpr fun key => by simp only [List.mem_map, h]
  have hmembers : ∀ key, Order.ofList ((xs.filter (·.key = key)).map (·.member)) =
      Order.ofList ((ys.filter (·.key = key)).map (·.member)) := fun key =>
    Order.ofList_eq_ofList_iff.mpr fun m => by simp only [List.mem_map, List.mem_filter, h]
  simp only [groupsOf, hkeys, hmembers]

/-- The issues about duplicates do not depend on the order of artifacts. -/
theorem finishDuplicates_of_perm (categories : List Category) {xs ys : List Artifact}
    (h : xs.Perm ys) : finishDuplicates categories xs = finishDuplicates categories ys := by
  have hentries : ∀ e, e ∈ xs.flatMap (entriesOf categories) ↔
      e ∈ ys.flatMap (entriesOf categories) := fun _ => (h.flatMap_right _).mem_iff
  rw [finishDuplicates, finishDuplicates, duplicates, duplicates, groupsOf_congr hentries]

end FlowLint.Catalog
