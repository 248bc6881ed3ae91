import FlowLint.Path.Order
import FlowLint.Proofs.Order.Canonical

/-!
# Sorted lists of paths

Paths are ordered by their components, and two spellings of the same components are at one
place of the order. Sorting a list of paths with one spelling for each place gives a strictly
increasing list; which places it has, and how many, depends on the places in the list alone.
Which of several spellings stays is not said here.
-/

namespace FlowLint.Path

/-- A path comes before another one and is not at the same place of the order. -/
structure Before (p q : Path) : Prop where
  le : p.le q = true
  ne : p.components ≠ q.components

/-! ## The order of components -/

/-- The name of a component, empty if it is none. -/
def Component.name : Component → String
  | normal name => name
  | _ => ""

/-- One component comes before another. -/
def Component.Precedes (a b : Component) : Prop := a.before b = true

theorem precedes_iff (a b : Component) :
    a.Precedes b ↔ a.rank < b.rank ∨ (a.rank = b.rank ∧ a.name < b.name) := by
  cases a <;> cases b <;>
    simp [Component.Precedes, Component.before, Component.rank, Component.name]

instance : IsStrictTotalOrder Component Component.Precedes :=
  Order.isStrictTotalOrder_lex (r := (· < ·)) (s := (· < ·)) Component.rank Component.name
    precedes_iff
    fun a b hrank hname => by
      cases a <;> cases b <;> simp_all [Component.rank, Component.name]

theorem componentsLe_cons {a b : Component} {as bs : List Component} :
    componentsLe (a :: as) (b :: bs) = true ↔
      a.Precedes b ∨ (a = b ∧ componentsLe as bs = true) := by
  simp [componentsLe, Component.Precedes]

/-- Any two lists of components can be compared. -/
theorem componentsLe_total (as bs : List Component) :
    componentsLe as bs = true ∨ componentsLe bs as = true := by
  induction as generalizing bs with
  | nil => exact .inl rfl
  | cons a as ih =>
    cases bs with
    | nil => exact .inr rfl
    | cons b bs =>
      rw [componentsLe_cons, componentsLe_cons]
      rcases trichotomous_of Component.Precedes a b with h | rfl | h
      · exact .inl (.inl h)
      · exact (ih bs).imp (fun h => .inr ⟨rfl, h⟩) fun h => .inr ⟨rfl, h⟩
      · exact .inr (.inl h)

theorem componentsLe_trans {as bs cs : List Component} (hab : componentsLe as bs = true)
    (hbc : componentsLe bs cs = true) : componentsLe as cs = true := by
  induction as generalizing bs cs with
  | nil => rfl
  | cons a as ih =>
    match bs, cs, hab, hbc with
    | b :: bs, c :: cs, hab, hbc =>
      rw [componentsLe_cons] at hab hbc ⊢
      rcases hab with hab | ⟨rfl, hab⟩
      · rcases hbc with hbc | ⟨rfl, -⟩
        · exact .inl (trans_of Component.Precedes hab hbc)
        · exact .inl hab
      · exact hbc.imp_right fun ⟨heq, hbc⟩ => ⟨heq, ih hab hbc⟩

theorem componentsLe_antisymm {as bs : List Component} (hab : componentsLe as bs = true)
    (hba : componentsLe bs as = true) : as = bs := by
  induction as generalizing bs with
  | nil =>
    cases bs with
    | nil => rfl
    | cons b bs => cases hba
  | cons a as ih =>
    cases bs with
    | nil => cases hab
    | cons b bs =>
      rw [componentsLe_cons] at hab hba
      rcases hab with hab | ⟨rfl, hab⟩
      · rcases hba with hba | ⟨rfl, -⟩
        · exact absurd hba (asymm_of Component.Precedes hab)
        · exact absurd hab (irrefl_of Component.Precedes b)
      · rcases hba with hba | ⟨-, hba⟩
        · exact absurd hba (irrefl_of Component.Precedes a)
        · rw [ih hab hba]

/-! ## Sorting -/

theorem pairwise_mergeSort (ps : List Path) : (ps.mergeSort le).Pairwise (·.le · = true) := by
  refine List.pairwise_mergeSort (fun p q r hpq hqr => ?_) (fun p q => ?_) ps
  · exact componentsLe_trans hpq hqr
  · rw [Bool.or_eq_true]
    exact componentsLe_total p.components q.components

theorem dropRepeats_sublist (ps : List Path) : (dropRepeats ps).Sublist ps := by
  fun_induction dropRepeats ps with
  | case1 p q rest h ih => exact ih.trans (.cons_cons p (List.sublist_cons_self q rest))
  | case2 p q rest h ih => exact .cons_cons p ih
  | case3 ps => exact .refl ps

theorem exists_mem_dropRepeats {ps : List Path} {p : Path} (hp : p ∈ ps) :
    ∃ q ∈ dropRepeats ps, q.components = p.components := by
  fun_induction dropRepeats ps generalizing p with
  | case1 first second rest h ih =>
    rcases List.mem_cons.mp hp with rfl | hp
    · exact ih List.mem_cons_self
    rcases List.mem_cons.mp hp with rfl | hp
    · obtain ⟨q, hq, heq⟩ := ih List.mem_cons_self
      exact ⟨q, hq, heq.trans h⟩
    · exact ih (List.mem_cons_of_mem _ hp)
  | case2 first second rest h ih =>
    rcases List.mem_cons.mp hp with rfl | hp
    · exact ⟨p, List.mem_cons_self, rfl⟩
    · obtain ⟨q, hq, heq⟩ := ih hp
      exact ⟨q, List.mem_cons_of_mem _ hq, heq⟩
  | case3 ps => exact ⟨p, hp, rfl⟩

/-- What is left of a sorted list increases strictly: a place of the order that has been left
does not come again. -/
theorem pairwise_dropRepeats {ps : List Path} (h : ps.Pairwise (·.le · = true)) :
    (dropRepeats ps).Pairwise Before := by
  fun_induction dropRepeats ps with
  | case1 p q rest heq ih =>
    exact ih (h.sublist (.cons_cons p (List.sublist_cons_self q rest)))
  | case2 p q rest hne ih =>
    obtain ⟨hp, hrest⟩ := List.pairwise_cons.mp h
    refine List.pairwise_cons.mpr ⟨fun r hr => ?_, ih hrest⟩
    have hpq : p.Before q := ⟨hp q List.mem_cons_self, hne⟩
    rcases List.mem_cons.mp ((dropRepeats_sublist _).subset hr) with rfl | hmem
    · exact hpq
    · have hqr : q.le r = true := (List.pairwise_cons.mp hrest).1 r hmem
      have hle : p.le r = true := hp r (List.mem_cons_of_mem _ hmem)
      refine ⟨hle, fun heq => hne ?_⟩
      have hqp : componentsLe q.components p.components = true := heq ▸ hqr
      exact componentsLe_antisymm hpq.le hqp
  | case3 ps hshort =>
    match ps, hshort with
    | [], _ => exact .nil
    | [p], _ => exact List.pairwise_singleton _ p
    | p :: q :: rest, hshort => exact absurd rfl (hshort p q rest)

/-- Paths are listed in increasing order, each place of the text once. -/
theorem pairwise_sortDistinct (ps : List Path) : (sortDistinct ps).Pairwise Before :=
  pairwise_dropRepeats (pairwise_mergeSort ps)

@[simp] theorem sortDistinct_singleton (p : Path) : sortDistinct [p] = [p] := by
  simp [sortDistinct, dropRepeats]

theorem mem_of_mem_sortDistinct {ps : List Path} {p : Path} (h : p ∈ sortDistinct ps) : p ∈ ps :=
  List.mem_mergeSort.mp ((dropRepeats_sublist _).subset h)

/-- A path that is dropped has an equal one that is kept. -/
theorem exists_mem_sortDistinct {ps : List Path} {p : Path} (h : p ∈ ps) :
    ∃ q ∈ sortDistinct ps, q.components = p.components :=
  exists_mem_dropRepeats (List.mem_mergeSort.mpr h)

/-- The places of a sorted list are those of the list. -/
theorem mem_components_sortDistinct {ps : List Path} {cs : List Component} :
    cs ∈ (sortDistinct ps).map components ↔ cs ∈ ps.map components := by
  constructor
  · intro h
    obtain ⟨p, hp, rfl⟩ := List.mem_map.mp h
    exact List.mem_map_of_mem (mem_of_mem_sortDistinct hp)
  · intro h
    obtain ⟨p, hp, rfl⟩ := List.mem_map.mp h
    obtain ⟨q, hq, heq⟩ := exists_mem_sortDistinct hp
    exact List.mem_map.mpr ⟨q, hq, heq⟩

theorem nodup_components {ps : List Path} (h : ps.Pairwise Before) :
    (ps.map components).Nodup :=
  List.pairwise_map.mpr (h.imp fun hpq => hpq.ne)

/-- Strictly increasing lists with the same places have them in the same order. -/
theorem components_eq_of_pairwise {ps qs : List Path} (hp : ps.Pairwise Before)
    (hq : qs.Pairwise Before) (h : ∀ cs, cs ∈ ps.map components ↔ cs ∈ qs.map components) :
    ps.map components = qs.map components := by
  have hle : ∀ {rs : List Path}, rs.Pairwise Before →
      (rs.map components).Pairwise (componentsLe · · = true) :=
    fun hr => List.pairwise_map.mpr (hr.imp fun hpq => hpq.le)
  have hperm : (ps.map components).Perm (qs.map components) :=
    (List.perm_ext_iff_of_nodup (nodup_components hp) (nodup_components hq)).mpr h
  exact hperm.eq_of_pairwise (fun _ _ _ _ => componentsLe_antisymm) (hle hp) (hle hq)

end FlowLint.Path
