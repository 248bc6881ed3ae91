import FlowLint.Proofs.Query.Path
import Mathlib.Data.List.Nodup

/-!
# What a query selects

A query selects the elements at the ends of the chains of links that its steps allow, each once. An
element counts as one however many chains lead to it, and two elements count as two however alike
they are: what is selected is said by paths. In which order they are selected is not said here.
-/

namespace FlowLint.Query

open FlowLint.Markup (Element)

variable {root : Element} {s : Step} {steps : List Step} {p p' last : List Nat} {m n : Node}
  {context nodes : List Node} {seen : List Nat}

/-- Where an axis goes from a path. -/
def Axis.Leads : Axis → List Nat → List Nat → Prop
  | .child, p, p' => ∃ i, p' = p ++ [i]
  | .descendant, p, p' => ∃ q, q ≠ [] ∧ p' = p ++ q

/-- A link of a chain. It ends at an element of the document with one of the names of the step,
and this satisfies all of the step's conditions. -/
structure Step.Leads (root : Element) (s : Step) (p p' : List Nat) : Prop where
  along : s.axis.Leads p p'
  ends : ∃ e, root.at? p' = some e ∧ e.name ∈ s.names ∧ ∀ c ∈ s.conditions, c.holds e = true

/-- A chain with one link for each step. -/
inductive Chain (root : Element) : List Step → List Nat → List Nat → Prop
  | done (p : List Nat) : Chain root [] p p
  | link {s : Step} {steps : List Step} {p p' last : List Nat} (first : s.Leads root p p')
      (rest : Chain root steps p' last) : Chain root (s :: steps) p last

theorem Step.accepts_iff {e : Element} :
    s.accepts e = true ↔ e.name ∈ s.names ∧ ∀ c ∈ s.conditions, c.holds e = true := by
  rw [Step.accepts, Bool.and_eq_true, List.contains_iff_mem, List.all_eq_true]

/-- A step leads along its axis to elements that it accepts. -/
theorem Step.leads_iff (hn : nodeAt root p' = some n) :
    s.Leads root p p' ↔ s.axis.Leads p p' ∧ s.accepts n.element = true := by
  obtain ⟨he, -⟩ := nodeAt_eq_some.mp hn
  rw [Step.accepts_iff]
  constructor
  · rintro ⟨halong, e, he', haccepts⟩
    obtain rfl := Option.some.inj (he.symm.trans he')
    exact ⟨halong, haccepts⟩
  · rintro ⟨halong, haccepts⟩
    exact ⟨halong, n.element, he, haccepts⟩

theorem Axis.Leads.extends {axis : Axis} (h : axis.Leads p p') : ∃ q, p' = p ++ q := by
  cases axis with
  | child =>
    obtain ⟨i, rfl⟩ := h
    exact ⟨[i], rfl⟩
  | descendant =>
    obtain ⟨q, -, rfl⟩ := h
    exact ⟨q, rfl⟩

/-- There is an element wherever a chain from an element ends. -/
theorem Chain.exists_element {e : Element} (h : Chain root steps p last)
    (he : root.at? p = some e) : ∃ d, root.at? last = some d := by
  induction h generalizing e with
  | done p => exact ⟨e, he⟩
  | link first _ ih =>
    obtain ⟨d, hd, -⟩ := first.ends
    exact ih hd

/-- The candidates of a step are the elements its axis leads to. -/
theorem mem_candidates (hn : nodeAt root p = some n) :
    m ∈ s.candidates n ↔ ∃ p', s.axis.Leads p p' ∧ nodeAt root p' = some m := by
  unfold Step.candidates
  cases s.axis with
  | child =>
    rw [mem_children hn]
    constructor
    · rintro ⟨i, hi⟩
      exact ⟨p ++ [i], ⟨i, rfl⟩, hi⟩
    · rintro ⟨_, ⟨i, rfl⟩, hi⟩
      exact ⟨i, hi⟩
  | descendant =>
    rw [mem_descendants hn]
    constructor
    · rintro ⟨q, hq, hm⟩
      exact ⟨p ++ q, ⟨q, hq, rfl⟩, hm⟩
    · rintro ⟨_, ⟨q, hq, rfl⟩, hm⟩
      exact ⟨q, hq, hm⟩

/-! ## Each once -/

theorem mem_distinct (h : ∀ m ∈ nodes, ∀ n ∈ nodes, m.index = n.index → m = n) :
    n ∈ distinct seen nodes ↔ n ∈ nodes ∧ n.index ∉ seen := by
  induction nodes generalizing seen with
  | nil => simp [distinct]
  | cons first rest ih =>
    have hrest : ∀ m ∈ rest, ∀ n ∈ rest, m.index = n.index → m = n := fun m hm n hn =>
      h m (List.mem_cons_of_mem _ hm) n (List.mem_cons_of_mem _ hn)
    rw [distinct]
    by_cases hfirst : first.index ∈ seen
    · rw [if_pos (List.contains_iff_mem.mpr hfirst), ih hrest, List.mem_cons]
      constructor
      · rintro ⟨hn, hseen⟩
        exact ⟨.inr hn, hseen⟩
      · rintro ⟨rfl | hn, hseen⟩
        · exact absurd hfirst hseen
        · exact ⟨hn, hseen⟩
    · have hne : seen.contains first.index ≠ true := mt List.contains_iff_mem.mp hfirst
      rw [if_neg hne, List.mem_cons, ih hrest, List.mem_cons, List.mem_cons, not_or]
      constructor
      · rintro (rfl | ⟨hn, -, hseen⟩)
        · exact ⟨.inl rfl, hfirst⟩
        · exact ⟨.inr hn, hseen⟩
      · rintro ⟨rfl | hn, hseen⟩
        · exact .inl rfl
        · by_cases hsame : n.index = first.index
          · exact .inl (h n (List.mem_cons_of_mem _ hn) first List.mem_cons_self hsame)
          · exact .inr ⟨hn, hsame, hseen⟩

theorem distinct_fresh (hn : n ∈ distinct seen nodes) : n.index ∉ seen := by
  fun_induction distinct seen nodes with
  | case1 => cases hn
  | case2 seen first rest hfirst ih => exact ih hn
  | case3 seen first rest hfirst ih =>
    rcases List.mem_cons.mp hn with rfl | hn
    · exact mt List.contains_iff_mem.mpr hfirst
    · exact fun hseen => ih hn (List.mem_cons_of_mem _ hseen)

theorem distinct_nodup (seen : List Nat) (nodes : List Node) :
    ((distinct seen nodes).map (·.index)).Nodup := by
  fun_induction distinct seen nodes with
  | case1 => exact .nil
  | case2 seen first rest hfirst ih => exact ih
  | case3 seen first rest hfirst ih =>
    rw [List.map_cons, List.nodup_cons]
    refine ⟨fun hmem => ?_, ih⟩
    obtain ⟨n, hn, hsame⟩ := List.mem_map.mp hmem
    exact distinct_fresh hn (by rw [hsame]; exact List.mem_cons_self)

/-- No element is selected twice. -/
theorem select_nodup (q : Structural) (root : Element) :
    ((q.select root).map (·.index)).Nodup := by
  have hrun : ∀ (steps : List Step) (context : List Node), (context.map (·.index)).Nodup →
      ((steps.foldl (fun context s => s.apply context) context).map (·.index)).Nodup := by
    intro steps
    induction steps with
    | nil => exact fun context h => h
    | cons s steps ih => exact fun context _ => ih _ (distinct_nodup [] _)
  exact hrun q.steps [Node.root root] (List.pairwise_singleton _ _)

/-! ## Steps and chains -/

/-- A list holds the elements at the ends of certain paths. -/
def Holds (root : Element) (P : List Nat → Prop) (context : List Node) : Prop :=
  ∀ n, n ∈ context ↔ ∃ p, P p ∧ nodeAt root p = some n

variable {P : List Nat → Prop}

theorem mem_apply (h : Holds root P context) :
    n ∈ s.apply context ↔ ∃ m ∈ context, n ∈ s.candidates m ∧ s.accepts n.element = true := by
  have hpath : ∀ n ∈ (context.flatMap s.candidates).filter fun n => s.accepts n.element,
      ∃ p, nodeAt root p = some n := by
    intro n hn
    obtain ⟨m, hm, hn⟩ := List.mem_flatMap.mp (List.mem_filter.mp hn).1
    obtain ⟨p, -, hp⟩ := (h m).mp hm
    obtain ⟨p', -, hp'⟩ := (mem_candidates hp).mp hn
    exact ⟨p', hp'⟩
  have hsame : ∀ m ∈ (context.flatMap s.candidates).filter fun n => s.accepts n.element,
      ∀ n ∈ (context.flatMap s.candidates).filter fun n => s.accepts n.element,
        m.index = n.index → m = n := by
    intro m hm n hn hindex
    obtain ⟨p, hp⟩ := hpath m hm
    obtain ⟨q, hq⟩ := hpath n hn
    obtain rfl := nodeAt_injective hp hq hindex
    exact Option.some.inj (hp.symm.trans hq)
  rw [Step.apply, mem_distinct hsame, List.mem_filter, List.mem_flatMap]
  constructor
  · rintro ⟨⟨⟨m, hm, hn⟩, haccepts⟩, -⟩
    exact ⟨m, hm, hn, haccepts⟩
  · rintro ⟨m, hm, hn, haccepts⟩
    exact ⟨⟨⟨m, hm, hn⟩, haccepts⟩, List.not_mem_nil⟩

/-- A step goes on from each of the paths. -/
theorem apply_holds (s : Step) (h : Holds root P context) :
    Holds root (fun p' => ∃ p, P p ∧ s.Leads root p p') (s.apply context) := by
  intro n
  rw [mem_apply h]
  constructor
  · rintro ⟨m, hm, hn, haccepts⟩
    obtain ⟨p, hp, hm⟩ := (h m).mp hm
    obtain ⟨p', halong, hn⟩ := (mem_candidates hm).mp hn
    have hleads' : Step.Leads root s p p' := (Step.leads_iff hn).mpr ⟨halong, haccepts⟩
    exact ⟨p', ⟨p, hp, hleads'⟩, hn⟩
  · rintro ⟨p', ⟨p, hp, hleads⟩, hn⟩
    obtain ⟨halong, haccepts⟩ := (Step.leads_iff hn).mp hleads
    -- The link begins at an element since it ends at one.
    obtain ⟨q, rfl⟩ := halong.extends
    obtain ⟨e, he, -⟩ : ∃ e, root.at? p = some e ∧ e.at? q = some n.element := by
      rw [nodeAt_eq_some, Element.at?_append] at hn
      exact Option.bind_eq_some_iff.mp hn.1
    have hm : nodeAt root p = some ⟨root.place p, e⟩ := nodeAt_eq_some.mpr ⟨he, rfl⟩
    have hmem : n ∈ s.candidates ⟨root.place p, e⟩ := (mem_candidates hm).mpr ⟨p ++ q, halong, hn⟩
    exact ⟨_, (h _).mpr ⟨p, hp, hm⟩, hmem, haccepts⟩

/-- Steps applied one by one hold the ends of all chains of steps. -/
theorem foldl_holds (steps : List Step) (h : Holds root P context) :
    Holds root (fun last => ∃ p, P p ∧ Chain root steps p last)
      (steps.foldl (fun context s => s.apply context) context) := by
  induction steps generalizing P context with
  | nil =>
    intro n
    rw [List.foldl_nil, h n]
    refine exists_congr fun last => and_congr_left fun _ => ?_
    constructor
    · exact fun hlast => ⟨last, hlast, .done last⟩
    · rintro ⟨p, hp, hchain⟩
      cases hchain
      exact hp
  | cons s steps ih =>
    intro n
    have hholds : Holds root (fun p' => ∃ p, P p ∧ Step.Leads root s p p') (s.apply context) :=
      apply_holds s h
    rw [List.foldl_cons, ih hholds n]
    refine exists_congr fun last => and_congr_left fun _ => ?_
    constructor
    · rintro ⟨p', ⟨p, hp, hfirst⟩, hrest⟩
      exact ⟨p, hp, .link hfirst hrest⟩
    · rintro ⟨p, hp, hchain⟩
      cases hchain with
      | link hfirst hrest => exact ⟨_, ⟨p, hp, hfirst⟩, hrest⟩

/-- A query holds the ends of its chains. -/
theorem select_holds (q : Structural) (root : Element) :
    Holds root (Chain root q.steps []) (q.select root) := by
  have hroot : Holds root (· = []) [Node.root root] := by
    intro n
    rw [List.mem_singleton]
    constructor
    · rintro rfl
      exact ⟨[], rfl, rfl⟩
    · rintro ⟨p, rfl, hn⟩
      exact (Option.some.inj hn).symm
  intro n
  rw [Structural.select, foldl_holds q.steps hroot n]
  simp only [exists_eq_left]

/-- A list of elements at paths, as the list of these paths. -/
theorem exists_paths (h : ∀ n ∈ nodes, ∃ p, nodeAt root p = some n) :
    ∃ paths : List (List Nat), nodes.map some = paths.map (nodeAt root) := by
  induction nodes with
  | nil => exact ⟨[], rfl⟩
  | cons n rest ih =>
    obtain ⟨p, hp⟩ := h n List.mem_cons_self
    obtain ⟨paths, hpaths⟩ := ih fun n hn => h n (List.mem_cons_of_mem _ hn)
    exact ⟨p :: paths, by rw [List.map_cons, List.map_cons, hp, hpaths]⟩

/-- The elements that a query selects are those at the ends of its chains from the outermost one,
and they are selected once each. -/
theorem select_chains (q : Structural) (root : Element) :
    ∃ paths : List (List Nat), paths.Nodup ∧ (∀ p, p ∈ paths ↔ Chain root q.steps [] p) ∧
      (q.select root).map some = paths.map (nodeAt root) := by
  have hselect := select_holds q root
  have hnodes : ∀ n ∈ q.select root, ∃ p, nodeAt root p = some n := by
    intro n hn
    obtain ⟨p, -, hp⟩ := (hselect n).mp hn
    exact ⟨p, hp⟩
  obtain ⟨paths, hpaths⟩ := exists_paths hnodes
  refine ⟨paths, ?_, fun p => ?_, hpaths⟩
  · have hnodes : ((q.select root).map some).Nodup :=
      (List.Nodup.of_map _ (select_nodup q root)).map fun _ _ => Option.some.inj
    rw [hpaths] at hnodes
    exact List.Nodup.of_map _ hnodes
  · have hmem : p ∈ paths ↔ ∃ n ∈ q.select root, nodeAt root p = some n := by
      constructor
      · intro hp
        have hp := List.mem_map_of_mem (f := nodeAt root) hp
        rw [← hpaths] at hp
        obtain ⟨n, hn, hp⟩ := List.mem_map.mp hp
        exact ⟨n, hn, hp.symm⟩
      · rintro ⟨n, hn, hp⟩
        have hn := List.mem_map_of_mem (f := some) hn
        rw [hpaths] at hn
        obtain ⟨p', hp', hn⟩ := List.mem_map.mp hn
        obtain rfl := nodeAt_injective hp hn rfl
        exact hp'
    rw [hmem]
    constructor
    · rintro ⟨n, hn, hp⟩
      obtain ⟨p', hchain, hp'⟩ := (hselect n).mp hn
      obtain rfl := nodeAt_injective hp hp' rfl
      exact hchain
    · intro hchain
      obtain ⟨e, he⟩ := hchain.exists_element rfl
      have hp : nodeAt root p = some ⟨root.place p, e⟩ := nodeAt_eq_some.mpr ⟨he, rfl⟩
      have hmem' : ⟨root.place p, e⟩ ∈ q.select root := (hselect _).mpr ⟨p, hchain, hp⟩
      exact ⟨_, hmem', hp⟩

end FlowLint.Query
