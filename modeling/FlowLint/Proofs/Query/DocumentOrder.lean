import FlowLint.Proofs.Query.Chain
import Mathlib.Data.List.Induction
import Mathlib.Data.List.Pairwise

/-!
# The order of what a query selects

The steps of a query go from one element reached so far to the next. A step to elements below keeps
the order of the document even where one of these elements lies below another, since what is below
both has been reached already from the first. A step to children does not: the children of the
inner element lie before the later children of the outer one. So the order of the document is kept
by queries whose steps to children start from elements that do not lie below one another, and
queries that have all steps to children first are of this kind.
-/

namespace FlowLint.Query

open FlowLint.Markup (Element)

variable {root : Element} {s : Step} {steps : List Step} {p q : List Nat} {m n x : Node}
  {context nodes before : List Node} {seen : List Nat}

/-! ## Elements of the document -/

/-- The node is an element of the document with its place. -/
def Located (root : Element) (n : Node) : Prop :=
  ∃ p, nodeAt root p = some n

/-- Whatever is selected lies in the document, at the position it says. -/
theorem located_of_mem_select {query : Structural} (hn : n ∈ query.select root) :
    Located root n := by
  obtain ⟨p, -, hp⟩ := (select_holds query root n).mp hn
  exact ⟨p, hp⟩

theorem Located.getElem? (h : Located root n) :
    (root :: root.descendants)[n.index]? = some n.element := by
  obtain ⟨p, hp⟩ := h
  obtain ⟨he, hplace⟩ := nodeAt_eq_some.mp hp
  rw [← hplace, Element.descendants_eq_beneath]
  exact Element.getElem?_place he

/-- The elements are in document order. -/
def InOrder (nodes : List Node) : Prop :=
  nodes.Pairwise (·.index < ·.index)

/-- An element comes after the whole tree of another. -/
def Node.After (m n : Node) : Prop :=
  m.index + m.element.size ≤ n.index

theorem Node.After.lt (h : m.After n) : m.index < n.index := by
  have hpos := Element.size_pos m.element
  unfold Node.After at h
  omega

theorem inOrder_of_after (h : nodes.Pairwise Node.After) : InOrder nodes :=
  h.imp Node.After.lt

/-- Descendants have the positions right behind the element. -/
theorem index_lt_of_mem_descendants (hm : m ∈ n.descendants) :
    n.index < m.index ∧ m.index < n.index + n.element.size := by
  obtain ⟨k, hk⟩ := List.mem_iff_getElem?.mp hm
  rw [Node.descendants, Element.descendants_eq_beneath, Element.beneath_eq, getElem?_number,
    Option.map_eq_some_iff] at hk
  obtain ⟨e, he, rfl⟩ := hk
  obtain ⟨hlt, -⟩ := List.getElem?_eq_some_iff.mp he
  rw [Element.length_forest] at hlt
  have hsize := Element.size_eq n.element
  dsimp only
  omega

/-- An element that comes after another lies below it or after its whole tree. -/
theorem below_or_after (hm : Located root m) (hn : Located root n) (h : m.index < n.index) :
    n ∈ m.descendants ∨ m.After n := by
  obtain ⟨p, hp⟩ := hm
  obtain ⟨q, hq⟩ := hn
  by_cases hafter : m.After n
  · exact .inr hafter
  · -- The place is inside the tree, so a path goes on to it.
    have hlt : n.index - m.index < (m.element :: m.element.beneath).length := by
      rw [List.length_cons, Element.beneath_eq, Element.length_forest]
      have hsize := Element.size_eq m.element
      unfold Node.After at hafter
      omega
    obtain ⟨r, hr, hplace⟩ := Element.exists_path (List.getElem?_eq_getElem hlt)
    have hx := (nodeAt_append (m := ⟨n.index, _⟩) hp).mpr ⟨hr, by dsimp only; omega⟩
    obtain rfl := nodeAt_injective hx hq rfl
    refine .inl ((mem_descendants hp).mpr ⟨r, ?_, hq⟩)
    rintro rfl
    rw [Element.place] at hplace
    omega

theorem mem_descendants_trans (hm : Located root m) (hn : n ∈ m.descendants)
    (hx : x ∈ n.descendants) : x ∈ m.descendants := by
  obtain ⟨p, hp⟩ := hm
  obtain ⟨q, hq, hn⟩ := (mem_descendants hp).mp hn
  obtain ⟨r, -, hx⟩ := (mem_descendants hn).mp hx
  rw [List.append_assoc] at hx
  exact (mem_descendants hp).mpr ⟨q ++ r, by simp [hq], hx⟩

/-! ## Steps to children -/

theorem le_index_of_mem_numberTrees {index : Nat} {es : List Element}
    (h : n ∈ numberTrees index es) : index ≤ n.index := by
  obtain ⟨i, hi⟩ := List.mem_iff_getElem?.mp h
  rw [getElem?_numberTrees, Option.map_eq_some_iff] at hi
  obtain ⟨e, -, rfl⟩ := hi
  exact Nat.le_add_right _ _

/-- Trees side by side are numbered one after the other. -/
theorem pairwise_numberTrees (index : Nat) (es : List Element) :
    (numberTrees index es).Pairwise Node.After := by
  induction es generalizing index with
  | nil => exact .nil
  | cons e rest ih => exact .cons (fun n hn => le_index_of_mem_numberTrees hn) (ih _)

@[simp] theorem map_element_numberTrees (index : Nat) (es : List Element) :
    (numberTrees index es).map (·.element) = es := by
  induction es generalizing index with
  | nil => rfl
  | cons e rest ih => rw [numberTrees, List.map_cons, ih]

/-- A query for children of a name selects them as they stand in the element. -/
theorem select_child (name : String) (root : Element) :
    ((Structural.child {} name).select root).map (·.element) = root.childrenNamed name := by
  have hselect : (Structural.child {} name).select root =
      distinct [] ((Node.root root).children.filter fun n => n.element.name = name) := by
    have haccepts : ∀ e : Element,
        Step.accepts ⟨.child, [name], []⟩ e = decide (e.name = name) := fun e => by
      simp [Step.accepts]
    have hquery : Structural.child {} name = ⟨[⟨.child, [name], []⟩]⟩ := rfl
    rw [hquery, Structural.select, List.foldl_cons, List.foldl_nil, Step.apply,
      List.flatMap_singleton]
    simp only [haccepts]
    rfl
  have hplaces : ((Node.root root).children.filter fun n => n.element.name = name).Pairwise
      (·.index < ·.index) := (inOrder_of_after (pairwise_numberTrees 1 root.children)).filter _
  have helements : (Node.root root).children.map (·.element) = root.children :=
    map_element_numberTrees 1 root.children
  rw [hselect, distinct_eq_self (fun _ _ => List.not_mem_nil) hplaces, Element.childrenNamed,
    ← helements, List.filter_map]
  rfl

theorem inside_of_mem_children (hm : m ∈ n.children) :
    n.index < m.index ∧ m.index + m.element.size ≤ n.index + n.element.size := by
  obtain ⟨i, hi⟩ := List.mem_iff_getElem?.mp hm
  rw [Node.children, getElem?_numberTrees, Option.map_eq_some_iff] at hi
  obtain ⟨e, he, rfl⟩ := hi
  have hnext := Element.count_take_succ he
  have hall := Element.count_take_le_count n.element.children (i + 1)
  have hsize := Element.size_eq n.element
  dsimp only
  omega

/-- The children of trees side by side are the roots of trees side by side. -/
theorem apply_child (hs : s.axis = .child) (h : context.Pairwise Node.After) :
    (s.apply context).Pairwise Node.After := by
  have hcandidates : ∀ n, s.candidates n = n.children := fun n => by rw [Step.candidates, hs]
  have hall : (context.flatMap s.candidates).Pairwise Node.After := by
    rw [List.pairwise_flatMap]
    refine ⟨fun n _ => ?_, h.imp fun {m n} hmn x hx y hy => ?_⟩
    · rw [hcandidates]
      exact pairwise_numberTrees _ _
    · rw [hcandidates] at hx hy
      have hx := inside_of_mem_children hx
      have hy := inside_of_mem_children hy
      unfold Node.After at hmn ⊢
      omega
  have hkept := hall.filter fun n => s.accepts n.element
  have hinOrder : InOrder ((context.flatMap s.candidates).filter (fun n => s.accepts n.element)) :=
    inOrder_of_after hkept
  rw [Step.apply, distinct_eq_self (fun _ _ => List.not_mem_nil) hinOrder]
  exact hkept

/-! ## Steps to elements below -/

/-- Each element is one of those before it or comes after all of them. -/
def Rising : List Node → List Node → Prop
  | _, [] => True
  | before, n :: rest =>
    ((∃ m ∈ before, m.index = n.index) ∨ ∀ m ∈ before, m.index < n.index) ∧
      Rising (before ++ [n]) rest

theorem rising_append {others : List Node} :
    Rising before (nodes ++ others) ↔ Rising before nodes ∧ Rising (before ++ nodes) others := by
  induction nodes generalizing before with
  | nil => rw [List.nil_append, List.append_nil, Rising, true_and]
  | cons n rest ih =>
    rw [List.cons_append, Rising, Rising, ih, and_assoc, List.append_assoc, List.singleton_append]

theorem rising_of_repeats (h : ∀ n ∈ nodes, ∃ m ∈ before, m.index = n.index) :
    Rising before nodes := by
  induction nodes generalizing before with
  | nil => trivial
  | cons n rest ih =>
    refine ⟨.inl (h n List.mem_cons_self), ih fun x hx => ?_⟩
    obtain ⟨m, hm, hsame⟩ := h x (List.mem_cons_of_mem _ hx)
    exact ⟨m, List.mem_append_left _ hm, hsame⟩

/-- What is in order and behind everything before rises. -/
theorem rising_of_inOrder (h : InOrder nodes)
    (hbefore : ∀ m ∈ before, ∀ n ∈ nodes, m.index < n.index) : Rising before nodes := by
  induction nodes generalizing before with
  | nil => trivial
  | cons n rest ih =>
    obtain ⟨hn, hrest⟩ := List.pairwise_cons.mp h
    refine ⟨.inr fun m hm => hbefore m hm n List.mem_cons_self, ih hrest fun m hm x hx => ?_⟩
    rcases List.mem_append.mp hm with hm | hm
    · exact hbefore m hm x (List.mem_cons_of_mem _ hx)
    · rw [List.mem_singleton.mp hm]
      exact hn x hx

/-- What is left when repeats are left out is in order and comes after all before it. -/
theorem distinct_inOrder (hseen : ∀ i, i ∈ seen ↔ i ∈ before.map Node.index)
    (h : Rising before nodes) : InOrder (distinct seen nodes) ∧
      ∀ n ∈ distinct seen nodes, ∀ m ∈ before, m.index < n.index := by
  induction nodes generalizing seen before with
  | nil => exact ⟨.nil, fun n hn => by cases hn⟩
  | cons first rest ih =>
    obtain ⟨hfirst, hrest⟩ := h
    have hlast : ∀ i, i ∈ (before ++ [first]).map Node.index ↔ i ∈ seen ∨ i = first.index := by
      intro i
      rw [List.map_append, List.mem_append, ← hseen, List.map_singleton, List.mem_singleton]
    rw [distinct]
    by_cases hmem : first.index ∈ seen
    · rw [if_pos (List.contains_iff_mem.mpr hmem)]
      have hsame : ∀ i, i ∈ seen ↔ i ∈ (before ++ [first]).map Node.index := by
        intro i
        rw [hlast]
        exact (or_iff_left_of_imp fun hi => by rwa [hi]).symm
      obtain ⟨horder, hafter⟩ := ih hsame hrest
      have hbefore : ∀ n ∈ distinct seen rest, ∀ m ∈ before, m.index < n.index :=
        fun n hn m hm => hafter n hn m (List.mem_append_left _ hm)
      exact ⟨horder, hbefore⟩
    · have hne : seen.contains first.index ≠ true := mt List.contains_iff_mem.mp hmem
      rw [if_neg hne]
      have hnew : ∀ m ∈ before, m.index < first.index := by
        rcases hfirst with hrepeat | hnew
        · have hmem' : first.index ∈ seen := (hseen _).mpr (List.mem_map.mpr hrepeat)
          exact absurd hmem' hmem
        · exact hnew
      have hmore : ∀ i, i ∈ first.index :: seen ↔ i ∈ (before ++ [first]).map Node.index := by
        intro i
        rw [hlast, List.mem_cons, or_comm]
      obtain ⟨horder, hafter⟩ := ih hmore hrest
      have hfirst : first ∈ before ++ [first] := List.mem_append_right _ List.mem_cons_self
      have hlater : ∀ n ∈ distinct (first.index :: seen) rest, first.index < n.index :=
        fun n hn => hafter n hn first hfirst
      refine ⟨.cons hlater horder, ?_⟩
      intro n hn m hm
      rcases List.mem_cons.mp hn with rfl | hn
      · exact hnew m hm
      · exact hafter n hn m (List.mem_append_left _ hm)

/-- What lies below elements in order repeats what lies below one before, or comes after it. -/
theorem rising_descendants (done : List Node) (accepts : Node → Bool)
    (hlocated : ∀ n ∈ done ++ context, Located root n) (h : InOrder (done ++ context)) :
    Rising (done.flatMap fun n => n.descendants.filter accepts)
      (context.flatMap fun n => n.descendants.filter accepts) := by
  induction context generalizing done with
  | nil => trivial
  | cons n rest ih =>
    have happend : done ++ n :: rest = (done ++ [n]) ++ rest := by simp
    rw [List.flatMap_cons, rising_append]
    constructor
    · by_cases hbelow : ∃ m ∈ done, n ∈ m.descendants
      · obtain ⟨m, hm, hn⟩ := hbelow
        refine rising_of_repeats fun x hx => ?_
        obtain ⟨hx, haccepts⟩ := List.mem_filter.mp hx
        have hx := mem_descendants_trans (hlocated m (List.mem_append_left _ hm)) hn hx
        have hmem : x ∈ done.flatMap (·.descendants.filter accepts) :=
          List.mem_flatMap.mpr ⟨m, hm, List.mem_filter.mpr ⟨hx, haccepts⟩⟩
        exact ⟨x, hmem, rfl⟩
      · refine rising_of_inOrder ((pairwise_number _ _).filter _) fun x hx y hy => ?_
        obtain ⟨m, hm, hx⟩ := List.mem_flatMap.mp hx
        have hx := index_lt_of_mem_descendants (List.mem_filter.mp hx).1
        have hy := index_lt_of_mem_descendants (List.mem_filter.mp hy).1
        have hlt : m.index < n.index := (List.pairwise_append.mp h).2.2 m hm n List.mem_cons_self
        have hafter : m.After n := by
          rcases below_or_after (hlocated m (List.mem_append_left _ hm))
            (hlocated n (List.mem_append_right _ List.mem_cons_self)) hlt with hn | hafter
          · exact absurd ⟨m, hm, hn⟩ hbelow
          · exact hafter
        unfold Node.After at hafter
        omega
    · rw [happend] at hlocated h
      have hnext := ih (done ++ [n]) hlocated h
      rwa [List.flatMap_append, List.flatMap_singleton] at hnext

/-- Descendant steps keep the order whatever they start from. -/
theorem apply_descendant (hs : s.axis = .descendant) (hlocated : ∀ n ∈ context, Located root n)
    (h : InOrder context) : InOrder (s.apply context) := by
  have hcandidates : s.candidates = Node.descendants := by
    funext n
    rw [Step.candidates, hs]
  have hrising : Rising [] (context.flatMap fun n =>
      n.descendants.filter fun n => s.accepts n.element) :=
    rising_descendants [] (fun n => s.accepts n.element) hlocated h
  rw [Step.apply, hcandidates, List.filter_flatMap]
  exact (distinct_inOrder (by simp) hrising).1

/-! ## Queries -/

/-- No element lies below another. -/
def SideBySide (nodes : List Node) : Prop :=
  ∀ m ∈ nodes, ∀ n ∈ nodes, n ∉ m.descendants

/-- Elements in order, none of them inside another, lie one after the other. -/
theorem after_of_sideBySide (hlocated : ∀ n ∈ nodes, Located root n) (h : InOrder nodes)
    (hside : SideBySide nodes) : nodes.Pairwise Node.After := by
  refine h.imp_of_mem fun {m n} hm hn hlt => ?_
  rcases below_or_after (hlocated m hm) (hlocated n hn) hlt with hbelow | hafter
  · exact absurd hbelow (hside m hm n hn)
  · exact hafter

theorem sideBySide_of_after (h : nodes.Pairwise Node.After) : SideBySide nodes := by
  refine List.Pairwise.forall_of_forall_of_flip ?_ (h.imp fun {m n} hafter hbelow => ?_)
    (h.imp fun {m n} hafter hbelow => ?_)
  · intro n _ hbelow
    obtain ⟨hlt, -⟩ := index_lt_of_mem_descendants hbelow
    omega
  · obtain ⟨-, hinside⟩ := index_lt_of_mem_descendants hbelow
    unfold Node.After at hafter
    omega
  · obtain ⟨hlt, -⟩ := index_lt_of_mem_descendants hbelow
    have := hafter.lt
    omega

/-- Steps to children start from elements that do not lie below one another. -/
def Structural.StepsApart (query : Structural) (root : Element) : Prop :=
  ∀ before s after, query.steps = before ++ s :: after → s.axis = .child →
    SideBySide ((⟨before⟩ : Structural).select root)

theorem select_concat (steps : List Step) (s : Step) (root : Element) :
    (⟨steps ++ [s]⟩ : Structural).select root =
      s.apply ((⟨steps⟩ : Structural).select root) :=
  List.foldl_concat ..

/-- A query selects elements in document order if its steps to children start from elements that do
not lie below one another. -/
theorem select_inDocumentOrder (query : Structural) (root : Element)
    (h : query.StepsApart root) :
    (query.select root).Pairwise (·.index < ·.index) ∧
      ∀ n ∈ query.select root, (root :: root.descendants)[n.index]? = some n.element := by
  refine ⟨?_, fun n hn => (located_of_mem_select hn).getElem?⟩
  obtain ⟨steps⟩ := query
  induction steps using List.reverseRecOn with
  | nil => exact List.pairwise_singleton _ _
  | append_singleton steps s ih =>
    have hbefore : (⟨steps⟩ : Structural).StepsApart root := by
      intro before t after hsteps ht
      refine h before t (after ++ [s]) ?_ ht
      rw [show steps = before ++ t :: after from hsteps]
      simp
    have hlocated : ∀ n ∈ (⟨steps⟩ : Structural).select root, Located root n :=
      fun n => located_of_mem_select
    rw [select_concat]
    cases hs : s.axis with
    | child =>
      have hside := h steps s [] rfl hs
      exact inOrder_of_after (apply_child hs (after_of_sideBySide hlocated (ih hbefore) hside))
    | descendant => exact apply_descendant hs hlocated (ih hbefore)

/-- Child steps alone never select one element inside another. -/
theorem select_children (h : ∀ s ∈ steps, s.axis = .child) :
    ((⟨steps⟩ : Structural).select root).Pairwise Node.After := by
  induction steps using List.reverseRecOn with
  | nil => exact List.pairwise_singleton _ _
  | append_singleton steps s ih =>
    rw [select_concat]
    exact apply_child (h s (by simp)) (ih fun t ht => h t (List.mem_append_left _ ht))

/-- A query whose steps to children come first keeps the order of every document. -/
theorem stepsApart_of_childrenFirst {below : List Step} (hchild : ∀ s ∈ steps, s.axis = .child)
    (hbelow : ∀ s ∈ below, s.axis = .descendant) (root : Element) :
    (⟨steps ++ below⟩ : Structural).StepsApart root := by
  intro before s after hsteps hs
  rcases List.append_eq_append_iff.mp hsteps with ⟨more, hbefore, hmore⟩ | ⟨more, hbefore, hmore⟩
  · have hmem : s ∈ below := by
      rw [hmore]
      simp
    rw [hbelow s hmem] at hs
    cases hs
  · refine sideBySide_of_after (select_children fun t ht => hchild t ?_)
    rw [hbefore]
    exact List.mem_append_left _ ht

/-! ## Elements inside others of their name -/

/-- An element inside another of its name, with an element of another name in each. -/
def nested : Element :=
  let y := Element.named "y"
  (Element.named "r").withChild
    (((Element.named "x").withChild ((Element.named "x").withChild y)).withChild y)

theorem select_childThenBelow :
    let query : Structural := (Structural.child {} "x").descendant "y"
    query.StepsApart nested ∧ (query.select nested).Pairwise (·.index < ·.index) := by
  intro query
  have hsteps : query.StepsApart nested :=
    @stepsApart_of_childrenFirst [⟨.child, ["x"], []⟩] [⟨.descendant, ["y"], []⟩] (by simp)
      (by simp) nested
  exact ⟨hsteps, (select_inDocumentOrder query nested hsteps).1⟩

theorem candidates_eq : Step.candidates = fun s n =>
    match s.axis with
    | .child => n.children
    | .descendant => number (n.index + 1) n.element.beneath := by
  funext s n
  rw [← Element.descendants_eq_beneath]
  rfl

theorem select_belowThenChild :
    (((Structural.descendant {} "x").child "y").select nested).map (·.index) = [4, 3] := by
  simp only [Structural.select, Step.apply, candidates_eq]
  decide

end FlowLint.Query
