import FlowLint.Proofs.Query.Path
import Mathlib.Data.List.OfFn

/-!
# The walk below an element

The elements below an element are found with a stack. Each call takes the element on top and puts
its children in its place, the last one first, so that the first child is on top. What a stack has
still to give are the trees of its elements, from the top down; a call takes one element away from
these trees, however long the stack becomes, and so the walk ends. The order in which it gives the
elements is that of the paths to them, in which a path comes before those that go on from it.
-/

namespace FlowLint.Markup.Element

/-- The element on top of a stack, which is its last, and the stack without it but with its
children, the last one first. -/
def next? (stack : List Element) : Option (Element × List Element) :=
  stack.getLast?.map fun e => (e, stack.dropLast ++ e.children.reverse)

/-- Calls from one stack give the elements and come to the other stack. -/
inductive Gives : List Element → List Element → List Element → Prop
  | stay (stack : List Element) : Gives stack [] stack
  | call {e : Element} {es stack stack' left : List Element}
      (taken : next? stack = some (e, stack')) (more : Gives stack' es left) :
      Gives stack (e :: es) left

variable {e d d' : Element} {es stack stack' left : List Element} {p q : List Nat}

/-! ## Calls -/

@[simp] theorem next?_eq_none : next? stack = none ↔ stack = [] := by
  rw [next?, Option.map_eq_none_iff, List.getLast?_eq_none_iff]

/-- A step takes the element on top and puts its children there, the first of them uppermost. -/
theorem next?_eq_some : next? stack = some (e, stack') ↔
    ∃ below, stack = below ++ [e] ∧ stack' = below ++ e.children.reverse := by
  rw [next?, Option.map_eq_some_iff]
  constructor
  · intro h
    obtain ⟨top, htop, heq⟩ := h
    obtain ⟨below, rfl⟩ := List.getLast?_eq_some_iff.mp htop
    obtain ⟨rfl, rfl⟩ := Prod.mk.inj heq
    exact ⟨below, rfl, by rw [List.dropLast_concat]⟩
  · intro h
    obtain ⟨below, rfl, rfl⟩ := h
    exact ⟨e, List.getLast?_concat, by rw [List.dropLast_concat]⟩

/-- A call takes the first of the elements that the stack has still to give. -/
theorem forest_of_next? (h : next? stack = some (e, stack')) :
    forest stack.reverse = e :: forest stack'.reverse := by
  obtain ⟨below, rfl, rfl⟩ := next?_eq_some.mp h
  simp [forest, beneath_eq]

/-- What calls give and what is then left are all that the stack had to give. -/
theorem Gives.forest_eq (h : Gives stack es left) :
    forest stack.reverse = es ++ forest left.reverse := by
  induction h with
  | stay stack => rfl
  | call taken _ ih => rw [forest_of_next? taken, ih, List.cons_append]

/-- The walk ends: from every stack there are calls that leave nothing on it. -/
theorem gives_forest (stack : List Element) : Gives stack (forest stack.reverse) [] := by
  -- The stack may grow, but what it has still to give becomes less.
  induction hn : (forest stack.reverse).length generalizing stack with
  | zero =>
    cases h : next? stack with
    | none =>
      obtain rfl := next?_eq_none.mp h
      exact .stay []
    | some x =>
      obtain ⟨e, stack'⟩ := x
      rw [forest_of_next? h] at hn
      cases hn
  | succ n ih =>
    cases h : next? stack with
    | none =>
      obtain rfl := next?_eq_none.mp h
      cases hn
    | some x =>
      obtain ⟨e, stack'⟩ := x
      have hforest := forest_of_next? h
      rw [hforest, List.length_cons] at hn
      rw [hforest]
      have hgives : Gives stack' (forest stack'.reverse) [] := ih stack' (Nat.succ.inj hn)
      exact .call h hgives

@[simp] theorem forest_eq_nil : forest es = [] ↔ es = [] := by
  cases es with
  | nil => exact iff_of_true rfl rfl
  | cons e rest => exact iff_of_false (List.cons_ne_nil _ _) (List.cons_ne_nil _ _)

/-- Where the walk stops, it has given everything. -/
theorem Gives.stops_iff (h : Gives stack es left) :
    next? left = none ↔ es = forest stack.reverse := by
  simp [h.forest_eq]

/-! ## Paths -/

/-- Paths are in the order of the places they lead to. -/
theorem path_lt_of_place_lt (hd : e.at? p = some d) (hd' : e.at? q = some d')
    (h : e.place p < e.place q) : p < q := by
  induction p generalizing e q with
  | nil =>
    cases q with
    | nil => exact absurd h (Nat.lt_irrefl _)
    | cons j q => exact List.nil_lt_cons j q
  | cons i p ih =>
    cases q with
    | nil => exact absurd h (Nat.not_lt_zero _)
    | cons j q =>
      apply List.cons_lt_cons_iff.mpr
      rcases Nat.lt_trichotomy i j with hij | rfl | hij
      · exact .inl hij
      · obtain ⟨c, hc, hd⟩ := exists_child hd
        rw [at?_cons hc] at hd'
        rw [place_cons hc, place_cons hc] at h
        exact .inr ⟨rfl, ih hd hd' (by omega)⟩
      · have hlt := place_lt_of_lt hd' hd hij
        omega

/-- The elements below an element are those at its paths, in the order of the paths. -/
theorem exists_paths (e : Element) : ∃ paths : List (List Nat), paths.Pairwise (· < ·) ∧
    (∀ p, p ∈ paths ↔ p ≠ [] ∧ ∃ d, e.at? p = some d) ∧
    paths.map e.at? = e.beneath.map some := by
  have hpath : ∀ k : Fin e.beneath.length, ∃ p, e.at? p = some e.beneath[k] ∧
      e.place p = k + 1 := fun k => by
    apply exists_path
    rw [List.getElem?_cons_succ]
    exact List.getElem?_eq_getElem k.isLt
  choose path hat hplace using hpath
  refine ⟨List.ofFn path, ?_, fun p => ?_, ?_⟩
  · refine List.pairwise_ofFn.mpr fun i j hij => path_lt_of_place_lt (hat i) (hat j) ?_
    rw [hplace, hplace]
    omega
  · rw [List.mem_ofFn]
    constructor
    · intro h
      obtain ⟨k, rfl⟩ := h
      refine ⟨fun hnil => ?_, _, hat k⟩
      have hzero := hplace k
      rw [hnil, place] at hzero
      omega
    · intro h
      obtain ⟨hne, d, hd⟩ := h
      obtain ⟨i, q, rfl⟩ := List.exists_cons_of_ne_nil hne
      obtain ⟨c, hc, -⟩ := exists_child hd
      obtain ⟨hlt, -⟩ := List.getElem?_eq_some_iff.mp (getElem?_place hd)
      rw [List.length_cons] at hlt
      have hpos := place_cons (p := q) hc
      let k : Fin e.beneath.length := ⟨e.place (i :: q) - 1, by omega⟩
      refine ⟨k, place_injective (hat k) hd ?_⟩
      rw [hplace]
      show e.place (i :: q) - 1 + 1 = _
      omega
  · rw [List.map_ofFn]
    refine List.ext_getElem (by simp) fun k hk hk' => ?_
    rw [List.getElem_ofFn, List.getElem_map]
    exact hat _

/-! ## The elements below an element -/

/-- **The walk gives the preorder**: called from the children of an element, it gives the elements
below it as the recursion over the tree lists them, and then stops. Calls give a part of them from
the beginning, and no call finds an empty stack before all have been given. Each element below
comes once, by its own path, before those below it and after the trees of the siblings before it. -/
theorem descendants_preorder (e : Element) :
    e.descendants = e.beneath ∧
      Gives e.children.reverse e.descendants [] ∧
      (∀ es left, Gives e.children.reverse es left →
        es <+: e.descendants ∧ (next? left = none ↔ es = e.descendants)) ∧
      ∃ paths : List (List Nat), paths.Pairwise (· < ·) ∧
        (∀ p, p ∈ paths ↔ p ≠ [] ∧ ∃ d, e.at? p = some d) ∧
        paths.map e.at? = e.descendants.map some := by
  have hforest : forest e.children.reverse.reverse = e.beneath := by
    rw [List.reverse_reverse, beneath_eq]
  rw [descendants_eq_beneath]
  refine ⟨rfl, hforest ▸ gives_forest _, fun es left h => ?_, exists_paths e⟩
  have hgiven := h.forest_eq
  have hstops := h.stops_iff
  rw [hforest] at hgiven hstops
  exact ⟨⟨_, hgiven.symm⟩, hstops⟩

end FlowLint.Markup.Element
