import FlowLint.Proofs.Query.Selection

/-!
# Paths to elements

An element of a document is told from all others by the path that leads to it: which child to take
at each level. Elements with equal content stay apart by it. The number that a query gives an
element, its place, is the number of elements before it in document order; different paths have
different places, so the two ways to tell elements apart agree.
-/

namespace FlowLint.Markup.Element

/-- The element at the end of a path. -/
def at? : Element → List Nat → Option Element
  | e, [] => some e
  | e, i :: path => e.children[i]?.bind fun c => c.at? path

/-- The number of elements before the end of a path in document order. -/
def place : Element → List Nat → Nat
  | _, [] => 0
  | e, i :: path =>
    1 + count (e.children.take i) + (e.children[i]?.elim 0 fun c => c.place path)

variable {e d d' : Element} {es : List Element} {p q : List Nat} {i k : Nat}

theorem size_eq (e : Element) : e.size = 1 + count e.children := by
  cases e; rfl

theorem at?_cons (h : e.children[i]? = some d) : e.at? (i :: p) = d.at? p := by
  rw [at?, h, Option.bind_some]

theorem place_cons (h : e.children[i]? = some d) :
    e.place (i :: p) = 1 + count (e.children.take i) + d.place p := by
  rw [place, h, Option.elim_some]

theorem exists_child (h : e.at? (i :: p) = some d) :
    ∃ c, e.children[i]? = some c ∧ c.at? p = some d := by
  rw [at?] at h
  exact Option.bind_eq_some_iff.mp h

theorem at?_append (e : Element) (p q : List Nat) :
    e.at? (p ++ q) = (e.at? p).bind fun c => c.at? q := by
  induction p generalizing e with
  | nil => rfl
  | cons i p ih =>
    rw [List.cons_append, at?, at?, Option.bind_assoc]
    simp only [ih]

/-- Positions inside an element are counted from the element on. -/
theorem place_append (h : e.at? p = some d) : e.place (p ++ q) = e.place p + d.place q := by
  induction p generalizing e with
  | nil =>
    obtain rfl := Option.some.inj h
    rw [List.nil_append, place, Nat.zero_add]
  | cons i p ih =>
    obtain ⟨c, hc, hd⟩ := exists_child h
    rw [List.cons_append, place_cons hc, place_cons hc, ih hd, ← Nat.add_assoc]

theorem count_take_succ (h : es[i]? = some d) :
    count (es.take (i + 1)) = count (es.take i) + d.size := by
  simp [List.take_add_one, h, count]

theorem count_take_le (es : List Element) (hik : i ≤ k) :
    count (es.take i) ≤ count (es.take k) := by
  obtain ⟨j, rfl⟩ := Nat.exists_eq_add_of_le hik
  rw [List.take_add, count_append]
  omega

theorem count_take_le_count (es : List Element) (i : Nat) : count (es.take i) ≤ count es := by
  have h := count_append (es.take i) (es.drop i)
  rw [List.take_append_drop] at h
  omega

/-- The tree of an element at the end of a path is a part of the tree at its beginning. -/
theorem place_add_size_le (h : e.at? p = some d) : e.place p + d.size ≤ e.size := by
  induction p generalizing e with
  | nil =>
    obtain rfl := Option.some.inj h
    exact Nat.le_of_eq (Nat.zero_add _)
  | cons i p ih =>
    obtain ⟨c, hc, hd⟩ := exists_child h
    have hle := ih hd
    have hnext := count_take_succ hc
    have hall := count_take_le_count e.children (i + 1)
    rw [place_cons hc, size_eq e]
    omega

theorem size_pos (e : Element) : 0 < e.size := by
  rw [size_eq]
  omega

/-- A path to an earlier child leads to an earlier place. -/
theorem place_lt_of_lt {j : Nat} (hd : e.at? (i :: p) = some d) (hd' : e.at? (j :: q) = some d')
    (hij : i < j) : e.place (i :: p) < e.place (j :: q) := by
  obtain ⟨c, hc, hd⟩ := exists_child hd
  obtain ⟨c', hc', -⟩ := exists_child hd'
  have hle := place_add_size_le hd
  have hpos := size_pos d
  have hnext := count_take_succ hc
  have hbefore := count_take_le e.children (show i + 1 ≤ j from hij)
  rw [place_cons hc, place_cons hc']
  omega

/-- An element's position determines the way to it. -/
theorem place_injective (hd : e.at? p = some d) (hd' : e.at? q = some d')
    (h : e.place p = e.place q) : p = q := by
  induction p generalizing e q with
  | nil =>
    cases q with
    | nil => rfl
    | cons j q =>
      obtain ⟨c, hc, -⟩ := exists_child hd'
      rw [place, place_cons hc] at h
      omega
  | cons i p ih =>
    cases q with
    | nil =>
      obtain ⟨c, hc, -⟩ := exists_child hd
      rw [place, place_cons hc] at h
      omega
    | cons j q =>
      rcases Nat.lt_trichotomy i j with hij | rfl | hij
      · have hlt := place_lt_of_lt hd hd' hij
        omega
      · obtain ⟨c, hc, hd⟩ := exists_child hd
        obtain ⟨c', hc', hd'⟩ := exists_child hd'
        obtain rfl := Option.some.inj (hc.symm.trans hc')
        rw [place_cons hc, place_cons hc] at h
        rw [ih hd hd' (by omega)]
      · have hlt := place_lt_of_lt hd' hd hij
        omega

/-! ## Places in the document -/

@[simp] theorem length_forest (es : List Element) : (forest es).length = count es := by
  induction hn : count es using Nat.strongRecOn generalizing es with
  | ind n ih =>
    cases es with
    | nil => exact hn
    | cons e rest =>
      rw [count_cons] at hn
      rw [forest, beneath_eq, List.length_cons, List.length_append,
        ih _ (by omega) e.children rfl, ih _ (by omega) rest rfl]
      omega

/-- The place of an element is where it stands in the document. -/
theorem getElem?_place (h : e.at? p = some d) : (e :: e.beneath)[e.place p]? = some d := by
  induction p generalizing e with
  | nil => exact h
  | cons i p ih =>
    obtain ⟨c, hc, hd⟩ := exists_child h
    obtain ⟨hi, hget⟩ := List.getElem?_eq_some_iff.mp hc
    have hsplit : e.children = e.children.take i ++ c :: e.children.drop (i + 1) := by
      rw [← hget, ← List.drop_eq_getElem_cons hi, List.take_append_drop]
    have hforest : e.beneath = forest (e.children.take i) ++
        ((c :: c.beneath) ++ forest (e.children.drop (i + 1))) := by
      rw [beneath_eq]
      conv => lhs; rw [hsplit]
      simp [forest]
    have hlt := place_add_size_le hd
    have hpos := size_pos d
    have hlen : (c :: c.beneath).length = c.size := by
      rw [List.length_cons, beneath_eq, length_forest, size_eq, Nat.add_comm]
    rw [place_cons hc, Nat.add_assoc, Nat.add_comm 1, List.getElem?_cons_succ, hforest,
      List.getElem?_append_right (by rw [length_forest]; omega), length_forest,
      Nat.add_sub_cancel_left, List.getElem?_append_left (by omega)]
    exact ih hd

/-- Every position in a listing is that of an element below one of the trees. -/
theorem exists_path_forest (h : (forest es)[k]? = some d) :
    ∃ i p c, es[i]? = some c ∧ c.at? p = some d ∧ count (es.take i) + c.place p = k := by
  induction hn : count es using Nat.strongRecOn generalizing es k with
  | ind n ih =>
    cases es with
    | nil => cases h
    | cons e rest =>
      rw [count_cons] at hn
      rw [forest, beneath_eq] at h
      cases k with
      | zero => exact ⟨0, [], e, rfl, h, rfl⟩
      | succ k =>
        rw [List.getElem?_cons_succ] at h
        by_cases hk : k < count e.children
        · rw [List.getElem?_append_left (by rw [length_forest]; exact hk)] at h
          obtain ⟨i, p, c, hc, hd, hplace⟩ := ih _ (by omega) h rfl
          refine ⟨0, i :: p, e, rfl, (at?_cons hc).trans hd, ?_⟩
          rw [place_cons hc, List.take_zero, count]
          omega
        · rw [List.getElem?_append_right (by rw [length_forest]; omega), length_forest] at h
          obtain ⟨i, p, c, hc, hd, hplace⟩ := ih _ (by omega) h rfl
          refine ⟨i + 1, p, c, hc, hd, ?_⟩
          rw [List.take_succ_cons, count_cons]
          omega

/-- A path leads to each element of the document. -/
theorem exists_path (h : (e :: e.beneath)[k]? = some d) :
    ∃ p, e.at? p = some d ∧ e.place p = k := by
  cases k with
  | zero => exact ⟨[], h, rfl⟩
  | succ k =>
    rw [List.getElem?_cons_succ, beneath_eq] at h
    obtain ⟨i, p, c, hc, hd, hplace⟩ := exists_path_forest h
    refine ⟨i :: p, (at?_cons hc).trans hd, ?_⟩
    rw [place_cons hc]
    omega

end FlowLint.Markup.Element

namespace FlowLint.Query

open FlowLint.Markup (Element)

variable {root : Element} {p q : List Nat} {m n : Node}

/-- The element at the end of a path, with its place. -/
def nodeAt (root : Element) (path : List Nat) : Option Node :=
  (root.at? path).map fun e => ⟨root.place path, e⟩

/-- A node is an element together with its position. -/
theorem nodeAt_eq_some :
    nodeAt root p = some n ↔ root.at? p = some n.element ∧ root.place p = n.index := by
  unfold nodeAt
  rw [Option.map_eq_some_iff]
  constructor
  · rintro ⟨e, he, rfl⟩
    exact ⟨he, rfl⟩
  · rintro ⟨he, hplace⟩
    exact ⟨n.element, he, by rw [hplace]⟩

/-- One place, one path. -/
theorem nodeAt_injective (hm : nodeAt root p = some m) (hn : nodeAt root q = some n)
    (h : m.index = n.index) : p = q := by
  obtain ⟨hm, hp⟩ := nodeAt_eq_some.mp hm
  obtain ⟨hn, hq⟩ := nodeAt_eq_some.mp hn
  exact Element.place_injective hm hn (by omega)

/-- A place below an element is counted from the place of the element. -/
theorem nodeAt_append (hn : nodeAt root p = some n) :
    nodeAt root (p ++ q) = some m ↔
      n.element.at? q = some m.element ∧ n.index + n.element.place q = m.index := by
  obtain ⟨hn, hp⟩ := nodeAt_eq_some.mp hn
  rw [nodeAt_eq_some, Element.at?_append, hn, Option.bind_some, Element.place_append hn, hp]

theorem getElem?_numberTrees (index i : Nat) (es : List Element) :
    (numberTrees index es)[i]? = es[i]?.map fun e => ⟨index + Element.count (es.take i), e⟩ := by
  induction es generalizing index i with
  | nil => rfl
  | cons e rest ih =>
    cases i with
    | zero => rfl
    | succ i =>
      rw [numberTrees, List.getElem?_cons_succ, ih, List.getElem?_cons_succ, List.take_succ_cons,
        Element.count, Nat.add_assoc]

theorem getElem?_number (index i : Nat) (es : List Element) :
    (number index es)[i]? = es[i]?.map fun e => ⟨index + i, e⟩ := by
  induction es generalizing index i with
  | nil => rfl
  | cons e rest ih =>
    cases i with
    | zero => rfl
    | succ i =>
      rw [number, List.getElem?_cons_succ, ih, List.getElem?_cons_succ, Nat.add_assoc,
        Nat.add_comm 1 i]

/-- The children of an element are at the paths one longer than its own. -/
theorem mem_children (hn : nodeAt root p = some n) :
    m ∈ n.children ↔ ∃ i, nodeAt root (p ++ [i]) = some m := by
  rw [Node.children, List.mem_iff_getElem?]
  refine exists_congr fun i => ?_
  rw [nodeAt_append hn, getElem?_numberTrees]
  cases hc : n.element.children[i]? with
  | none => simp [Element.at?, hc]
  | some c =>
    rw [Element.at?_cons hc, Element.place_cons hc, Option.map_some, Element.at?, Element.place]
    constructor
    · intro h
      obtain rfl := Option.some.inj h
      exact ⟨rfl, by dsimp only; omega⟩
    · rintro ⟨he, hindex⟩
      obtain rfl := Option.some.inj he
      have hsame : n.index + 1 + Element.count (n.element.children.take i) = m.index := by omega
      rw [hsame]

/-- The elements below an element are at the paths that go on from its own. -/
theorem mem_descendants (hn : nodeAt root p = some n) :
    m ∈ n.descendants ↔ ∃ q, q ≠ [] ∧ nodeAt root (p ++ q) = some m := by
  rw [Node.descendants, Element.descendants_eq_beneath, List.mem_iff_getElem?]
  constructor
  · rintro ⟨k, hk⟩
    rw [getElem?_number, Option.map_eq_some_iff] at hk
    obtain ⟨e, he, rfl⟩ := hk
    have hdocument : (n.element :: n.element.beneath)[k + 1]? = some e := he
    obtain ⟨q, hq, hplace⟩ := Element.exists_path hdocument
    have hnodeAt : nodeAt root (p ++ q) = some ⟨n.index + 1 + k, e⟩ :=
      (nodeAt_append hn).mpr ⟨hq, by dsimp only; omega⟩
    refine ⟨q, ?_, hnodeAt⟩
    rintro rfl
    cases hplace
  · rintro ⟨q, hq, hm⟩
    obtain ⟨hm, hindex⟩ := (nodeAt_append hn).mp hm
    obtain ⟨i, q, rfl⟩ := List.exists_cons_of_ne_nil hq
    have hget := Element.getElem?_place hm
    obtain ⟨c, hc, -⟩ := Element.exists_child hm
    obtain ⟨k, hk⟩ : ∃ k, n.element.place (i :: q) = k + 1 := by
      rw [Element.place_cons hc]
      exact ⟨Element.count (n.element.children.take i) + c.place q, by omega⟩
    rw [hk, List.getElem?_cons_succ] at hget
    have hsame : n.index + 1 + k = m.index := by omega
    exact ⟨k, by rw [getElem?_number, hget, Option.map_some, hsame]⟩

end FlowLint.Query
