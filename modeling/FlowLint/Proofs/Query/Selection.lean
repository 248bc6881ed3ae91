import FlowLint.Query.ProcessStep
import Mathlib.Data.List.Basic

/-!
# Queries of one step

The queries that rules ask have one step, from the document to elements below it. Elements
found in one step are found once each, in the order of the document, so the places by which a
query tells elements apart drop out: its answer is the elements below that the step accepts.
Nothing is said of queries with several steps, which may reach an element in several ways.
-/

namespace FlowLint.Markup.Element

/-- What holds of an element if it holds of its children holds of every element. -/
theorem induction {motive : Element → Prop}
    (step : ∀ e, (∀ c ∈ e.children, motive c) → motive e) (e : Element) : motive e :=
  step e fun c _ => induction step c
termination_by sizeOf e
decreasing_by
  have hlt : sizeOf c < sizeOf e.children := List.sizeOf_lt_of_mem ‹_›
  cases e
  simp only [mk.sizeOf_spec] at hlt ⊢
  omega

@[simp]
theorem forest_append (xs ys : List Element) : forest (xs ++ ys) = forest xs ++ forest ys := by
  induction xs with
  | nil => rfl
  | cons e rest ih => rw [List.cons_append, forest, ih, forest, List.cons_append, List.append_assoc]

/-- The worklist comes to the elements in document order. -/
theorem visit_eq_forest (pending : List Element) : visit pending = forest pending := by
  fun_induction visit pending with
  | case1 => rfl
  | case2 e rest ih => rw [ih, forest_append, forest, beneath_eq]

/-- The iterator gives what the recursive listing gives. -/
theorem descendants_eq_beneath (e : Element) : e.descendants = beneath e := by
  rw [descendants, visit_eq_forest, beneath_eq]

@[simp] theorem mem_forest {d : Element} {es : List Element} :
    d ∈ forest es ↔ ∃ c ∈ es, d ∈ c :: c.descendants := by
  induction es with
  | nil => simp [forest]
  | cons c rest ih =>
    simp only [forest, List.mem_cons, List.mem_append, ih, exists_eq_or_imp, descendants_eq_beneath,
      or_assoc]

/-- Where no element further below counts, a forest counts as its outermost elements. -/
theorem filter_forest {p : Element → Bool} {es : List Element}
    (h : ∀ e ∈ es, ∀ inner ∈ e.beneath, p inner = false) : (forest es).filter p = es.filter p := by
  induction es with
  | nil => rfl
  | cons e rest ih =>
    obtain ⟨he, hrest⟩ := List.forall_mem_cons.mp h
    have hbeneath : e.beneath.filter p = [] := by
      rw [List.filter_eq_nil_iff]
      intro inner hinner
      rw [he inner hinner]
      exact Bool.false_ne_true
    rw [forest, List.filter_cons, List.filter_append, hbeneath, ih hrest, List.filter_cons]
    rfl

theorem filter_forest_map {α : Type} {p : Element → Bool} {tree : α → Element}
    (h : ∀ item, ∀ inner ∈ (tree item).beneath, p inner = false) (items : List α) :
    (forest (items.map tree)).filter p = (items.map tree).filter p := by
  apply filter_forest
  rw [List.forall_mem_map]
  exact fun item _ => h item

end FlowLint.Markup.Element

namespace FlowLint.Query

open FlowLint.Markup (Element)

/-! ## Places -/

@[simp] theorem map_element_number (index : Nat) (es : List Element) :
    (number index es).map (·.element) = es := by
  induction es generalizing index with
  | nil => rfl
  | cons e rest ih => rw [number, List.map_cons, ih]

theorem le_index_of_mem_number {index : Nat} {es : List Element} {n : Node}
    (h : n ∈ number index es) : index ≤ n.index := by
  induction es generalizing index with
  | nil => cases h
  | cons e rest ih =>
    rw [number, List.mem_cons] at h
    rcases h with rfl | h
    · exact Nat.le_refl _
    · exact Nat.le_of_succ_le (ih h)

theorem pairwise_number (index : Nat) (es : List Element) :
    (number index es).Pairwise (·.index < ·.index) := by
  induction es generalizing index with
  | nil => exact .nil
  | cons e rest ih =>
    exact .cons (fun n hn => Nat.lt_of_succ_le (le_index_of_mem_number hn)) (ih (index + 1))

/-- Positions that increase are distinct already. -/
theorem distinct_eq_self {nodes : List Node} {seen : List Nat}
    (hseen : ∀ n ∈ nodes, n.index ∉ seen) (hnodes : nodes.Pairwise (·.index < ·.index)) :
    distinct seen nodes = nodes := by
  -- Places grow along the list, so the place just seen is none of those to come.
  induction nodes generalizing seen with
  | nil => rfl
  | cons n rest ih =>
    obtain ⟨hn, hrest⟩ := List.pairwise_cons.mp hnodes
    have hfirst : ¬ seen.contains n.index = true := by
      rw [List.contains_iff_mem]
      exact hseen n List.mem_cons_self
    rw [distinct, if_neg hfirst, ih _ hrest]
    intro m hm
    rw [List.mem_cons, not_or]
    have hnotMem : m.index ∉ seen := hseen m (List.mem_cons_of_mem n hm)
    exact ⟨Nat.ne_of_gt (hn m hm), hnotMem⟩

/-! ## One step -/

/-- A query that goes to elements below selects those that its step accepts, as they come in
the document. -/
theorem select_descendant (names : List String) (conditions : List Condition) (root : Element) :
    let s : Step := ⟨.descendant, names, conditions⟩
    ((⟨[s]⟩ : Structural).select root).map (·.element) = root.descendants.filter s.accepts := by
  intro s
  have hselect : (⟨[s]⟩ : Structural).select root =
      distinct [] ((Node.root root).descendants.filter fun n => s.accepts n.element) := by
    rw [Structural.select, List.foldl_cons, List.foldl_nil, Step.apply, List.flatMap_singleton]
    rfl
  have hplaces : ((Node.root root).descendants.filter fun n => s.accepts n.element).Pairwise
      (·.index < ·.index) := (pairwise_number 1 root.descendants).filter _
  rw [hselect, distinct_eq_self (fun _ _ => List.not_mem_nil) hplaces]
  have helements : (Node.root root).descendants.map (·.element) = root.descendants :=
    map_element_number 1 root.descendants
  rw [← helements, List.filter_map]
  rfl

theorem foldl_satisfying (s : Step) (conditions : List Condition) :
    conditions.foldl Structural.satisfying ⟨[s]⟩ =
      ⟨[{ s with conditions := s.conditions ++ conditions }]⟩ := by
  induction conditions generalizing s with
  | nil => rw [List.append_nil]; rfl
  | cons c rest ih =>
    have hone : Structural.satisfying ⟨[s]⟩ c =
        ⟨[{ s with conditions := s.conditions ++ [c] }]⟩ := rfl
    rw [List.foldl_cons, hone, ih, List.append_assoc, List.singleton_append]

/-! ## Channels -/

theorem ChannelFilter.toQuery_eq (f : ChannelFilter) :
    f.toQuery = ⟨[⟨.descendant, ["messageFlow"], f.conditions⟩]⟩ :=
  foldl_satisfying ⟨.descendant, ["messageFlow"], []⟩ f.conditions

def ChannelFilter.accepts (f : ChannelFilter) (e : Element) : Bool :=
  ["messageFlow"].contains e.name && f.conditions.all (Condition.holds e)

/-- A filter for channels accepts the message flows for which its conditions hold. -/
theorem ChannelFilter.accepts_iff {f : ChannelFilter} {e : Element} : f.accepts e = true ↔
    e.name = "messageFlow" ∧ ∀ condition ∈ f.conditions, condition.holds e = true := by
  rw [accepts, Bool.and_eq_true, List.contains_iff_mem, List.mem_singleton, List.all_eq_true]

/-- The channels of a document are the elements that the filter accepts, in order. -/
theorem channels_eq (document : Element) (f : ChannelFilter) :
    channels document f = (document.descendants.filter f.accepts).map .mk := by
  have hselect := select_descendant ["messageFlow"] f.conditions document
  rw [channels, f.toQuery_eq]
  exact List.map_map.symm.trans (congrArg (List.map Channel.mk) hselect)

/-- A filter with conditions added takes a part of the channels. -/
theorem channels_of_conditions (document : Element) {f g : ChannelFilter} {more : List Condition}
    (h : g.conditions = f.conditions ++ more) :
    channels document g =
      (channels document f).filter fun c => more.all (Condition.holds c.element) := by
  have haccepts : g.accepts = fun e => more.all (Condition.holds e) && f.accepts e := by
    funext e
    rw [ChannelFilter.accepts, h, List.all_append, ← Bool.and_assoc, Bool.and_comm]
    rfl
  rw [channels_eq, channels_eq, haccepts, List.filter_map, List.filter_filter]
  rfl

theorem condition_holds {document : Element} {f : ChannelFilter} {c : Channel}
    (hc : c ∈ channels document f) {condition : Condition} (h : condition ∈ f.conditions) :
    condition.holds c.element = true := by
  rw [channels_eq] at hc
  obtain ⟨e, he, rfl⟩ := List.mem_map.mp hc
  have haccepts := (List.mem_filter.mp he).2
  exact (ChannelFilter.accepts_iff.mp haccepts).2 condition h

/-! ## Process steps -/

theorem StepFilter.toQuery_eq (f : StepFilter) :
    f.toQuery = ⟨[⟨.descendant, ["callActivity", "serviceTask"], f.conditions⟩]⟩ :=
  foldl_satisfying ⟨.descendant, ["callActivity", "serviceTask"], []⟩ f.conditions

def StepFilter.accepts (f : StepFilter) (e : Element) : Bool :=
  ["callActivity", "serviceTask"].contains e.name && f.conditions.all (Condition.holds e)

/-- A filter for steps accepts the calls and service tasks for which its conditions hold. -/
theorem StepFilter.accepts_iff {f : StepFilter} {e : Element} : f.accepts e = true ↔
    (e.name = "callActivity" ∨ e.name = "serviceTask") ∧
      ∀ condition ∈ f.conditions, condition.holds e = true := by
  rw [accepts, Bool.and_eq_true, List.contains_iff_mem, List.mem_pair, List.all_eq_true]

/-- The steps of a document are the elements that the filter accepts, in order. -/
theorem processSteps_eq (document : Element) (f : StepFilter) :
    processSteps document f = (document.descendants.filter f.accepts).map .mk := by
  have hselect := select_descendant ["callActivity", "serviceTask"] f.conditions document
  rw [processSteps, f.toQuery_eq]
  exact List.map_map.symm.trans (congrArg (List.map ProcessStep.mk) hselect)

/-! ## Channels made by hand -/

/-- A property of an element. -/
def propertyElement (key value : String) : Element :=
  ((Element.named "property").withChild ((Element.named "key").withText key)).withChild
    ((Element.named "value").withText value)

/-- A channel with a name and properties. -/
def channelElement (name : String) (properties : List (String × String)) : Element :=
  ((Element.named "messageFlow").withAttribute "name" name).withChild
    { Element.named "extensionElements" with
      children := properties.map fun p => propertyElement p.1 p.2 }

end FlowLint.Query
